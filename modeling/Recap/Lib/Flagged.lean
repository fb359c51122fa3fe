import Mathlib

/-! Numbers spelled as digits of a base, lowest first, with every digit but the last one flagged. -/

namespace Recap.Flagged

/-- The digits of a number, each raised by the base when another one follows. -/
def spell (base value : Nat) : List Nat :=
  if 1 < base ∧ base ≤ value then (value % base + base) :: spell base (value / base)
  else [value]
termination_by value
decreasing_by
  rename_i more
  exact Nat.div_lt_self (by omega) more.1

/-- Read digits up to the first unflagged one, or until the limit is used up. -/
def unspell (base : Nat) : Nat → List Nat → Option (Nat × List Nat)
  | 0, digits => some (0, digits)
  | _ + 1, [] => none
  | limit + 1, digit :: rest =>
    if digit < base then some (digit, rest)
    else (unspell base limit rest).map fun (value, left) => (digit - base + base * value, left)

/-- A number below the base is its own only digit. -/
theorem spell_small {base value : Nat} (small : value < base) : spell base value = [value] := by
  -- The recursive branch asks for a value at least as large as the base.
  rw [spell, if_neg (by omega)]

/-- A larger number starts with its lowest digit, flagged. -/
theorem spell_large {base value : Nat} (proper : 1 < base) (large : base ≤ value) :
    spell base value = (value % base + base) :: spell base (value / base) := by
  rw [spell, if_pos ⟨proper, large⟩]

/-- Every digit of a spelling, flag included, is below twice the base. -/
theorem spell_lt {base : Nat} (proper : 1 < base) (value : Nat) :
    ∀ digit ∈ spell base value, digit < 2 * base := by
  -- The induction follows the recursion of the spelling itself.
  induction value using Nat.strongRecOn with
  | ind value ih =>
    intro digit member
    rcases Nat.lt_or_ge value base with small | large
    · rw [spell_small small, List.mem_singleton] at member
      omega
    · rw [spell_large proper large, List.mem_cons] at member
      rcases member with rfl | later
      · have := Nat.mod_lt value (show base > 0 by omega)
        omega
      · exact ih _ (Nat.div_lt_self (by omega) proper) digit later

/-- A number below a power of the base needs no more digits than the exponent. -/
theorem spell_length_le {base : Nat} (proper : 1 < base) :
    ∀ count value, value < base ^ (count + 1) → (spell base value).length ≤ count + 1 := by
  intro count
  induction count with
  | zero =>
    intro value small
    rw [spell_small (by simpa using small)]
    simp
  | succ count ih =>
    intro value bounded
    rcases Nat.lt_or_ge value base with small | large
    · simp [spell_small small]
    · -- Removing the lowest digit removes one factor of the base from the bound.
      have quotient : value / base < base ^ (count + 1) := by
        rw [Nat.div_lt_iff_lt_mul (by omega)]
        simpa [Nat.pow_succ] using bounded
      have := ih _ quotient
      simp only [spell_large proper large, List.length_cons]
      omega

/-- Reading back a spelling within the limit gives the number and what follows the spelling. -/
theorem unspell_spell {base : Nat} (proper : 1 < base) :
    ∀ limit value rest, value < base ^ (limit + 1) →
      unspell base (limit + 1) (spell base value ++ rest) = some (value, rest) := by
  intro limit
  induction limit with
  | zero =>
    intro value rest bounded
    have small : value < base := by simpa using bounded
    simp [spell_small small, unspell, small]
  | succ limit ih =>
    intro value rest bounded
    rcases Nat.lt_or_ge value base with small | large
    · simp [spell_small small, unspell, small]
    · have quotient : value / base < base ^ (limit + 1) := by
        rw [Nat.div_lt_iff_lt_mul (by omega)]
        simpa [Nat.pow_succ] using bounded
      rw [spell_large proper large, List.cons_append, unspell, if_neg (by omega), ih _ _ quotient]
      -- The lowest digit and the number of the others recombine by division with remainder.
      have recombined := Nat.mod_add_div value base
      simp [recombined]

end Recap.Flagged
