import Recap.HTTP.Query
import Recap.Lib.Signed

/-! Decoding a percent encoding with an index of 32 bits, and the texts that this is enough for. -/

namespace Recap.HTTP.URI

open Recap.Blaze Signed

/-! ### The loop -/

/-- The index of the loop in `URI::decode`, and what is decoded so far. -/
structure DecodeState where
  i : Int32
  out : Bytes

/-- How the loop ends, if it does. -/
inductive Ending where
  | returned (out : Bytes)
  /-- A character is read from behind the end of the text. -/
  | pastEnd
  | running
  deriving DecidableEq

/-- `++i` -/
def increment (beyond : Int → Int32) (i : Int32) : Int32 := int beyond (i.toInt + 1)

namespace DecodeState

/-- A round of the loop, unless it reads past the end. -/
def round (beyond : Int → Int32) (str : Bytes) (state : DecodeState) : Option DecodeState :=
  match str[toSize state.i]? with
  | none => none
  | some symbol =>
    if symbol = 37 then
      -- The end of the escape is an `int` that is compared with a `size_t`.
      if toSize (int beyond (state.i.toInt + 3)) ≤ str.length then
        let first := increment beyond state.i
        let second := increment beyond first
        match str[toSize first]?, str[toSize second]? with
        | some high, some low => some ⟨increment beyond second, state.out ++ [toChar [high, low]]⟩
        | _, _ => none
      -- A percent sign without two characters behind it is dropped.
      else some ⟨increment beyond state.i, state.out⟩
    else if symbol = 43 then some ⟨increment beyond state.i, state.out ++ [32]⟩
    else some ⟨increment beyond state.i, state.out ++ [symbol]⟩

/-- The loop, in the given number of rounds. -/
def run (beyond : Int → Int32) (str : Bytes) : (fuel : Nat) → DecodeState → Ending
  | 0, _ => .running
  | fuel + 1, state =>
    if toSize state.i < str.length then
      match state.round beyond str with
      | some next => run beyond str fuel next
      | none => .pastEnd
    else .returned state.out

end DecodeState

/-- `URI::decode` returns a text, within as many rounds as there are characters. -/
def Returns (beyond : Int → Int32) (str out : Bytes) : Prop :=
  ∀ fuel, str.length < fuel → (DecodeState.mk 0 []).run beyond str fuel = .returned out

/-! ### Encodings and symbols -/

/-- A digit of a percent encoding in small letters. -/
def lowerHexDigit (digit : UInt8) : UInt8 :=
  if digit < 10 then 48 + digit else 87 + digit

/-- Whether a character is a digit for a value, in either letter case. -/
def IsHexDigit (value digit : UInt8) : Prop := digit = hexDigit value ∨ digit = lowerHexDigit value

/-- The full encodings of a text, in which each character is sent by its code. -/
inductive Encodes : Bytes → Bytes → Prop
  | nil : Encodes [] []
  | cons {character high low : UInt8} {text encoded : Bytes}
      (first : IsHexDigit (character / 16) high) (second : IsHexDigit (character % 16) low)
      (rest : Encodes text encoded) : Encodes (character :: text) (37 :: high :: low :: encoded)

/-- Where the symbol at a place ends, which is an escape if there are enough characters for one. -/
def symbolEnd (str : Bytes) (place : Nat) : Nat :=
  if str[place]? = some 37 ∧ place + 3 ≤ str.length then place + 3 else place + 1

/-- The places where symbols start, from one of them on. -/
inductive SymbolFrom (str : Bytes) : Nat → Nat → Prop
  | here {place : Nat} : SymbolFrom str place place
  | later {place other : Nat} (inside : place < str.length)
      (more : SymbolFrom str (symbolEnd str place) other) : SymbolFrom str place other

/--
Whether the index has room for a text.

The index is also compared with the end of an escape, before it is known that there is one.
-/
structure Roomy (str : Bytes) (start : Nat) : Prop where
  short : str.length < 2 ^ 31
  escape : ∀ place, SymbolFrom str start place → str[place]? = some 37 → place + 3 < 2 ^ 31

/-! ### Rounds with room -/

section Rounds

variable {beyond : Int → Int32} {str : Bytes} {state : DecodeState} {place other : Nat}

theorem symbolEnd_escape (percent : str[place]? = some 37) (complete : place + 3 ≤ str.length) :
    symbolEnd str place = place + 3 := if_pos ⟨percent, complete⟩

theorem symbolEnd_lone (lone : str[place]? = some 37 → str.length < place + 3) :
    symbolEnd str place = place + 1 := by
  rw [symbolEnd, if_neg]
  rintro ⟨percent, complete⟩
  exact absurd (lone percent) (by omega)

/-- A symbol ends in the text, behind where it starts. -/
theorem symbolEnd_bounds (inside : place < str.length) :
    place < symbolEnd str place ∧ symbolEnd str place ≤ str.length := by
  unfold symbolEnd
  split <;> omega

/-- Without two more characters, a percent sign is dropped. -/
theorem decode_lone {rest : Bytes} (few : rest.length < 2) : decode (37 :: rest) = decode rest := by
  match rest, few with
  | [], _ => rfl
  | [_], _ => rfl

theorem toInt_increment {i : Int32} (same : i.toInt = place) (small : place + 1 < 2 ^ 31) :
    (increment beyond i).toInt = (place + 1 : Nat) := by
  rw [increment, toInt_int (by constructor <;> omega), same]
  rfl

/-- A round with room decodes the symbol at the index and goes on behind it. -/
theorem round_eq (same : state.i.toInt = place) (inside : place < str.length)
    (short : str.length < 2 ^ 31) (escape : str[place]? = some 37 → place + 3 < 2 ^ 31) :
    ∃ next, state.round beyond str = some next ∧ next.i.toInt = symbolEnd str place ∧
      state.out ++ decode (str.drop place) =
        next.out ++ decode (str.drop (symbolEnd str place)) := by
  have here : str[place]? = some str[place] := List.getElem?_eq_getElem inside
  have split : str.drop place = str[place] :: str.drop (place + 1) :=
    List.drop_eq_getElem_cons inside
  have moved := @toInt_increment beyond place state.i same (by omega)
  unfold DecodeState.round
  rw [toSize_of_toInt same, here]
  dsimp only
  by_cases percent : str[place] = 37
  · -- An escape is decoded if its digits are there, and the percent sign is dropped otherwise.
    rw [percent] at here
    have room := escape here
    have stop : toSize (int beyond (state.i.toInt + 3)) = place + 3 :=
      toSize_of_toInt (by rw [toInt_int (by constructor <;> omega), same]; rfl)
    rw [if_pos percent, stop, split, percent]
    by_cases complete : place + 3 ≤ str.length
    · -- The index moves three times, and each number on the way is in range.
      have moved' := @toInt_increment beyond (place + 1) _ moved (by omega)
      have moved'' := @toInt_increment beyond (place + 2) _ moved' (by omega)
      have high : str[place + 1]? = some (str[place + 1]) := List.getElem?_eq_getElem (by omega)
      have low : str[place + 2]? = some (str[place + 2]) := List.getElem?_eq_getElem (by omega)
      have digits : str.drop (place + 1) =
          str[place + 1] :: str[place + 2] :: str.drop (place + 3) := by
        rw [List.drop_eq_getElem_cons, List.drop_eq_getElem_cons]
      rw [if_pos complete, toSize_of_toInt moved, toSize_of_toInt moved', high, low,
        symbolEnd_escape here complete, digits]
      refine ⟨_, rfl, ?_, ?_⟩
      · dsimp only
        rw [moved'']
      · simp [decode]
    · -- What is behind the percent sign is decoded in the rounds to come.
      have few : (str.drop (place + 1)).length < 2 := by
        rw [List.length_drop]
        omega
      rw [if_neg complete, symbolEnd_lone (fun _ => by omega), decode_lone few]
      exact ⟨_, rfl, moved, rfl⟩
  · -- Any other character is a symbol of its own.
    have plain : symbolEnd str place = place + 1 := symbolEnd_lone fun percent' => by
      rw [here] at percent'
      exact absurd (Option.some_inj.mp percent') percent
    rw [if_neg percent, plain, split, decode_cons percent]
    split <;> exact ⟨_, rfl, moved, by simp⟩

/-- With room for the index, the loop comes to what the rest of the text is decoded to. -/
theorem run_eq (same : state.i.toInt = place) (inside : place ≤ str.length)
    (roomy : Roomy str place) {fuel : Nat} (enough : str.length < fuel + place) :
    state.run beyond str fuel = .returned (state.out ++ decode (str.drop place)) := by
  -- Each round leaves fewer characters, and room for the symbols that are still to come.
  induction fuel generalizing state place with
  | zero => omega
  | succ fuel ih =>
    rw [DecodeState.run, toSize_of_toInt same]
    by_cases more : place < str.length
    · obtain ⟨next, round, moved, text⟩ :=
        @round_eq beyond str state place same more roomy.short (roomy.escape place .here)
      have ⟨further, bound⟩ := symbolEnd_bounds more
      rw [if_pos more, round, text]
      exact ih moved bound
        ⟨roomy.short, fun other behind => roomy.escape other (.later more behind)⟩ (by omega)
    · have done : str.drop place = [] := List.drop_eq_nil_of_le (by omega)
      rw [if_neg more, done]
      simp [decode]

/-- A text that the index has room for is decoded symbol by symbol. -/
theorem returns_decode (beyond : Int → Int32) (roomy : Roomy str 0) :
    Returns beyond str (decode str) := fun _ enough =>
  run_eq rfl (Nat.zero_le _) roomy enough

/-- Texts of less than `2 ^ 31 - 2` characters have room for all of their symbols. -/
theorem roomy_of_short (short : str.length + 2 < 2 ^ 31) : Roomy str 0 := by
  refine ⟨by omega, fun place _ percent => ?_⟩
  obtain ⟨inside, -⟩ := List.getElem?_eq_some_iff.mp percent
  omega

/-- What is decoded is no longer than it was. -/
theorem length_decode_le (text : Bytes) : (decode text).length ≤ text.length := by
  induction text using decode.induct <;> simp_all [decode] <;> omega

end Rounds

/-! ### Texts without room -/

section Overflows

variable {str out : Bytes} {state next : DecodeState} {place other fuel : Nat}

/-- An index that starts over after an overflow is never negative. -/
theorem toInt_increment_zero {i : Int32} (least : 0 ≤ i.toInt) :
    0 ≤ (increment (fun _ => 0) i).toInt := by
  by_cases fits : Fits (i.toInt + 1)
  · rw [increment, toInt_int fits]
    omega
  · rw [increment, int_of_not_fits fits]
    exact le_refl _

/-- Wherever a round goes, the index is not negative there. -/
theorem round_zero (least : 0 ≤ state.i.toInt)
    (round : state.round (fun _ => 0) str = some next) : 0 ≤ next.i.toInt := by
  have moved := toInt_increment_zero least
  unfold DecodeState.round at round
  split at round
  · cases round
  · split at round
    · split at round
      · -- An escape moves the index three times.
        dsimp only at round
        split at round
        · cases round
          exact toInt_increment_zero (toInt_increment_zero moved)
        · cases round
      · cases round
        exact moved
    · split at round <;> cases round <;> exact moved

/-- A text that has no end for the index is decoded for ever, or past its end. -/
theorem run_zero_long (long : 2 ^ 31 ≤ str.length) (least : 0 ≤ state.i.toInt) :
    state.run (fun _ => 0) str fuel ≠ .returned out := by
  -- The index is always one of a character, so that the loop does not end.
  induction fuel generalizing state with
  | zero => simp [DecodeState.run]
  | succ fuel ih =>
    have inside : toSize state.i < str.length := by
      have small := state.i.toInt_lt
      unfold toSize
      omega
    rw [DecodeState.run, if_pos inside]
    cases round : state.round (fun _ => 0) str with
    | none => simp
    | some next => exact ih (round_zero least round)

/-- If the loop ends, there is room for a percent sign at the index. -/
theorem escape_of_returned (same : state.i.toInt = place) (short : str.length < 2 ^ 31)
    (returned : state.run (fun _ => 0) str fuel = .returned out)
    (percent : str[place]? = some 37) : place + 3 < 2 ^ 31 := by
  -- Otherwise the end of the escape comes to be 0, and one of its digits is read past the end.
  by_contra large
  obtain ⟨inside, -⟩ := List.getElem?_eq_some_iff.mp percent
  have stop : toSize (int (fun _ => 0) (state.i.toInt + 3)) = 0 := by
    rw [int_of_not_fits (by rintro ⟨-, small⟩; omega)]
    rfl
  have moved := @toInt_increment (fun _ => 0) place state.i same (by omega)
  have past : state.round (fun _ => 0) str = none := by
    rw [DecodeState.round, toSize_of_toInt same, percent]
    dsimp only
    rw [if_pos rfl, stop, if_pos (Nat.zero_le _), toSize_of_toInt moved]
    by_cases first : place + 1 < str.length
    · have moved' := @toInt_increment (fun _ => 0) (place + 1) _ moved (by omega)
      have second : str[place + 2]? = none := List.getElem?_eq_none (by omega)
      rw [toSize_of_toInt moved', second]
      cases str[place + 1]? <;> rfl
    · rw [List.getElem?_eq_none (by omega)]
  cases fuel with
  | zero => cases returned
  | succ fuel =>
    rw [DecodeState.run, toSize_of_toInt same, if_pos inside, past] at returned
    cases returned

/-- If the loop ends, there is room for all percent signs that start a symbol. -/
theorem escapes_of_returned (same : state.i.toInt = place) (short : str.length < 2 ^ 31)
    (returned : state.run (fun _ => 0) str fuel = .returned out)
    (behind : SymbolFrom str place other) (percent : str[other]? = some 37) :
    other + 3 < 2 ^ 31 := by
  -- The loop comes to the start of each symbol.
  induction behind generalizing state fuel with
  | here => exact escape_of_returned same short returned percent
  | @later place other inside more ih =>
    obtain ⟨next, round, moved, -⟩ := @round_eq (fun _ => 0) str state place same inside short
      (escape_of_returned same short returned)
    cases fuel with
    | zero => cases returned
    | succ fuel =>
      rw [DecodeState.run, toSize_of_toInt same, if_pos inside, round] at returned
      exact ih moved returned percent

end Overflows

/-! ### Full encodings -/

section Encodings

variable {str encoded : Bytes} {place other : Nat}

theorem digitValue_of_isHexDigit {value digit : UInt8} (small : value.toNat < 16)
    (stands : IsHexDigit value digit) : digitValue digit = some value.toNat := by
  rcases stands with rfl | rfl
  · exact digitValue_hexDigit small
  · have all : ∀ code < 16, digitValue (lowerHexDigit (UInt8.ofNat code)) = some code := by decide
    have here := all value.toNat small
    rwa [UInt8.ofNat_toNat] at here

namespace Encodes

theorem length_eq (encodes : Encodes str encoded) : encoded.length = 3 * str.length := by
  induction encodes with
  | nil => rfl
  | cons _ _ _ ih =>
    simp only [List.length_cons, ih]
    omega

/-- An encoding is decoded to the text. -/
theorem decode_eq (encodes : Encodes str encoded) : decode encoded = str := by
  induction encodes with
  | nil => rfl
  | @cons character high low text encoded first second rest ih =>
    obtain ⟨small, small'⟩ := halves_small character
    change toChar [high, low] :: decode encoded = _
    rw [toChar_digits small small' (digitValue_of_isHexDigit small first)
      (digitValue_of_isHexDigit small' second), ofNat_halves, ih]

/-- Each third character of an encoding is a percent sign. -/
theorem percent (encodes : Encodes str encoded) {index : Nat} (inside : index < str.length) :
    encoded[3 * index]? = some 37 := by
  -- Behind the first escape, the places count on from three.
  induction encodes generalizing index with
  | nil => exact absurd inside (Nat.not_lt_zero _)
  | cons _ _ _ ih =>
    cases index with
    | zero => rfl
    | succ index =>
      rw [show 3 * (index + 1) = 3 * index + 1 + 1 + 1 by omega]
      exact ih (Nat.lt_of_succ_lt_succ inside)

/-- The symbols of an encoding are its escapes. -/
theorem aligned (encodes : Encodes str encoded) (behind : SymbolFrom encoded place other)
    (start : place % 3 = 0) : other % 3 = 0 := by
  -- An escape starts at each place that three divides, and ends at the next one.
  have size := encodes.length_eq
  induction behind with
  | here => exact start
  | @later place other inside _ ih =>
    have mark := encodes.percent (show place / 3 < str.length by omega)
    rw [show 3 * (place / 3) = place by omega] at mark
    rw [symbolEnd_escape mark (by omega)] at ih
    exact ih (by omega)

/-- Where there is room for the encoding, there is room for its last escape. -/
theorem roomy (encodes : Encodes str encoded) (short : 3 * str.length < 2 ^ 31) :
    Roomy encoded 0 := by
  have size := encodes.length_eq
  refine ⟨by omega, fun place behind percent => ?_⟩
  have third := encodes.aligned behind rfl
  obtain ⟨inside, -⟩ := List.getElem?_eq_some_iff.mp percent
  omega

end Encodes

/-- Every text has a full encoding. -/
theorem encodes_full (str : Bytes) : Encodes str (str.flatMap fun character =>
    [37, hexDigit (character / 16), hexDigit (character % 16)]) := by
  induction str with
  | nil => exact .nil
  | cons character rest ih => exact .cons (.inl rfl) (.inl rfl) ih

end Encodings

/--
Texts of less than `2 ^ 31` characters can be encoded and decoded again, counted as they are sent.

Decoding ends for exactly those texts that the index has room for, whatever an overflow comes to.
Then nothing is read from behind the end, and no more is decoded than was sent.
-/
theorem decode_iff_room (str : Bytes) :
    ((∀ beyond encoded, Encodes str encoded → Returns beyond encoded str) ↔
      3 * str.length < 2 ^ 31) ∧
    ((∀ beyond, ∃ out, Returns beyond str out ∧ out.length ≤ str.length) ↔ Roomy str 0) := by
  constructor
  · constructor
    · -- With an index that starts over, the encoding of a long text has no end.
      intro returns
      by_contra long
      have encodes := encodes_full str
      have size := encodes.length_eq
      exact run_zero_long (by omega) (le_refl _)
        (returns (fun _ => 0) _ encodes _ (Nat.lt_succ_self _))
    · intro short beyond encoded encodes
      have returned := returns_decode beyond (encodes.roomy short)
      rwa [encodes.decode_eq] at returned
  · constructor
    · intro returns
      obtain ⟨out, returned, -⟩ := returns fun _ => 0
      have ends := returned _ (Nat.lt_succ_self _)
      have short : str.length < 2 ^ 31 := by
        by_contra long
        exact run_zero_long (by omega) (le_refl _) ends
      exact ⟨short, fun place behind => escapes_of_returned rfl short ends behind⟩
    · intro roomy beyond
      exact ⟨decode str, returns_decode beyond roomy, length_decode_le str⟩

/-! ### Where an overflow wraps around -/

section Wrapping

variable {str out : Bytes} {state next : DecodeState} {place fuel : Nat}

/-- The next index is the next number, or a negative one. -/
theorem toInt_increment_wrapped {i : Int32} (same : i.toInt = place) :
    (increment Int32.ofInt i).toInt < 0 ∨ (increment Int32.ofInt i).toInt = (place + 1 : Nat) := by
  have small := i.toInt_lt
  by_cases fits : Fits (i.toInt + 1)
  · right
    rw [increment, toInt_int fits, same]
    rfl
  · -- Only the number behind the last one does not fit.
    left
    have last : i.toInt + 1 = 2 ^ 31 := by
      by_contra other
      exact fits ⟨by omega, by omega⟩
    rw [increment, int_of_not_fits fits, last]
    decide

/-- A negative index is behind the end of all texts that an address can be given to. -/
theorem le_toSize_of_neg {i : Int32} (negative : i.toInt < 0) : 2 ^ 64 - 2 ^ 31 ≤ toSize i := by
  have least := i.le_toInt
  unfold toSize
  omega

/-- A round decodes at most one character, and moves the index forward or wraps it around. -/
theorem round_wrapped (same : state.i.toInt = place) (addressed : str.length ≤ 2 ^ 64 - 2 ^ 31)
    (round : state.round Int32.ofInt str = some next) :
    next.out.length ≤ state.out.length + 1 ∧
      (next.i.toInt < 0 ∨ ∃ further : Nat, next.i.toInt = further ∧ place < further) := by
  have step {number : Nat} {i : Int32} (here : i.toInt = number) (behind : place ≤ number) :
      (increment Int32.ofInt i).toInt < 0 ∨
        ∃ further : Nat, (increment Int32.ofInt i).toInt = further ∧ place < further :=
    (toInt_increment_wrapped here).imp_right fun moved => ⟨number + 1, moved, by omega⟩
  -- A digit is only read where the index has not wrapped around.
  have read {i : Int32} {symbol : UInt8} (found : str[toSize i]? = some symbol) : ¬ i.toInt < 0 := by
    intro negative
    have far := le_toSize_of_neg negative
    obtain ⟨inside, -⟩ := List.getElem?_eq_some_iff.mp found
    omega
  unfold DecodeState.round at round
  split at round
  · cases round
  · split at round
    · split at round
      · dsimp only at round
        split at round
        · rename_i high low first second
          cases round
          have moved := (toInt_increment_wrapped same).resolve_left (read first)
          have moved' := (toInt_increment_wrapped moved).resolve_left (read second)
          have forward := step moved' (by omega)
          exact ⟨by simp, forward⟩
        · cases round
      · cases round
        exact ⟨by simp, step same (le_refl _)⟩
    · split at round <;> cases round <;> exact ⟨by simp, step same (le_refl _)⟩

/-- No more is decoded than there are numbers for the index. -/
theorem length_of_wrapped (same : state.i.toInt = place)
    (addressed : str.length ≤ 2 ^ 64 - 2 ^ 31)
    (returned : state.run Int32.ofInt str fuel = .returned out) :
    out.length + place ≤ state.out.length + 2 ^ 31 := by
  -- Each character that is decoded moves the index, and the loop ends when it is negative.
  induction fuel generalizing state place with
  | zero => cases returned
  | succ fuel ih =>
    have small := state.i.toInt_lt
    rw [DecodeState.run] at returned
    split at returned
    · cases round : state.round Int32.ofInt str with
      | none =>
        rw [round] at returned
        cases returned
      | some next =>
        rw [round] at returned
        obtain ⟨one, negative | ⟨further, moved, forward⟩⟩ := round_wrapped same addressed round
        · have far := le_toSize_of_neg negative
          cases fuel with
          | zero => cases returned
          | succ fuel =>
            dsimp only at returned
            rw [DecodeState.run, if_neg (by omega)] at returned
            cases returned
            omega
        · have rest := ih moved returned
          omega
    · cases returned
      omega

/-- An encoding of more than `2 ^ 31` characters is not decoded to all of them. -/
theorem not_returns_wrapped (many : 2 ^ 31 < str.length) (addressed : 3 * str.length ≤ 2 ^ 64 - 2 ^ 31)
    {encoded : Bytes} (encodes : Encodes str encoded) : ¬ Returns Int32.ofInt encoded str := by
  intro returns
  have size := encodes.length_eq
  have few := @length_of_wrapped encoded str ⟨0, []⟩ 0 _ rfl (by omega)
    (returns _ (Nat.lt_succ_self _))
  rw [List.length_nil] at few
  omega

end Wrapping

/-- No full encoding of `2 ^ 31 + 1` zero bytes is decoded to them where an overflow wraps around. -/
theorem not_returns_zeros :
    ¬ ∀ encoded, Encodes (List.replicate (2 ^ 31 + 1) 0) encoded →
      Returns Int32.ofInt encoded (List.replicate (2 ^ 31 + 1) 0) := by
  intro always
  have size : (List.replicate (2 ^ 31 + 1) (0 : UInt8)).length = 2 ^ 31 + 1 := List.length_replicate
  have encodes := encodes_full (List.replicate (2 ^ 31 + 1) 0)
  exact not_returns_wrapped (by omega) (by omega) encodes (always _ encodes)

end Recap.HTTP.URI
