import Recap.Game.Catalyst

/-! The bonuses of a player for three catalysts in a line of the grid. -/

namespace Recap.Game

/-- A player's catalysts, and which lines of them have a bonus. -/
structure CatalystGrid where
  mCatalysts : CatalystSlots
  mCatalystBonuses : Vector Bool 8

namespace CatalystColor

/-- `Catalyst::MatchingColor`, where a prismatic catalyst matches any other one. -/
def matching (color other : CatalystColor) : Bool :=
  if color = .none ∨ other = .none then false
  else if color = .prismatic ∨ other = .prismatic then true
  else color = other

end CatalystColor

namespace CatalystGrid

/-- A player without catalysts has no bonus. -/
def empty : CatalystGrid where
  mCatalysts := Vector.replicate 9 .empty
  mCatalystBonuses := Vector.replicate 8 false

def color (grid : CatalystGrid) (slot : Fin 9) : CatalystColor := (grid.mCatalysts.get slot).color

/-- Whether the first of three slots matches each of the other two. -/
def matchingLine (grid : CatalystGrid) (slots : Fin 9 × Fin 9 × Fin 9) : Bool :=
  (grid.color slots.1).matching (grid.color slots.2.1) &&
    (grid.color slots.1).matching (grid.color slots.2.2)

/-- `Player::UpdateCatalystBonuses` -/
def updateCatalystBonuses (grid : CatalystGrid) : CatalystGrid :=
  let bonuses := (List.finRange 3).foldl (fun bonuses i =>
    -- A row and a column in each round.
    let row := grid.matchingLine
      (⟨i.val * 3, by omega⟩, ⟨i.val * 3 + 1, by omega⟩, ⟨i.val * 3 + 2, by omega⟩)
    let column := grid.matchingLine
      (⟨i.val, by omega⟩, ⟨i.val + 3, by omega⟩, ⟨i.val + 6, by omega⟩)
    (bonuses.set i.val row (by omega)).set (i.val + 3) column (by omega)) grid.mCatalystBonuses
  -- The diagonals are compared with the slot in the middle.
  { grid with
    mCatalystBonuses :=
      (bonuses.set 6 (grid.matchingLine (4, 0, 8)) (by omega)).set 7 (grid.matchingLine (4, 2, 6))
        (by omega) }

/-- `Player::SetCatalyst` -/
def setCatalyst (grid : CatalystGrid) (catalyst : Catalyst) (index : UInt32) : CatalystGrid :=
  if index.toNat < 9 then
    updateCatalystBonuses { grid with mCatalysts := grid.mCatalysts.setCatalyst catalyst index }
  else grid

/-- What a history of calls leaves a player with. -/
def run (calls : List (Catalyst × UInt32)) : CatalystGrid :=
  calls.foldl (fun grid call => grid.setCatalyst call.1 call.2) empty

/-- The lines in the order of their bonuses, each from the slot on that the others are compared with. -/
def lines : Vector (Fin 9 × Fin 9 × Fin 9) 8 :=
  #v[(0, 1, 2), (3, 4, 5), (6, 7, 8), (0, 3, 6), (1, 4, 7), (2, 5, 8), (4, 0, 8), (4, 2, 6)]

/-! ### The bonuses are those of the grid -/

/-- The bonuses are up to date. -/
def Current (grid : CatalystGrid) : Prop :=
  ∀ line : Fin 8, grid.mCatalystBonuses.get line = grid.matchingLine (lines.get line)

/-- An update leaves no bonus as it was. -/
theorem updateCatalystBonuses_current (grid : CatalystGrid) :
    (updateCatalystBonuses grid).Current := by
  intro line
  have rounds : List.finRange 3 = [0, 1, 2] := rfl
  unfold updateCatalystBonuses
  simp only [rounds, List.foldl_cons, List.foldl_nil, Vector.get_eq_getElem]
  -- Each line is set in one of the rounds or behind them, and never again.
  fin_cases line <;> simp [lines] <;> rfl

theorem setCatalyst_current {grid : CatalystGrid} (current : grid.Current) (catalyst : Catalyst)
    (index : UInt32) : (grid.setCatalyst catalyst index).Current := by
  unfold setCatalyst
  split
  · exact updateCatalystBonuses_current _
  · -- Without a slot of that number nothing is set.
    exact current

theorem run_current (calls : List (Catalyst × UInt32)) : (run calls).Current := by
  have initially : empty.Current := by
    intro line
    fin_cases line <;> rfl
  unfold run
  -- The bonuses are up to date at the start, and each call brings them up to date.
  induction calls using List.reverseRecOn with
  | nil => exact initially
  | append_singleton calls call ih =>
    rw [List.foldl_concat]
    exact setCatalyst_current ih _ _

/-! ### What a bonus means -/

/-- The colours of a line, in front the one that the others are compared with. -/
def colors (grid : CatalystGrid) (line : Fin 8) : Fin 3 → CatalystColor :=
  ![grid.color (lines.get line).1, grid.color (lines.get line).2.1, grid.color (lines.get line).2.2]

/-- There is a colour that each of three catalysts has, or stands for. -/
def OneColor (colors : Fin 3 → CatalystColor) : Prop :=
  ∃ color, color ≠ .none ∧ color ≠ .prismatic ∧
    ∀ place, colors place = color ∨ colors place = .prismatic

/-- A prismatic catalyst between two that have different colours of their own. -/
structure Bridged (colors : Fin 3 → CatalystColor) : Prop where
  middle : colors 0 = .prismatic
  ends : colors 1 ≠ colors 2
  plain : ∀ place ≠ 0, colors place ≠ .none ∧ colors place ≠ .prismatic

theorem matching_iff (color other : CatalystColor) :
    color.matching other ↔ color ≠ .none ∧ other ≠ .none ∧
      (color = .prismatic ∨ other = .prismatic ∨ color = other) := by
  unfold CatalystColor.matching
  by_cases nothing : color = .none ∨ other = .none
  · rw [if_pos nothing]
    simp only [Bool.false_eq_true, false_iff]
    tauto
  · rw [if_neg nothing]
    obtain ⟨some_, someOther⟩ := not_or.mp nothing
    by_cases wild : color = .prismatic ∨ other = .prismatic
    · rw [if_pos wild]
      simp only [true_iff]
      tauto
    · rw [if_neg wild, decide_eq_true_iff]
      tauto

/-- Catalysts of one colour match, wherever they are in the line. -/
theorem OneColor.matching {colors : Fin 3 → CatalystColor} (one : OneColor colors)
    (place other : Fin 3) : (colors place).matching (colors other) := by
  obtain ⟨color, some_, -, each⟩ := one
  have wild : CatalystColor.prismatic ≠ .none := by decide
  rw [matching_iff]
  rcases each place with here | here <;> rcases each other with there | there <;>
    simp [here, there, some_, wild]

/-- A prismatic catalyst matches whatever has a colour. -/
theorem Bridged.matching {colors : Fin 3 → CatalystColor} (bridged : Bridged colors)
    {place : Fin 3} (other : place ≠ 0) : (colors 0).matching (colors place) := by
  obtain ⟨wild, -, plain⟩ := bridged
  rw [matching_iff]
  simp [wild, (plain place other).1]

/-- The ends of a bridge have no colour in common. -/
theorem Bridged.not_oneColor {colors : Fin 3 → CatalystColor} (bridged : Bridged colors) :
    ¬ OneColor colors := by
  intro ⟨color, _, _, each⟩
  obtain ⟨-, different, plain⟩ := bridged
  -- Neither of the two ends is prismatic, so both would have the one colour.
  have left := (each 1).resolve_right (plain 1 (by decide)).2
  have right := (each 2).resolve_right (plain 2 (by decide)).2
  exact different (left.trans right.symm)

/-- Three catalysts of which the first one matches the others are of one colour, or a bridge. -/
theorem oneColor_or_bridged {colors : Fin 3 → CatalystColor}
    (left : (colors 0).matching (colors 1)) (right : (colors 0).matching (colors 2)) :
    OneColor colors ∨ Bridged colors := by
  rw [matching_iff] at left right
  obtain ⟨firstSome, secondSome, left⟩ := left
  obtain ⟨-, thirdSome, right⟩ := right
  unfold OneColor
  simp only [Fin.forall_fin_succ, Fin.forall_fin_zero]
  by_cases wild : colors 0 = .prismatic
  swap
  · -- The first one has a colour of its own, which the others have or stand for.
    exact .inl ⟨colors 0, firstSome, wild, by simp; tauto⟩
  by_cases secondWild : colors 1 = .prismatic
  · by_cases thirdWild : colors 2 = .prismatic
    · exact .inl ⟨.red, by decide, by decide, by simp [wild, secondWild, thirdWild]⟩
    · exact .inl ⟨colors 2, thirdSome, thirdWild, by simp [wild, secondWild]⟩
  · by_cases thirdFits : colors 2 = colors 1 ∨ colors 2 = .prismatic
    · exact .inl ⟨colors 1, secondSome, secondWild, by simpa [wild] using thirdFits⟩
    · -- The first one is all that the other two have in common.
      obtain ⟨different, thirdPlain⟩ := not_or.mp thirdFits
      refine .inr ⟨wild, Ne.symm different, ?_⟩
      simp only [Fin.forall_fin_succ, Fin.forall_fin_zero]
      simp
      tauto

/--
After any catalysts were put in and taken out, a line has its bonus exactly when its catalysts are of
one colour, or when the one that the others are compared with is prismatic and they differ.

Only the first of these is a line of matching catalysts.
-/
theorem bonus_iff (calls : List (Catalyst × UInt32)) (line : Fin 8) :
    ((run calls).mCatalystBonuses.get line = true ↔
        OneColor ((run calls).colors line) ∨ Bridged ((run calls).colors line)) ∧
      ¬ (OneColor ((run calls).colors line) ∧ Bridged ((run calls).colors line)) := by
  refine ⟨?_, fun both => both.2.not_oneColor both.1⟩
  rw [run_current calls line, matchingLine, Bool.and_eq_true]
  constructor
  · exact fun both => oneColor_or_bridged both.1 both.2
  · intro meaning
    rcases meaning with one | bridged
    · exact ⟨one.matching 0 1, one.matching 0 2⟩
    · exact ⟨bridged.matching (show (1 : Fin 3) ≠ 0 by decide),
        bridged.matching (show (2 : Fin 3) ≠ 0 by decide)⟩

end CatalystGrid
end Recap.Game
