import Mathlib

/-! The first place where a delimiter stands in a list, and where delimiters cannot stand. -/

namespace Recap.Cutting

variable {Symbol : Type*}

section Joins

/-- What stands in front of the first of several joined texts stands in front of them all. -/
theorem intercalate_append_cons (separator front first : List Symbol) (rest : List (List Symbol)) :
    separator.intercalate ((front ++ first) :: rest) =
      front ++ separator.intercalate (first :: rest) := by
  cases rest with
  | nil => rw [List.intercalate_singleton, List.intercalate_singleton]
  | cons second others =>
    rw [List.intercalate_cons_cons, List.intercalate_cons_cons, List.append_assoc, List.append_assoc,
      List.append_assoc]

/-- All but the first symbol of a separator may be seen as parts of the texts behind it. -/
theorem intercalate_cons_eq (separator : Symbol) (more first : List Symbol)
    (rest : List (List Symbol)) :
    (separator :: more).intercalate (first :: rest) =
      [separator].intercalate (first :: rest.map fun text => more ++ text) := by
  induction rest generalizing first with
  | nil => rw [List.map_nil, List.intercalate_singleton, List.intercalate_singleton]
  | cons second others ih =>
    rw [List.map_cons, List.intercalate_cons_cons, List.intercalate_cons_cons, ih,
      intercalate_append_cons]
    simp

/-- Each of the texts but one takes a separator. -/
theorem length_le_intercalate {separator : List Symbol} (something : separator ≠ [])
    (texts : List (List Symbol)) : texts.length ≤ (separator.intercalate texts).length + 1 := by
  have positive := List.length_pos_iff.mpr something
  induction texts with
  | nil => simp
  | cons text rest ih =>
    cases rest with
    | nil => simp
    | cons next others =>
      rw [List.intercalate_cons_cons]
      simp only [List.length_cons, List.length_append] at ih ⊢
      omega

/-- A symbol of joined texts that is not the separator stands in one of the texts. -/
theorem exists_of_intercalate_eq {separator symbol : Symbol} (other : separator ≠ symbol)
    {texts : List (List Symbol)} {front back : List Symbol}
    (joined : [separator].intercalate texts = front ++ symbol :: back) :
    ∃ before first second after, texts = before ++ (first ++ symbol :: second) :: after ∧
      back = [separator].intercalate (second :: after) := by
  -- The induction looks for the symbol in the first text, and then behind it.
  induction texts generalizing front with
  | nil => exact absurd joined.symm (List.append_ne_nil_of_right_ne_nil _ (List.cons_ne_nil _ _))
  | cons text rest ih =>
    cases rest with
    | nil =>
      rw [List.intercalate_singleton] at joined
      exact ⟨[], front, back, [], by rw [joined]; rfl, (List.intercalate_singleton ..).symm⟩
    | cons next others =>
      rw [List.intercalate_cons_cons, List.append_assoc, List.singleton_append] at joined
      rcases List.append_eq_append_iff.mp joined with ⟨between, rfl, behind⟩ | ⟨between, inText, behind⟩
      · rcases List.cons_eq_append_iff.mp behind with ⟨-, same⟩ | ⟨more, rfl, later⟩
        · exact absurd (List.cons.inj same).1.symm other
        · obtain ⟨before, first, second, after, split, same⟩ := ih later
          exact ⟨text :: before, first, second, after, by rw [split]; rfl, same⟩
      · rcases List.cons_eq_append_iff.mp behind with ⟨-, same⟩ | ⟨more, rfl, later⟩
        · exact absurd (List.cons.inj same).1 other
        · refine ⟨[], front, more, next :: others, by rw [inText]; rfl, ?_⟩
          rw [later, List.intercalate_cons_cons, List.append_assoc, List.singleton_append]

end Joins

section Infixes

variable {pattern front back tail : List Symbol} {separator : Symbol}

/-- What has no separator stands on one side of each separator. -/
theorem infix_separated (clear : separator ∉ pattern) :
    pattern <:+: front ++ separator :: back ↔ pattern <:+: front ∨ pattern <:+: back := by
  rw [List.infix_append_iff, List.infix_cons_iff]
  constructor
  · rintro (inFront | (starts | inBack) | ⟨first, second, rfl, ends, starts⟩)
    · exact .inl inFront
    · -- A pattern that starts with the separator is empty.
      obtain rfl | ⟨rest, rfl, -⟩ := List.prefix_cons_iff.mp starts
      · exact .inl List.nil_infix
      · exact absurd List.mem_cons_self clear
    · exact .inr inBack
    · obtain rfl | ⟨rest, rfl, -⟩ := List.prefix_cons_iff.mp starts
      · rw [List.append_nil]
        exact .inl ends.isInfix
      · exact absurd (List.mem_append_right _ List.mem_cons_self) clear
  · rintro (inFront | inBack)
    · exact .inl inFront
    · exact .inr (.inl (.inr inBack))

/-- What has no separator stands in one of the texts that were joined. -/
theorem infix_joined (clear : separator ∉ pattern) (something : pattern ≠ [])
    (texts : List (List Symbol)) :
    pattern <:+: [separator].intercalate texts ↔ ∃ text ∈ texts, pattern <:+: text := by
  -- The first separator parts the first text from the others.
  induction texts with
  | nil => simpa using something
  | cons text rest ih =>
    cases rest with
    | nil => simp
    | cons next others =>
      rw [List.intercalate_cons_cons, List.append_assoc, List.singleton_append,
        infix_separated clear, ih]
      exact (List.exists_mem_cons_iff ..).symm

end Infixes

section Cuts

variable [DecidableEq Symbol]

/-- The texts before and behind the first place where a delimiter stands. -/
def cut (delim : List Symbol) : List Symbol → Option (List Symbol × List Symbol)
  | [] => if delim = [] then some ([], []) else none
  | first :: rest =>
    if delim.isPrefixOf (first :: rest) then some ([], (first :: rest).drop delim.length)
    else (cut delim rest).map fun parts => (first :: parts.1, parts.2)

variable {delim text front back : List Symbol}

/-- Where the delimiter stands at the start, the cut is there. -/
theorem cut_prefix (delim back : List Symbol) : cut delim (delim ++ back) = some ([], back) := by
  cases whole : delim ++ back with
  | nil =>
    obtain ⟨rfl, rfl⟩ := List.append_eq_nil_iff.mp whole
    rfl
  | cons first rest =>
    have starts : delim <+: first :: rest := whole ▸ List.prefix_append delim back
    unfold cut
    rw [if_pos (List.isPrefixOf_iff_prefix.mpr starts), ← whole, List.drop_left]

/-- Where it does not, the cut is further on. -/
theorem cut_cons {first : Symbol} {rest : List Symbol} (other : ¬ delim <+: first :: rest) :
    cut delim (first :: rest) = (cut delim rest).map fun parts => (first :: parts.1, parts.2) := by
  rw [cut, if_neg (mt List.isPrefixOf_iff_prefix.mp other)]

/-- The cut parts a text at the delimiter. -/
theorem append_of_cut (found : cut delim text = some (front, back)) :
    front ++ delim ++ back = text := by
  -- The induction follows the search from place to place.
  induction text generalizing front with
  | nil =>
    unfold cut at found
    split at found
    · rename_i empty
      obtain ⟨rfl, rfl⟩ := Prod.mk.inj (Option.some_inj.mp found)
      rw [empty]
      rfl
    · cases found
  | cons first rest ih =>
    by_cases starts : delim <+: first :: rest
    · obtain ⟨behind, same⟩ := starts
      rw [← same, cut_prefix] at found
      obtain ⟨rfl, rfl⟩ := Prod.mk.inj (Option.some_inj.mp found)
      exact same
    · rw [cut_cons starts] at found
      obtain ⟨⟨before, after⟩, later, same⟩ := Option.map_eq_some_iff.mp found
      obtain ⟨rfl, rfl⟩ := Prod.mk.inj same
      rw [List.cons_append, List.cons_append, ih later]

/-- There is no cut exactly where the delimiter does not stand at all. -/
theorem cut_eq_none_iff : cut delim text = none ↔ ¬ delim <:+: text := by
  -- A delimiter starts at the first symbol or stands in the rest.
  induction text with
  | nil =>
    rw [List.infix_nil]
    unfold cut
    split <;> simp [*]
  | cons first rest ih =>
    rw [List.infix_cons_iff, not_or, ← ih]
    by_cases starts : delim <+: first :: rest
    · obtain ⟨behind, same⟩ := starts
      rw [← same, cut_prefix]
      simp
    · rw [cut_cons starts, Option.map_eq_none_iff, and_iff_right starts]

/-- What follows a text does not move its first cut. -/
theorem cut_append_of_some (found : cut delim text = some (front, back)) (more : List Symbol) :
    cut delim (text ++ more) = some (front, back ++ more) := by
  induction text generalizing front with
  | nil =>
    have whole := append_of_cut found
    obtain ⟨rfl, rfl, rfl⟩ : front = [] ∧ delim = [] ∧ back = [] := by simpa using whole
    exact cut_prefix [] more
  | cons first rest ih =>
    by_cases starts : delim <+: first :: rest
    · obtain ⟨behind, same⟩ := starts
      rw [← same, cut_prefix] at found
      obtain ⟨rfl, rfl⟩ := Prod.mk.inj (Option.some_inj.mp found)
      rw [← same, List.append_assoc]
      exact cut_prefix delim _
    · rw [cut_cons starts] at found
      obtain ⟨⟨before, after⟩, later, same⟩ := Option.map_eq_some_iff.mp found
      obtain ⟨rfl, rfl⟩ := Prod.mk.inj same
      -- A delimiter at the start would end in the text, which is as long as the cut shows.
      have other : ¬ delim <+: first :: (rest ++ more) := by
        intro longer
        have enough := congrArg List.length (append_of_cut later)
        rw [List.length_append, List.length_append] at enough
        refine starts (List.prefix_of_prefix_length_le longer ⟨more, rfl⟩ ?_)
        rw [List.length_cons]
        omega
      rw [List.cons_append, cut_cons other, ih later]
      rfl

/-- No delimiter starts in front of the cut. -/
theorem not_prefix_of_cut (found : cut delim text = some (front, back)) {place : Nat}
    (earlier : place < front.length) : ¬ delim <+: text.drop place := by
  induction text generalizing front place with
  | nil =>
    -- There is no place in front of a cut of nothing.
    unfold cut at found
    split at found
    · obtain ⟨rfl, -⟩ := Prod.mk.inj (Option.some_inj.mp found)
      exact absurd earlier (Nat.not_lt_zero _)
    · cases found
  | cons first rest ih =>
    by_cases starts : delim <+: first :: rest
    · obtain ⟨behind, same⟩ := starts
      rw [← same, cut_prefix] at found
      obtain ⟨rfl, -⟩ := Prod.mk.inj (Option.some_inj.mp found)
      exact absurd earlier (Nat.not_lt_zero _)
    · rw [cut_cons starts] at found
      obtain ⟨⟨before, after⟩, later, same⟩ := Option.map_eq_some_iff.mp found
      obtain ⟨rfl, rfl⟩ := Prod.mk.inj same
      cases place with
      | zero => exact starts
      | succ place => exact ih later (Nat.lt_of_succ_lt_succ earlier)

/-- No delimiter stands in front of the cut. -/
theorem not_infix_of_cut (something : delim ≠ []) (found : cut delim text = some (front, back)) :
    ¬ delim <:+: front := by
  rintro ⟨before, after, whole⟩
  -- Such a delimiter would start earlier than the cut.
  have longer : before.length < front.length := by
    have positive := List.length_pos_iff.mpr something
    rw [← whole]
    simp
    omega
  refine not_prefix_of_cut found longer ?_
  rw [← append_of_cut found, ← whole]
  simp [List.append_assoc]

/-- The cut is at a delimiter that no other one ends in front of. -/
theorem cut_append {start : List Symbol} {last : Symbol}
    (clear : ¬ start ++ [last] <:+: front ++ start) (back : List Symbol) :
    cut (start ++ [last]) (front ++ ((start ++ [last]) ++ back)) = some (front, back) := by
  induction front with
  | nil => exact cut_prefix _ back
  | cons first rest ih =>
    -- One that starts earlier also ends earlier.
    have later : ¬ start ++ [last] <+: first :: (rest ++ ((start ++ [last]) ++ back)) := by
      intro starts
      have shorter : first :: rest ++ start <+: first :: (rest ++ ((start ++ [last]) ++ back)) :=
        ⟨last :: back, by simp⟩
      refine clear (List.prefix_of_prefix_length_le starts shorter ?_).isInfix
      simp
    have here := ih fun other => clear (List.infix_cons other)
    rw [List.cons_append, cut_cons later, here]
    rfl

/-- A delimiter of one symbol cuts at the first place of that symbol. -/
theorem cut_singleton {separator : Symbol} (clear : separator ∉ front) (back : List Symbol) :
    cut [separator] (front ++ separator :: back) = some (front, back) := by
  refine @cut_append _ _ front [] separator (fun stands => clear ?_) back
  rw [List.append_nil] at stands
  exact stands.subset List.mem_cons_self

/-- What is cut off in front of a symbol does not have it. -/
theorem not_mem_of_cut_singleton {separator : Symbol}
    (found : cut [separator] text = some (front, back)) : separator ∉ front := by
  -- The first place of the symbol would be further in front.
  intro member
  obtain ⟨first, second, rfl, clear⟩ := List.eq_append_cons_of_mem member
  have whole : first ++ separator :: (second ++ ([separator] ++ back)) = text := by
    rw [← append_of_cut found]
    simp
  rw [← whole, cut_singleton clear] at found
  have shorter := congrArg List.length (Prod.mk.inj (Option.some_inj.mp found)).1
  simp at shorter

/-- No piece of a split has the separator. -/
theorem not_mem_of_mem_splitOn {separator : Symbol} {piece : List Symbol}
    (member : piece ∈ text.splitOn separator) : separator ∉ piece := by
  -- The first piece ends at the first separator, and the others are pieces of what is behind it.
  induction size : text.length using Nat.strong_induction_on generalizing text with
  | _ size ih =>
    by_cases inside : separator ∈ text
    · obtain ⟨first, second, rfl, clear⟩ := List.eq_append_cons_of_mem inside
      rw [List.splitOn_append_cons_self_of_not_mem clear] at member
      rcases List.mem_cons.mp member with rfl | later
      · exact clear
      · exact ih second.length (by simp at size; omega) later rfl
    · rw [List.splitOn_eq_singleton inside, List.mem_singleton] at member
      rwa [member]

/-- The pieces of a split have no symbols of their own. -/
theorem subset_of_mem_splitOn {separator : Symbol} {piece : List Symbol}
    (member : piece ∈ text.splitOn separator) : piece ⊆ text := by
  -- The induction goes along the separators, as for the separator itself.
  induction size : text.length using Nat.strong_induction_on generalizing text with
  | _ size ih =>
    by_cases inside : separator ∈ text
    · obtain ⟨first, second, rfl, clear⟩ := List.eq_append_cons_of_mem inside
      rw [List.splitOn_append_cons_self_of_not_mem clear] at member
      rcases List.mem_cons.mp member with rfl | later
      · exact List.subset_append_left _ _
      · have behind := ih second.length (by simp at size; omega) later rfl
        exact fun symbol held => List.mem_append_right _ (List.mem_cons_of_mem _ (behind held))
    · rw [List.splitOn_eq_singleton inside, List.mem_singleton] at member
      exact member ▸ List.Subset.refl _

theorem cut_singleton_eq_none_iff {separator : Symbol} :
    cut [separator] text = none ↔ separator ∉ text := by
  rw [cut_eq_none_iff, List.singleton_infix_iff]

end Cuts

section Searches

variable {Result : Type*} {matchAt : List Symbol → Option (Nat × Result)} {text : List Symbol}

/-- The first match in a list, by where it ends and what it comes to. -/
def search (matchAt : List Symbol → Option (Nat × Result)) : List Symbol → Option (Nat × Result)
  | [] => matchAt []
  | first :: rest =>
    match matchAt (first :: rest) with
    | some found => some found
    | none => (search matchAt rest).map fun found => (found.1 + 1, found.2)

/-- A search finds the match in front of which no other one starts. -/
theorem search_eq_some_iff {stop : Nat} {result : Result} :
    search matchAt text = some (stop, result) ↔
      ∃ front rest length, text = front ++ rest ∧ matchAt rest = some (length, result) ∧
        stop = front.length + length ∧ ∀ earlier < front.length, matchAt (text.drop earlier) = none := by
  -- The induction follows the search, which ends at the first place with a match.
  induction text generalizing stop with
  | nil =>
    constructor
    · intro found
      exact ⟨[], [], stop, rfl, found, (Nat.zero_add stop).symm, by simp⟩
    · rintro ⟨front, rest, length, whole, found, rfl, -⟩
      obtain ⟨rfl, rfl⟩ := List.append_eq_nil_iff.mp whole.symm
      rw [List.length_nil, Nat.zero_add]
      exact found
  | cons first others ih =>
    unfold search
    cases here : matchAt (first :: others) with
    | some found =>
      constructor
      · intro same
        rw [Option.some_inj.mp same] at here
        exact ⟨[], first :: others, stop, rfl, here, (Nat.zero_add stop).symm, by simp⟩
      · rintro ⟨front, rest, length, whole, matched, rfl, nowhere⟩
        cases front with
        | nil =>
          rw [List.nil_append] at whole
          rw [← whole, here] at matched
          rw [List.length_nil, Nat.zero_add]
          exact matched
        | cons symbol more =>
          have missing := nowhere 0 (Nat.succ_pos _)
          rw [List.drop_zero, here] at missing
          cases missing
    | none =>
      dsimp only
      rw [Option.map_eq_some_iff]
      constructor
      · rintro ⟨⟨stop', result'⟩, later, same⟩
        obtain ⟨rfl, rfl⟩ := Prod.mk.inj same
        obtain ⟨front, rest, length, rfl, found, rfl, nowhere⟩ := ih.mp later
        refine ⟨first :: front, rest, length, rfl, found, by simp; omega, ?_⟩
        intro earlier inFront
        cases earlier with
        | zero => exact here
        | succ earlier => exact nowhere earlier (Nat.lt_of_succ_lt_succ inFront)
      · rintro ⟨front, rest, length, whole, found, rfl, nowhere⟩
        cases front with
        | nil =>
          rw [List.nil_append] at whole
          rw [← whole, here] at found
          cases found
        | cons symbol more =>
          obtain ⟨rfl, rfl⟩ := List.cons.inj whole
          refine ⟨(more.length + length, result), ih.mpr ⟨more, rest, length, rfl, found, rfl, ?_⟩,
            by simp; omega⟩
          exact fun earlier inFront => nowhere (earlier + 1) (Nat.succ_lt_succ inFront)

end Searches

end Recap.Cutting
