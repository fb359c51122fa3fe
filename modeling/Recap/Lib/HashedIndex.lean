import Mathlib

/-! An index over a list, from the key of an item to the first place where an item has it. -/

namespace Recap.HashedIndex

variable {Item Key Value : Type} [BEq Key] [LawfulBEq Key] [Hashable Key] {keyOf : Item → Key}

/-- An entry that is there already stays. -/
theorem lookup_insertIfNew (entries : Std.HashMap Key Value) (added key : Key) (value : Value) :
    (entries.insertIfNew added value)[key]? =
      entries[key]?.or (if added == key then some value else none) := by
  rw [Std.HashMap.getElem?_insertIfNew]
  by_cases same : added = key
  · subst same
    -- Whether something is filed under the key decides which of the two values is kept.
    by_cases present : added ∈ entries
    · simp [present]
    · simp [present]
  · simp [same]

/-- File the place of each item under its key, unless there is something already. -/
def indexBy (keyOf : Item → Key) (items : List Item) : Std.HashMap Key Nat :=
  items.zipIdx.foldl (fun entries numbered => entries.insertIfNew (keyOf numbered.1) numbered.2) ∅

/-- The entries that are there at some place of the list win over those that are made behind it. -/
theorem lookup_indexFrom (items : List Item) (start : Nat) (entries : Std.HashMap Key Nat)
    (key : Key) :
    ((items.zipIdx start).foldl
        (fun entries numbered => entries.insertIfNew (keyOf numbered.1) numbered.2) entries)[key]? =
      entries[key]?.or ((items.findIdx? fun item => keyOf item == key).map fun place =>
        start + place) := by
  -- The places that are still to come count on from the start, which stays quantified over.
  induction items generalizing start entries with
  | nil => simp
  | cons item rest ih =>
    rw [List.zipIdx_cons, List.foldl_cons, ih, lookup_insertIfNew, List.findIdx?_cons]
    by_cases same : keyOf item = key
    · -- Nothing behind an item of this key gets its place.
      cases entries[key]? <;> simp [same]
    · have later : (fun place => start + 1 + place) = fun place => start + (place + 1) := by
        funext place
        omega
      simp [same, later, Function.comp_def]

/-- The index comes to the first item of a key, as a search through the list does. -/
theorem lookup_indexBy (items : List Item) (key : Key) :
    (indexBy keyOf items)[key]? = items.findIdx? fun item => keyOf item == key := by
  simp [indexBy, lookup_indexFrom]

omit [Hashable Key] in
/-- A search comes to a place where an item has the key, and no item in front of it has. -/
theorem findIdx?_eq_some_iff_first (items : List Item) (key : Key) (place : Nat) :
    (items.findIdx? fun item => keyOf item == key) = some place ↔
      (∃ item, items[place]? = some item ∧ keyOf item = key) ∧
        ∀ earlier < place, ∀ item, items[earlier]? = some item → keyOf item ≠ key := by
  -- Both sides name the item at the place, and all items at earlier ones.
  rw [List.findIdx?_eq_some_iff_getElem]
  constructor
  · rintro ⟨inside, has, none_earlier⟩
    refine ⟨⟨items[place], List.getElem?_eq_getElem inside, by simpa using has⟩, ?_⟩
    intro earlier before item here
    obtain ⟨_, rfl⟩ := List.getElem?_eq_some_iff.mp here
    simpa using none_earlier earlier before
  · rintro ⟨⟨item, here, has⟩, none_earlier⟩
    obtain ⟨inside, rfl⟩ := List.getElem?_eq_some_iff.mp here
    refine ⟨inside, by simpa using has, fun earlier before => ?_⟩
    simpa using none_earlier earlier before _ (List.getElem?_eq_getElem (before.trans inside))

end Recap.HashedIndex
