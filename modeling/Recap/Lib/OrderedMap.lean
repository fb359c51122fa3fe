import Mathlib

/-! The first entry of an ordered map that passes a test, which is the one with the least key. -/

namespace Recap.OrderedMap

section Lookups

variable {Key Value : Type} [Ord Key] [Std.TransOrd Key] [Std.LawfulEqOrd Key] [DecidableEq Key]

@[simp] theorem lookup_insert (entries : Std.TreeMap Key Value) (key key' : Key) (value : Value) :
    (entries.insert key value)[key']? = if key = key' then some value else entries[key']? := by
  simp [Std.TreeMap.getElem?_insert]

@[simp] theorem lookup_erase (entries : Std.TreeMap Key Value) (key key' : Key) :
    (entries.erase key)[key']? = if key = key' then none else entries[key']? := by
  simp [Std.TreeMap.getElem?_erase]

/-- An entry that is there already stays. -/
theorem lookup_insertIfNew (entries : Std.TreeMap Key Value) (key key' : Key) (value : Value) :
    (entries.insertIfNew key value)[key']? =
      if key = key' then some (entries[key]?.getD value) else entries[key']? := by
  rw [Std.TreeMap.getElem?_insertIfNew]
  by_cases same : key = key'
  · subst same
    -- Whether something is filed under the key decides which of the two values is kept.
    by_cases present : key ∈ entries
    · simp [present]
    · simp [present]
  · simp [same]

/-- Of entries that are added one after another, the first one of a key is kept. -/
theorem lookup_insertAllNew [BEq Key] [LawfulBEq Key] (added : List (Key × Value))
    (entries : Std.TreeMap Key Value) (key : Key) :
    (added.foldl (fun entries entry => entries.insertIfNew entry.1 entry.2) entries)[key]? =
      (entries[key]?).or (added.lookup key) := by
  -- The first entry of a key is there when a later one comes.
  induction added generalizing entries with
  | nil => simp
  | cons entry rest ih =>
    rw [List.foldl_cons, ih, lookup_insertIfNew, List.lookup_cons]
    by_cases same : entry.1 = key
    · subst same
      rw [if_pos rfl, beq_self_eq_true]
      cases entries[entry.1]? <;> rfl
    · rw [if_neg same, beq_eq_false_iff_ne.mpr (Ne.symm same)]

omit [Ord Key] [Std.TransOrd Key] [Std.LawfulEqOrd Key] [DecidableEq Key] in
/-- Among entries of different keys, each one is found. -/
theorem lookup_eq_some_iff_mem [BEq Key] [LawfulBEq Key] {entries : List (Key × Value)}
    (distinct : (entries.map Prod.fst).Nodup) {key : Key} {value : Value} :
    entries.lookup key = some value ↔ (key, value) ∈ entries := by
  rw [List.lookup_eq_some_iff]
  constructor
  · rintro ⟨front, back, rfl, -⟩
    exact List.mem_append_right _ List.mem_cons_self
  · intro member
    obtain ⟨front, back, rfl⟩ := List.append_of_mem member
    refine ⟨front, back, rfl, ?_⟩
    -- One in front with this key would be a second entry of it.
    intro entry inFront
    rw [List.map_append, List.map_cons, List.nodup_middle, List.nodup_cons] at distinct
    rw [bne_iff_ne]
    rintro rfl
    exact distinct.1 (List.mem_append_left _ (List.mem_map.mpr ⟨entry, inFront, rfl⟩))

omit [DecidableEq Key] in
/-- No key is larger than the last one. -/
theorem le_last [LE Key] [LT Key] [Std.LawfulOrderOrd Key] [Std.IsLinearOrder Key]
    [Std.LawfulOrderLT Key] {entries : Std.TreeMap Key Value} {last key : Key}
    (ends : entries.keys.getLast? = some last) (present : key ∈ entries) : key ≤ last := by
  -- The keys are in order, and all others stand in front of the last one.
  obtain ⟨front, split⟩ := List.getLast?_eq_some_iff.mp ends
  have ordered := entries.ordered_keys
  have member : key ∈ entries.keys := Std.TreeMap.mem_keys.mpr present
  rw [split] at ordered member
  rcases List.mem_append.mp member with before | same
  · have below := (List.pairwise_append.mp ordered).2.2 key before last (List.mem_singleton_self _)
    exact Std.le_of_lt (Std.compare_eq_lt.mp below)
  · rw [List.mem_singleton.mp same]
    exact Std.le_refl last

end Lookups

variable {Key Value : Type} [LinearOrder Key]

/-- The first entry that passes a test, in the order of the keys. -/
def first (entries : Std.TreeMap Key Value) (passes : Key → Value → Bool) : Option (Key × Value) :=
  entries.toList.find? fun entry => passes entry.1 entry.2

/-- The first entry that passes is the entry of the least key that does. -/
theorem first_eq_some_iff {entries : Std.TreeMap Key Value} {passes : Key → Value → Bool} {key : Key}
    {value : Value} :
    first entries passes = some (key, value) ↔
      entries[key]? = some value ∧ passes key value ∧
        ∀ earlier other, earlier < key → entries[earlier]? = some other → ¬ passes earlier other := by
  have ordered := entries.ordered_keys_toList
  -- Membership in the list of entries and lookup in the map are the same thing.
  have lookup : ∀ {key value}, (key, value) ∈ entries.toList ↔ entries[key]? = some value :=
    Std.TreeMap.mem_toList_iff_getElem?_eq_some
  unfold first
  rw [List.find?_eq_some_iff_append]
  constructor
  · rintro ⟨passing, front, back, split, failing⟩
    refine ⟨lookup.mp (by simp [split]), passing, ?_⟩
    intro earlier other below found
    -- An entry of a smaller key cannot stand behind the one that was found.
    have member := lookup.mpr found
    rw [split] at ordered member
    rcases List.mem_append.mp member with inFront | behind
    · simpa using failing _ inFront
    · rcases List.mem_cons.mp behind with same | inBack
      · cases same
        exact absurd below (lt_irrefl _)
      · have above := (List.pairwise_cons.mp (List.pairwise_append.mp ordered).2.1).1 _ inBack
        exact absurd (compare_lt_iff_lt.mp above) (not_lt_of_gt below)
  · rintro ⟨found, passing, failing⟩
    obtain ⟨front, back, split⟩ := List.append_of_mem (lookup.mpr found)
    refine ⟨passing, front, back, split, ?_⟩
    -- Everything in front has a smaller key.
    intro entry inFront
    rw [split] at ordered
    have below := (List.pairwise_append.mp ordered).2.2 entry inFront _ List.mem_cons_self
    have present : entries[entry.1]? = some entry.2 := lookup.mp (by simp [split, inFront])
    simpa using failing entry.1 entry.2 (compare_lt_iff_lt.mp below) present

/-- Nothing is found exactly when no entry passes. -/
theorem first_eq_none_iff {entries : Std.TreeMap Key Value} {passes : Key → Value → Bool} :
    first entries passes = none ↔
      ∀ key value, entries[key]? = some value → ¬ passes key value := by
  unfold first
  rw [List.find?_eq_none]
  constructor
  · intro failing key value found
    exact failing (key, value) (Std.TreeMap.mem_toList_iff_getElem?_eq_some.mpr found)
  · rintro failing ⟨key, value⟩ member
    exact failing key value (Std.TreeMap.mem_toList_iff_getElem?_eq_some.mp member)

/-- The first entry that passes depends on the entries that pass and on nothing else. -/
theorem first_congr {entries others : Std.TreeMap Key Value} {passes passes' : Key → Value → Bool}
    (agree : ∀ key value, entries[key]? = some value ∧ passes key value ↔
      others[key]? = some value ∧ passes' key value) :
    first entries passes = first others passes' := by
  apply Option.ext
  rintro ⟨key, value⟩
  rw [first_eq_some_iff, first_eq_some_iff]
  constructor
  · rintro ⟨found, passing, failing⟩
    obtain ⟨found', passing'⟩ := (agree _ _).mp ⟨found, passing⟩
    exact ⟨found', passing', fun earlier other below present passed =>
      have both := (agree _ _).mpr ⟨present, passed⟩
      failing earlier other below both.1 both.2⟩
  · rintro ⟨found, passing, failing⟩
    obtain ⟨found', passing'⟩ := (agree _ _).mpr ⟨found, passing⟩
    exact ⟨found', passing', fun earlier other below present passed =>
      have both := (agree _ _).mp ⟨present, passed⟩
      failing earlier other below both.1 both.2⟩

end Recap.OrderedMap
