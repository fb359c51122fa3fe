import Mathlib

/-! The total weight of a finite map's values, and what single changes of the map do to it. -/

namespace Recap.Totals

variable {Key Value : Type} [DecidableEq Key]

/-- The weights of all values of a map together. -/
def total (weight : Value → Nat) (map : AList fun _ : Key => Value) : Nat :=
  (map.entries.map fun entry => weight entry.2).sum

/-- The entries of a map whose keys pass a test. -/
def restrict (keep : Key → Bool) (map : AList fun _ : Key => Value) : AList fun _ : Key => Value where
  entries := map.entries.filter fun entry => keep entry.1
  nodupKeys := map.nodupKeys.sublist List.filter_sublist

theorem lookup_restrict (keep : Key → Bool) (map : AList fun _ : Key => Value) (key : Key) :
    (restrict keep map).lookup key = if keep key then map.lookup key else none := by
  apply Option.ext
  intro value
  rw [← Option.mem_def, AList.mem_lookup_iff]
  simp only [restrict, List.mem_filter]
  rw [← AList.mem_lookup_iff]
  cases keep key <;> simp [Option.mem_def]

variable {weight : Value → Nat}

omit [DecidableEq Key] in
theorem total_empty : total weight (∅ : AList fun _ : Key => Value) = 0 := rfl

/-- Taking an entry away takes its weight away. -/
theorem sum_kerase (weight : Value → Nat) (key : Key) (entries : List (Sigma fun _ : Key => Value)) :
    ((entries.kerase key).map fun entry => weight entry.2).sum +
        ((entries.dlookup key).map weight).getD 0 =
      (entries.map fun entry => weight entry.2).sum := by
  induction entries with
  | nil => rfl
  | cons entry rest ih =>
    obtain ⟨other, value⟩ := entry
    by_cases same : key = other
    · subst same
      have gone : List.kerase key (⟨key, value⟩ :: rest) = rest := List.kerase_cons_eq rfl
      rw [gone, List.dlookup_cons_eq]
      simp [Nat.add_comm]
    · rw [List.kerase_cons_ne same, List.dlookup_cons_ne _ _ same]
      simp only [List.map_cons, List.sum_cons]
      omega

/-- A new value replaces the weight of the old one. -/
theorem total_insert (key : Key) (value : Value) (map : AList fun _ : Key => Value) :
    total weight (map.insert key value) + ((map.lookup key).map weight).getD 0 =
      total weight map + weight value := by
  have erased := sum_kerase weight key map.entries
  unfold total
  rw [AList.entries_insert, List.map_cons, List.sum_cons]
  change _ + ((map.entries.dlookup key).map weight).getD 0 = _
  simp only
  omega

/-- The weight of a map depends only on what the map holds. -/
theorem total_congr {map other : AList fun _ : Key => Value}
    (same : ∀ key, map.lookup key = other.lookup key) : total weight map = total weight other := by
  -- The entries are the same up to their order, which a sum does not see.
  have perm : map.entries.Perm other.entries := by
    refine List.lookup_ext map.nodupKeys other.nodupKeys fun key value => ?_
    have agree : map.entries.dlookup key = other.entries.dlookup key := same key
    rw [agree]
  exact (perm.map _).sum_nat

/-- A new value in a part of a map replaces the weight that the old one has there. -/
theorem total_restrict_insert {keep : Key → Bool} {key : Key} (kept : keep key = true)
    (value : Value) (map : AList fun _ : Key => Value) :
    total weight (restrict keep (map.insert key value)) + ((map.lookup key).map weight).getD 0 =
      total weight (restrict keep map) + weight value := by
  have inserted := @total_insert _ _ _ weight key value (restrict keep map)
  rw [lookup_restrict, if_pos kept] at inserted
  rw [← inserted]
  congr 1
  -- It does not matter whether the value is put in before or after the part is taken.
  refine total_congr fun other => ?_
  rw [lookup_restrict]
  by_cases same : other = key
  · subst same
    rw [if_pos kept, AList.lookup_insert, AList.lookup_insert]
  · rw [AList.lookup_insert_ne same, AList.lookup_insert_ne same, lookup_restrict]

/-- The part of a map at one key weighs what the value there does. -/
theorem total_restrict_single {map : AList fun _ : Key => Value} {key : Key} {value : Value}
    (found : map.lookup key = some value) :
    total weight (restrict (fun other => other = key) map) = weight value := by
  -- The part is the map that holds nothing else.
  have single : total weight (restrict (fun other => other = key) map) =
      total weight ((∅ : AList fun _ : Key => Value).insert key value) := by
    refine total_congr fun other => ?_
    rw [lookup_restrict]
    by_cases same : other = key
    · subst same
      rw [AList.lookup_insert, if_pos (by simp)]
      exact found
    · rw [AList.lookup_insert_ne same, AList.lookup_empty, if_neg (by simpa using same)]
  have inserted := @total_insert _ _ _ weight key value ∅
  rw [AList.lookup_empty, total_empty] at inserted
  rw [single]
  simpa using inserted

omit [DecidableEq Key] in
/-- A part of a map that splits into further ones weighs as much as these together. -/
theorem total_restrict_sum {Index : Type} (keep : Key → Bool) (parts : Index → Key → Bool)
    (indices : List Index) (map : AList fun _ : Key => Value)
    (split : ∀ key, (indices.countP fun index => parts index key) = if keep key then 1 else 0) :
    (indices.map fun index => total weight (restrict (parts index) map)).sum =
      total weight (restrict keep map) := by
  unfold total restrict
  simp only
  induction map.entries with
  | nil => simp
  | cons entry rest ih =>
    -- An entry weighs in as often as there are parts that it is in.
    have cons (test : Key → Bool) :
        (((entry :: rest).filter fun entry => test entry.1).map fun entry => weight entry.2).sum =
          (if test entry.1 then weight entry.2 else 0) +
            ((rest.filter fun entry => test entry.1).map fun entry => weight entry.2).sum := by
      by_cases passed : test entry.1 = true
      · simp [passed]
      · simp [passed]
    have often : (indices.map fun index => if parts index entry.1 then weight entry.2 else 0).sum =
        (indices.countP fun index => parts index entry.1) * weight entry.2 := by
      clear split ih cons
      induction indices with
      | nil => simp
      | cons index others ih =>
        rw [List.map_cons, List.sum_cons, ih, List.countP_cons]
        split <;> ring
    simp only [cons, List.sum_map_add, ih, often, split]
    split <;> ring

omit [DecidableEq Key] in
/-- What passes a test and what does not weigh together as much as the map. -/
theorem total_split (keep : Key → Bool) (map : AList fun _ : Key => Value) :
    total weight (restrict keep map) + total weight (restrict (fun key => !keep key) map) =
      total weight map := by
  unfold total restrict
  simp only
  induction map.entries with
  | nil => rfl
  | cons entry rest ih =>
    -- Each entry is on exactly one of the two sides.
    cases kept : keep entry.1 <;>
      simp only [List.filter_cons, kept, Bool.not_true, Bool.not_false, Bool.false_eq_true, if_true,
        if_false, List.map_cons, List.sum_cons]
    all_goals omega

omit [DecidableEq Key] in
private theorem le_sum (weight : Value → Nat) {entries : List (Sigma fun _ : Key => Value)}
    {entry : Sigma fun _ : Key => Value}
    (member : entry ∈ entries) :
    weight entry.2 ≤ (entries.map fun entry => weight entry.2).sum :=
  List.single_le_sum (fun _ _ => Nat.zero_le _) _ (List.mem_map_of_mem member)

/-- A map weighs nothing if none of its values does. -/
theorem total_eq_zero_iff {map : AList fun _ : Key => Value} :
    total weight map = 0 ↔ ∀ key value, map.lookup key = some value → weight value = 0 := by
  constructor
  · intro empty key value found
    have light := le_sum weight (AList.mem_lookup_iff.mp found)
    exact Nat.le_zero.mp (empty ▸ light)
  · intro light
    refine List.sum_eq_zero fun part member => ?_
    obtain ⟨entry, present, rfl⟩ := List.mem_map.mp member
    exact light entry.1 entry.2 (AList.mem_lookup_iff.mpr present)

end Recap.Totals
