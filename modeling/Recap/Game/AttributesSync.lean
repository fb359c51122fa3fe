import Recap.Game.Attributes
import Recap.Lib.Runs

/-! A client that applies every reflection knows the attributes after each of them. -/

namespace Recap.Game

variable {Value : Type}

namespace Attributes

/-- Nothing is found at an index that no entry has. -/
theorem find_eq_none {a : Attributes Value} {idx : UInt8} :
    a.find idx = none ↔ ∀ entry ∈ a.data, entry.1 ≠ idx := by
  simp [find, List.find?_eq_none]

/-- An entry that is found is stored, under the index it was looked for. -/
theorem mem_of_find {a : Attributes Value} {idx : UInt8} {entry : UInt8 × Value}
    (found : a.find idx = some entry) : entry ∈ a.data ∧ entry.1 = idx := by
  have member := List.mem_of_find?_eq_some found
  have named := List.find?_some found
  exact ⟨member, by simpa using named⟩

/-- Entries in strict order have distinct indices. -/
theorem unique_of_sorted {data : List (UInt8 × Value)}
    (sorted : data.Pairwise fun left right => left.1 < right.1) {first second : UInt8 × Value}
    (left : first ∈ data) (right : second ∈ data) (same : first.1 = second.1) : first = second := by
  have distinct : (data.map Prod.fst).Nodup := List.pairwise_map.mpr
    (sorted.imp fun below => UInt8.ne_of_lt below)
  exact List.inj_on_of_nodup_map distinct left right same

/-- Erasing the first entry with an index erases the only one. -/
theorem eraseP_eq_filter {data : List (UInt8 × Value)}
    (sorted : data.Pairwise fun left right => left.1 < right.1) (idx : UInt8) :
    data.eraseP (fun entry => entry.1 == idx) = data.filter fun entry => entry.1 != idx := by
  -- The induction follows the entries up to the one that is erased.
  induction data with
  | nil => rfl
  | cons entry rest ih =>
    obtain ⟨above, sorted⟩ := List.pairwise_cons.mp sorted
    by_cases same : entry.1 = idx
    · -- Every later index is larger, so the filter has nothing left to drop.
      have all : ∀ other ∈ rest, (other.1 != idx) = true := by
        intro other member
        have below := above other member
        rw [same] at below
        simpa using (UInt8.ne_of_lt below).symm
      simp [same, List.filter_eq_self.mpr all]
    · simp [same, ih sorted]

variable [Zero Value]

/-- What holds of the stored attributes and the pending ones throughout. -/
structure Consistent (a : Attributes Value) : Prop where
  sorted : a.data.Pairwise fun left right => left.1 < right.1
  nonzero : ∀ entry ∈ a.data, entry.2 ≠ 0
  erased_nodup : a.erasedData.Nodup
  disjoint : ∀ entry ∈ a.data, entry.1 ∉ a.erasedData

/-- An attribute that is not stored has the value zero. -/
theorem getValue_absent {a : Attributes Value} {idx : UInt8} (absent : ∀ entry ∈ a.data, entry.1 ≠ idx) :
    a.getValue idx = 0 := by
  rw [getValue, find_eq_none.mpr absent]

/-- A stored attribute has the value of its entry. -/
theorem getValue_mem {a : Attributes Value} (sorted : a.data.Pairwise fun left right => left.1 < right.1)
    {entry : UInt8 × Value} (member : entry ∈ a.data) : a.getValue entry.1 = entry.2 := by
  cases found : a.find entry.1 with
  | none => exact absurd rfl (find_eq_none.mp found entry member)
  | some other =>
    obtain ⟨stored, same⟩ := mem_of_find found
    rw [getValue, found, unique_of_sorted sorted stored member same]

/-- Setting an attribute changes that one, both among the stored and among the erased ones. -/
structure Sets (a : Attributes Value) (idx : UInt8) (value : Value) (after : Attributes Value) : Prop where
  sorted : after.data.Pairwise fun left right => left.1 < right.1
  data : ∀ entry, entry ∈ after.data ↔ entry ∈ a.data ∧ entry.1 ≠ idx ∨ entry = (idx, value) ∧ value ≠ 0
  nodup : after.erasedData.Nodup
  erased : ∀ other, other ∈ after.erasedData ↔
    if other = idx then value = 0 ∧ (other ∈ a.erasedData ∨ ∃ entry ∈ a.data, entry.1 = idx)
    else other ∈ a.erasedData
  minWeaponDamage : after.minWeaponDamage = a.minWeaponDamage
  maxWeaponDamage : after.maxWeaponDamage = a.maxWeaponDamage

/-- Setting a stored attribute to zero erases it. -/
theorem sets_erase {a : Attributes Value} (consistent : a.Consistent) {idx : UInt8}
    {entry : UInt8 × Value} (found : a.find idx = some entry) :
    Sets a idx 0 { a with
      data := a.data.eraseP fun entry => entry.1 == idx
      erasedData := a.erasedData ++ [idx] } where
  sorted := consistent.sorted.sublist List.eraseP_sublist
  data := by
    intro other
    rw [eraseP_eq_filter consistent.sorted, List.mem_filter]
    simp
  nodup := by
    obtain ⟨member, named⟩ := mem_of_find found
    -- What is stored has not been erased yet.
    have fresh : idx ∉ a.erasedData := named ▸ consistent.disjoint entry member
    exact List.nodup_append.mpr ⟨consistent.erased_nodup, List.nodup_singleton idx, by
      intro other inside last single same
      rw [List.mem_singleton] at single
      exact fresh (single ▸ same ▸ inside)⟩
  erased := by
    intro other
    obtain ⟨member, named⟩ := mem_of_find found
    by_cases same : other = idx
    · simp only [same, List.mem_append, List.mem_singleton, or_true, if_true, true_and, true_iff]
      exact .inr ⟨entry, member, named⟩
    · simp [same]
  minWeaponDamage := rfl
  maxWeaponDamage := rfl

/-- Setting a stored attribute to another value changes its entry in place. -/
theorem sets_change {a : Attributes Value} (consistent : a.Consistent) {idx : UInt8} {value : Value}
    (nonzero : value ≠ 0) {entry : UInt8 × Value} (found : a.find idx = some entry) :
    Sets a idx value { a with
      data := a.data.map fun entry => if entry.1 == idx then (entry.1, value) else entry } where
  sorted := by
    refine List.pairwise_map.mpr (consistent.sorted.imp fun {left right} below => ?_)
    -- No index changes, so neither does their order.
    have kept : ∀ entry : UInt8 × Value,
        (if entry.1 == idx then (entry.1, value) else entry).1 = entry.1 := by
      intro entry
      split <;> rfl
    rw [kept, kept]
    exact below
  data := by
    intro other
    obtain ⟨member, named⟩ := mem_of_find found
    rw [List.mem_map]
    constructor
    · rintro ⟨stored, inside, rfl⟩
      by_cases same : stored.1 = idx
      · right
        simp [same, nonzero]
      · left
        simp [same, inside]
    · rintro (⟨inside, different⟩ | ⟨rfl, -⟩)
      · exact ⟨other, inside, by simp [different]⟩
      · exact ⟨entry, member, by simp [named]⟩
  nodup := consistent.erased_nodup
  erased := by
    intro other
    obtain ⟨member, named⟩ := mem_of_find found
    by_cases same : other = idx
    · have fresh : idx ∉ a.erasedData := named ▸ consistent.disjoint entry member
      simp [same, fresh, nonzero]
    · simp [same]
  minWeaponDamage := rfl
  maxWeaponDamage := rfl

/-- Setting an absent attribute to zero changes nothing. -/
theorem sets_nothing {a : Attributes Value} (consistent : a.Consistent) {idx : UInt8}
    (absent : a.find idx = none) : Sets a idx 0 a where
  sorted := consistent.sorted
  data := by
    intro other
    simp only [ne_eq, not_true_eq_false, and_false, or_false]
    exact ⟨fun inside => ⟨inside, find_eq_none.mp absent other inside⟩, fun both => both.1⟩
  nodup := consistent.erased_nodup
  erased := by
    intro other
    by_cases same : other = idx
    · have none_stored : ¬ ∃ entry ∈ a.data, entry.1 = idx := fun ⟨entry, member, named⟩ =>
        find_eq_none.mp absent entry member named
      simp [same, none_stored]
    · simp [same]
  minWeaponDamage := rfl
  maxWeaponDamage := rfl

/-- Setting an absent attribute to another value stores it, and it is not among the erased any more. -/
theorem sets_push {a : Attributes Value} (consistent : a.Consistent) {idx : UInt8} {value : Value}
    (nonzero : value ≠ 0) (absent : a.find idx = none) {erasedData : List UInt8}
    (nodup : erasedData.Nodup)
    (erased : ∀ other, other ∈ erasedData ↔ other ≠ idx ∧ other ∈ a.erasedData) :
    Sets a idx value { a with data := pushSorted a.data (idx, value), erasedData := erasedData } where
  sorted := by
    have ordered := List.pairwise_insertionSort (fun left right : UInt8 × Value => left.1 ≤ right.1)
      (a.data ++ [(idx, value)])
    -- Sorting permutes the entries, whose indices were distinct before and are so afterwards.
    have distinct : ((a.data ++ [(idx, value)]).map Prod.fst).Nodup := by
      rw [List.map_append]
      refine List.nodup_append.mpr ⟨List.pairwise_map.mpr
        (consistent.sorted.imp fun below => UInt8.ne_of_lt below), List.nodup_singleton idx, ?_⟩
      intro other inside last single same
      obtain ⟨entry, member, rfl⟩ := List.mem_map.mp inside
      have named : last = idx := List.mem_singleton.mp single
      exact find_eq_none.mp absent entry member (same.trans named)
    have permuted := (List.perm_insertionSort (fun left right : UInt8 × Value => left.1 ≤ right.1)
      (a.data ++ [(idx, value)])).map Prod.fst
    have still_distinct := List.pairwise_map.mp (permuted.nodup_iff.mpr distinct)
    exact ordered.imp₂ (fun left right le ne => UInt8.lt_of_le_of_ne le ne) still_distinct
  data := by
    intro other
    have missing := find_eq_none.mp absent
    simp only [pushSorted, List.mem_insertionSort, List.mem_append, List.mem_singleton]
    constructor
    · rintro (inside | rfl)
      · exact .inl ⟨inside, missing other inside⟩
      · exact .inr ⟨rfl, nonzero⟩
    · rintro (⟨inside, -⟩ | ⟨rfl, -⟩)
      · exact .inl inside
      · exact .inr rfl
  nodup := nodup
  erased := by
    intro other
    rw [erased]
    by_cases same : other = idx
    · simp [same, nonzero]
    · simp [same]
  minWeaponDamage := rfl
  maxWeaponDamage := rfl

/-- What setting an attribute does, wherever the erased attributes are all marked as set. -/
theorem setValue_sets [DecidableEq Value] {a after : Attributes Value} (consistent : a.Consistent)
    (marked : ∀ idx ∈ a.erasedData, a.dataBits idx = true) {idx : UInt8} {value : Value}
    (client : idx < clientCount) (set : a.setValue idx value = some after) :
    Sets a idx value after ∧ after.dataBits = Function.update a.dataBits idx true := by
  rw [setValue, if_pos client] at set
  cases found : a.find idx with
  | some entry =>
    simp only [found] at set
    by_cases zero : value = 0
    · subst zero
      simp only [if_true, Option.bind_eq_bind, Option.bind_some, Option.some.injEq] at set
      subst set
      exact ⟨{ sets_erase consistent found with }, rfl⟩
    · simp only [zero, if_false, Option.bind_eq_bind, Option.bind_some, Option.some.injEq] at set
      subst set
      exact ⟨{ sets_change consistent zero found with }, rfl⟩
  | none =>
    simp only [found] at set
    by_cases zero : value = 0
    · subst zero
      simp only [ne_eq, not_true_eq_false, if_false, Option.bind_eq_bind, Option.bind_some,
        Option.some.injEq] at set
      subst set
      exact ⟨{ sets_nothing consistent found with }, rfl⟩
    · cases marks : a.dataBits idx with
      | true =>
        by_cases pending : idx ∈ a.erasedData
        · simp only [ne_eq, zero, not_false_eq_true, if_true, marks, pending, Option.bind_eq_bind,
            Option.bind_some, Option.some.injEq] at set
          subst set
          have sets := sets_push consistent zero found (consistent.erased_nodup.erase idx)
            fun other => consistent.erased_nodup.mem_erase_iff
          exact ⟨{ sets with }, rfl⟩
        · simp [zero, marks, pending] at set
      | false =>
        -- An attribute that is not marked is not among the erased ones to begin with.
        have fresh : idx ∉ a.erasedData := fun pending => by
          rw [marked idx pending] at marks
          exact absurd marks (by decide)
        simp only [ne_eq, zero, not_false_eq_true, if_true, marks, Bool.false_eq_true, if_false,
          Option.bind_eq_bind, Option.bind_some, Option.some.injEq] at set
        subst set
        have sets := sets_push consistent zero found consistent.erased_nodup fun other =>
          ⟨fun inside => ⟨fun same => fresh (same ▸ inside), inside⟩, fun both => both.2⟩
        exact ⟨{ sets with }, rfl⟩

/-- The stored attributes stay those that are sent when a sent one is set. -/
theorem Sets.client {a after : Attributes Value} {idx : UInt8} {value : Value}
    (sets : Sets a idx value after) (client : idx < clientCount)
    (before : ∀ entry ∈ a.data, entry.1 < clientCount) : ∀ entry ∈ after.data, entry.1 < clientCount := by
  intro entry member
  rcases (sets.data entry).mp member with ⟨stored, -⟩ | ⟨rfl, -⟩
  · exact before entry stored
  · exact client

/-- What is erased stays marked as set when the attribute that is set is marked too. -/
theorem Sets.marked {a after : Attributes Value} {idx : UInt8} {value : Value}
    (sets : Sets a idx value after) (bits : after.dataBits = Function.update a.dataBits idx true)
    (before : ∀ other ∈ a.erasedData, a.dataBits other = true) :
    ∀ other ∈ after.erasedData, after.dataBits other = true := by
  intro other member
  rw [sets.erased] at member
  rw [bits]
  by_cases same : other = idx
  · rw [same, Function.update_self]
  · rw [if_neg same] at member
    rw [Function.update_of_ne same]
    exact before other member

/-- The values after setting an attribute. -/
theorem Sets.values {a after : Attributes Value} (consistent : a.Consistent) {idx : UInt8} {value : Value}
    (sets : Sets a idx value after) (other : UInt8) :
    after.getValue other = if other = idx then value else a.getValue other := by
  by_cases stored : ∃ entry ∈ after.data, entry.1 = other
  · obtain ⟨entry, member, rfl⟩ := stored
    rw [getValue_mem sets.sorted member]
    rcases (sets.data entry).mp member with ⟨before, different⟩ | ⟨rfl, -⟩
    · rw [if_neg different, getValue_mem consistent.sorted before]
    · rw [if_pos rfl]
  · rw [getValue_absent fun entry member same => stored ⟨entry, member, same⟩]
    by_cases same : other = idx
    · -- The set attribute is missing only because its value is zero.
      rw [if_pos same]
      by_contra nonzero
      exact stored ⟨(idx, value), (sets.data _).mpr (.inr ⟨rfl, Ne.symm nonzero⟩), same.symm⟩
    · rw [if_neg same, getValue_absent]
      exact fun entry member named => stored ⟨entry,
        (sets.data entry).mpr (.inl ⟨member, named ▸ same⟩), named⟩

/-- Consistent attributes stay so. -/
theorem Sets.consistent {a after : Attributes Value} (consistent : a.Consistent) {idx : UInt8}
    {value : Value} (sets : Sets a idx value after) : after.Consistent where
  sorted := sets.sorted
  nonzero := by
    intro entry member
    rcases (sets.data entry).mp member with ⟨before, -⟩ | ⟨rfl, nonzero⟩
    · exact consistent.nonzero entry before
    · exact nonzero
  erased_nodup := sets.nodup
  disjoint := by
    intro entry member erased
    rw [sets.erased] at erased
    rcases (sets.data entry).mp member with ⟨before, different⟩ | ⟨rfl, nonzero⟩
    · rw [if_neg different] at erased
      exact consistent.disjoint entry before erased
    · rw [if_pos rfl] at erased
      exact nonzero erased.1

end Attributes

/-! ## The mirror of a client -/

/-- Reading fields one after another updates the mirror one after another. -/
theorem Mirror.apply_fields (entries : List (UInt8 × Value)) (rest : List (Token Value))
    (mirror : Mirror Value) (fields : ∀ entry ∈ entries, entry.1 ≠ reflectionEnd) :
    Mirror.apply (entries.flatMap (fun entry => writeField entry.1 entry.2) ++ rest) mirror =
      Mirror.apply rest (entries.foldl (fun mirror entry => Function.update mirror entry.1 entry.2)
        mirror) := by
  induction entries generalizing mirror with
  | nil => rfl
  | cons entry entries ih =>
    have field := fields entry List.mem_cons_self
    simp only [List.flatMap_cons, writeField, List.cons_append, List.nil_append, Mirror.apply,
      if_neg field, List.foldl_cons]
    exact ih _ fun other member => fields other (List.mem_cons_of_mem _ member)

/-- Updates that agree on an index leave their value there, and none at all leaves what was there. -/
theorem Mirror.foldl_update (entries : List (UInt8 × Value)) (mirror : Mirror Value) (idx : UInt8)
    (value : Value) (agree : ∀ entry ∈ entries, entry.1 = idx → entry.2 = value)
    (reached : (∃ entry ∈ entries, entry.1 = idx) ∨ mirror idx = value) :
    entries.foldl (fun mirror entry => Function.update mirror entry.1 entry.2) mirror idx = value := by
  -- After each update the index either has the value already or is still to be updated.
  induction entries generalizing mirror with
  | nil =>
    rcases reached with ⟨entry, member, -⟩ | same
    · exact absurd member List.not_mem_nil
    · exact same
  | cons entry entries ih =>
    refine ih _ (fun other member => agree other (List.mem_cons_of_mem _ member)) ?_
    by_cases here : entry.1 = idx
    · right
      dsimp only
      rw [here, Function.update_self]
      exact agree entry List.mem_cons_self here
    · rcases reached with ⟨other, member, named⟩ | same
      · rcases List.mem_cons.mp member with rfl | later
        · exact absurd named here
        · exact .inl ⟨other, later, named⟩
      · right
        dsimp only
        rw [Function.update_of_ne (Ne.symm here)]
        exact same

variable [Zero Value]

/-- The attributes of an object and what one client knows of them. -/
structure SyncState (Value : Type) where
  attributes : Attributes Value
  mirror : Mirror Value

/-- What happens to the attributes of an object. -/
inductive SyncInput (Value : Type) where
  /-- An attribute is set. -/
  | set (idx : UInt8) (value : Value)
  /-- A reflection is written, reset, and applied by the client. -/
  | round

/-- One step of the attributes and the client, unless it erases the end iterator. -/
def sync [DecidableEq Value] (s : SyncState Value) : SyncInput Value → Option (SyncState Value)
  | .set idx value => do return { s with attributes := ← s.attributes.setValue idx value }
  | .round => some ⟨s.attributes.resetReflectionBits, s.mirror.apply s.attributes.writeReflection⟩

/-- A client that knows nothing yet, and attributes that are all zero. -/
def SyncState.initial : SyncState Value := ⟨.empty, fun _ => 0⟩

/-- What the client does not know yet is marked as set, and can be told from what is pending. -/
structure Synced (s : SyncState Value) : Prop where
  consistent : s.attributes.Consistent
  client : ∀ entry ∈ s.attributes.data, entry.1 < clientCount
  erased_client : ∀ idx ∈ s.attributes.erasedData, idx < clientCount
  marked : ∀ idx ∈ s.attributes.erasedData, s.attributes.dataBits idx = true
  known : ∀ idx, s.attributes.dataBits idx = false → s.mirror idx = s.attributes.getValue idx
  zeroed : ∀ idx, s.attributes.getValue idx = 0 → idx ∉ s.attributes.erasedData → s.mirror idx = 0
  damage : s.attributes.minWeaponDamage = 0 ∧ s.attributes.maxWeaponDamage = 0

theorem synced_initial : Synced (SyncState.initial : SyncState Value) where
  consistent := ⟨List.Pairwise.nil, by simp [SyncState.initial, Attributes.empty], List.nodup_nil,
    by simp [SyncState.initial, Attributes.empty]⟩
  client := by simp [SyncState.initial, Attributes.empty]
  erased_client := by simp [SyncState.initial, Attributes.empty]
  marked := by simp [SyncState.initial, Attributes.empty]
  known := fun _ _ => rfl
  zeroed := fun _ _ _ => rfl
  damage := ⟨rfl, rfl⟩

/-- Setting an attribute keeps the client in step, since it is marked as set. -/
theorem Synced.set [DecidableEq Value] {s after : SyncState Value} (synced : Synced s) {idx : UInt8}
    {value : Value} (taken : sync s (.set idx value) = some after) : Synced after := by
  obtain ⟨attributes, set, rfl⟩ : ∃ attributes, s.attributes.setValue idx value = some attributes ∧
      after = { s with attributes := attributes } := by
    obtain ⟨attributes, set, same⟩ := Option.bind_eq_some_iff.mp taken
    exact ⟨attributes, set, (Option.some.inj same).symm⟩
  by_cases client : idx < clientCount
  · obtain ⟨sets, bits⟩ := Attributes.setValue_sets synced.consistent synced.marked client set
    have values := sets.values synced.consistent
    refine ⟨sets.consistent synced.consistent, sets.client client synced.client, ?_,
      sets.marked bits synced.marked, ?_, ?_, ?_⟩
    · intro other member
      rw [sets.erased] at member
      by_cases same : other = idx
      · exact same ▸ client
      · rw [if_neg same] at member
        exact synced.erased_client other member
    · intro other unmarked
      rw [bits] at unmarked
      by_cases same : other = idx
      · rw [same, Function.update_self] at unmarked
        exact absurd unmarked (by decide)
      · rw [Function.update_of_ne same] at unmarked
        rw [values, if_neg same]
        exact synced.known other unmarked
    · intro other zero fresh
      rw [sets.erased] at fresh
      rw [values] at zero
      by_cases same : other = idx
      · -- The attribute was neither stored nor erased before, so the client had it as zero.
        rw [if_pos same] at zero fresh
        have before : other ∉ s.attributes.erasedData ∧
            ¬ ∃ entry ∈ s.attributes.data, entry.1 = idx := by
          simpa [zero] using fresh
        refine synced.zeroed other (Attributes.getValue_absent ?_) before.1
        exact fun entry member named => before.2 ⟨entry, member, named.trans same⟩
      · rw [if_neg same] at zero fresh
        exact synced.zeroed other zero fresh
    · rw [sets.minWeaponDamage, sets.maxWeaponDamage]
      exact synced.damage
  · -- Attributes that are never sent are never stored either.
    rw [Attributes.setValue, if_neg client] at set
    rw [← Option.some.inj set]
    exact synced

/-- The fields of a reflection, with the values they are written with. -/
def Attributes.fields (a : Attributes Value) : List (UInt8 × Value) :=
  (a.data.filter fun entry => a.dataBits entry.1) ++ a.erasedData.map (fun idx => (idx, 0)) ++
    [(minWeaponDamageField, a.minWeaponDamage), (maxWeaponDamageField, a.maxWeaponDamage)]

/-- A reflection is its fields one after another, and the byte that ends them. -/
theorem Attributes.writeReflection_eq (a : Attributes Value) :
    a.writeReflection =
      a.fields.flatMap (fun entry => writeField entry.1 entry.2) ++ [.field reflectionEnd] := by
  simp [writeReflection, fields, List.flatMap_append, List.flatMap_map, List.append_assoc]

/-- An attribute that clients are not sent has the value zero. -/
theorem Synced.getValue_beyond {s : SyncState Value} (synced : Synced s) {idx : UInt8}
    (beyond : ¬ idx < clientCount) : s.attributes.getValue idx = 0 :=
  Attributes.getValue_absent fun entry member same => beyond (same ▸ synced.client entry member)

/-- Every field of a reflection is an attribute with its value. -/
theorem Synced.fields {s : SyncState Value} (synced : Synced s) (entry : UInt8 × Value)
    (member : entry ∈ s.attributes.fields) :
    entry.1 ≠ reflectionEnd ∧ entry.2 = s.attributes.getValue entry.1 := by
  have last : ∀ idx, idx < clientCount → idx ≠ reflectionEnd := by
    rintro idx below rfl
    exact absurd below (by decide)
  simp only [Attributes.fields, List.mem_append, List.mem_filter, List.mem_map, List.mem_cons,
    List.not_mem_nil, or_false] at member
  rcases member with (⟨stored, -⟩ | ⟨idx, erased, rfl⟩) | (rfl | rfl)
  · exact ⟨last _ (synced.client entry stored),
      (Attributes.getValue_mem synced.consistent.sorted stored).symm⟩
  · -- What was erased is not stored, so its value is zero.
    refine ⟨last _ (synced.erased_client idx erased), (Attributes.getValue_absent ?_).symm⟩
    exact fun other stored same => synced.consistent.disjoint other stored (same ▸ erased)
  · refine ⟨show minWeaponDamageField ≠ reflectionEnd by decide, ?_⟩
    rw [synced.getValue_beyond (show ¬ minWeaponDamageField < clientCount by decide), synced.damage.1]
  · refine ⟨show maxWeaponDamageField ≠ reflectionEnd by decide, ?_⟩
    rw [synced.getValue_beyond (show ¬ maxWeaponDamageField < clientCount by decide), synced.damage.2]

/-- After a reflection was applied, the client knows every attribute. -/
theorem Synced.applied {s : SyncState Value} (synced : Synced s) (idx : UInt8) :
    s.mirror.apply s.attributes.writeReflection idx = s.attributes.getValue idx := by
  rw [Attributes.writeReflection_eq,
    Mirror.apply_fields _ _ _ fun entry member => (synced.fields entry member).1]
  refine Mirror.foldl_update _ _ _ _ (fun entry member named => ?_) ?_
  · rw [(synced.fields entry member).2, named]
  · by_cases sent : ∃ entry ∈ s.attributes.fields, entry.1 = idx
    · exact .inl sent
    · right
      -- What was not sent was either known before, or is zero and never was anything else.
      cases marks : s.attributes.dataBits idx with
      | false => exact synced.known idx marks
      | true =>
        have absent : ∀ entry ∈ s.attributes.data, entry.1 ≠ idx := fun entry stored named =>
          sent ⟨entry, by simp [Attributes.fields, stored, named, marks], named⟩
        have fresh : idx ∉ s.attributes.erasedData := fun erased =>
          sent ⟨(idx, 0), by simp [Attributes.fields, erased], rfl⟩
        have zero := Attributes.getValue_absent absent
        rw [zero]
        exact synced.zeroed idx zero fresh

/-- A round leaves nothing pending, and nothing that the client does not know. -/
theorem Synced.round {s : SyncState Value} (synced : Synced s) :
    Synced ⟨s.attributes.resetReflectionBits, s.mirror.apply s.attributes.writeReflection⟩ where
  consistent := ⟨synced.consistent.sorted, synced.consistent.nonzero, List.nodup_nil,
    fun _ _ => List.not_mem_nil⟩
  client := synced.client
  erased_client := fun _ impossible => absurd impossible List.not_mem_nil
  marked := fun _ impossible => absurd impossible List.not_mem_nil
  known := fun idx _ => synced.applied idx
  zeroed := fun idx zero _ => (synced.applied idx).trans zero
  damage := synced.damage

/-- Every step keeps the client in step. -/
theorem synced_kept [DecidableEq Value] : Runs.Kept (@sync Value _ _) Synced := by
  intro s input after synced taken
  cases input with
  | set idx value => exact synced.set taken
  | round =>
    rw [← Option.some.inj taken]
    exact synced.round

/--
Along every run, the attributes stay consistent and every round tells the client all of them.

A run ends where setting an attribute would erase the end iterator.
-/
theorem sync_agrees [DecidableEq Value] (inputs : List (SyncInput Value)) :
    Runs.Along sync (fun s input => s.attributes.Consistent ∧ ∀ after, sync s input = some after →
      after.attributes.Consistent ∧
        (input = .round → ∀ idx, after.mirror idx = after.attributes.getValue idx)) .initial inputs := by
  refine synced_kept.along (fun s input synced => ⟨synced.consistent, fun after taken => ?_⟩) inputs
    synced_initial
  refine ⟨(synced_kept s input after synced taken).consistent, ?_⟩
  rintro rfl idx
  rw [← Option.some.inj taken]
  exact synced.applied idx

end Recap.Game
