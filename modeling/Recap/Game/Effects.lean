import Recap.Lib.OrderedMap
import Recap.Lib.Runs

/-! The indices that an object's effects have, which are handed out and given back. -/

namespace Recap.Game

/-- `std::swap(vector[position], vector.back())`, and then `vector.pop_back()`. -/
def swapPop {α : Type} (items : List α) (position : Nat) : List α :=
  match items.getLast? with
  | none => []
  | some last => (items.set position last).dropLast

/-- Everything but the item at the position is left, in some order. -/
theorem swapPop_perm {α : Type} {items : List α} {position : Nat} (inside : position < items.length) :
    items.Perm (items[position] :: swapPop items position) := by
  -- Either the last item goes itself, or it takes the place of the one that goes.
  induction items using List.reverseRecOn with
  | nil => simp at inside
  | append_singleton front last _ =>
    simp only [swapPop, List.getLast?_append, List.getLast?_singleton, Option.some_or]
    simp only [List.length_append, List.length_singleton] at inside
    by_cases final : position = front.length
    · subst final
      simp [List.set_append_right]
    · have before : position < front.length := by omega
      simp only [List.set_append_left _ _ before, List.getElem_append_left before, List.dropLast_concat]
      calc (front ++ [last]).Perm (last :: front) := List.perm_append_singleton last front
        _ |>.Perm (last :: front[position] :: front.eraseIdx position) :=
          (List.getElem_cons_eraseIdx_perm before).symm.cons last
        _ |>.Perm (front[position] :: last :: front.eraseIdx position) := List.Perm.swap _ _ _
        _ |>.Perm (front[position] :: front.set position last) :=
          (List.set_perm_cons_eraseIdx before last).symm.cons _

/-- `EffectList` -/
structure EffectList where
  indexByEffect : Std.TreeMap UInt32 UInt8
  openIndexes : List UInt8
  usedIndexes : List UInt8

namespace EffectList

def empty : EffectList := ⟨∅, [], []⟩

variable (list : EffectList)

def getOpenIndex : UInt8 × EffectList :=
  match list.openIndexes.getLast? with
  | none =>
    if list.usedIndexes.length < 0xFF then
      let index := UInt8.ofNat list.usedIndexes.length + 1
      (index, { list with usedIndexes := list.usedIndexes ++ [index] })
    else (0, list)
  | some index =>
    (index, { list with
      openIndexes := list.openIndexes.dropLast
      usedIndexes := list.usedIndexes ++ [index] })

def add (effect : UInt32) : UInt8 × EffectList :=
  let (index, list) := list.getOpenIndex
  if index ≠ 0 then (index, { list with indexByEffect := list.indexByEffect.insert effect index })
  else (index, list)

/-- What both ways to remove do with an index, if it is in use. -/
def release (index : UInt8) : Option EffectList :=
  (list.usedIndexes.idxOf? index).map fun position =>
    { list with
      usedIndexes := swapPop list.usedIndexes position
      openIndexes := list.openIndexes ++ [index] }

def remove (effect : UInt32) : UInt8 × EffectList :=
  match list.indexByEffect[effect]? with
  | none => (0, list)
  | some index =>
    let released := (list.release index).getD list
    (index, { released with indexByEffect := released.indexByEffect.erase effect })

def removeByIndex (index : UInt8) : Bool × EffectList :=
  match list.release index with
  | none => (false, list)
  | some released =>
    match released.indexByEffect.toList.find? fun entry => entry.2 = index with
    | none => (true, released)
    | some (effect, _) =>
      (true, { released with indexByEffect := released.indexByEffect.erase effect })

end EffectList

inductive EffectCall where
  | add (effect : UInt32)
  | remove (effect : UInt32)
  | removeByIndex (index : UInt8)
deriving DecidableEq

namespace EffectList

def after (list : EffectList) : EffectCall → EffectList
  | .add effect => (list.add effect).2
  | .remove effect => (list.remove effect).2
  | .removeByIndex index => (list.removeByIndex index).2

/-- The list after calls, the first of which finds it empty. -/
def run (calls : List EffectCall) : EffectList := calls.foldl after empty

/-! ## Which indices there are -/

/-- The indices up to a number, from one on. -/
def upTo (count : Nat) : List UInt8 := (List.range count).map fun i => UInt8.ofNat (i + 1)

/-- The indices that are in use and those that are open are the first so many ones. -/
def Partitioned (list : EffectList) : Prop :=
  ∃ count ≤ 255, (list.usedIndexes ++ list.openIndexes).Perm (upTo count)

/-- What the release of an index that is in use leaves behind. -/
theorem release_eq_some {list released : EffectList} {index : UInt8}
    (freed : list.release index = some released) :
    list.usedIndexes.Perm (index :: released.usedIndexes) ∧
      released.openIndexes = list.openIndexes ++ [index] ∧
      released.indexByEffect = list.indexByEffect := by
  unfold release at freed
  obtain ⟨position, found, rfl⟩ := Option.map_eq_some_iff.mp freed
  obtain ⟨inside, same, -⟩ := List.idxOf?_eq_some_iff.mp found
  refine ⟨?_, rfl, rfl⟩
  have perm := swapPop_perm inside
  rwa [same] at perm

/-- An index that is in use can be released, and others cannot. -/
theorem release_eq_none {list : EffectList} {index : UInt8} :
    list.release index = none ↔ index ∉ list.usedIndexes := by
  rw [release, Option.map_eq_none_iff, List.idxOf?_eq_none_iff]

theorem Partitioned.release {list released : EffectList} {index : UInt8} (parts : list.Partitioned)
    (freed : list.release index = some released) : released.Partitioned := by
  obtain ⟨count, few, perm⟩ := parts
  obtain ⟨used, opened, -⟩ := release_eq_some freed
  refine ⟨count, few, List.Perm.trans ?_ perm⟩
  rw [opened, ← List.append_assoc]
  refine (List.perm_append_singleton index _).trans ?_
  exact (used.append_right list.openIndexes).symm

theorem mem_upTo {count : Nat} (few : count ≤ 255) {index : UInt8} :
    index ∈ upTo count ↔ 1 ≤ index.toNat ∧ index.toNat ≤ count := by
  -- The indices are counted from one.
  simp only [upTo, List.mem_map, List.mem_range]
  constructor
  · rintro ⟨i, below, rfl⟩
    rw [UInt8.toNat_ofNat_of_lt' (show i + 1 < 256 by omega)]
    omega
  · intro within
    refine ⟨index.toNat - 1, by omega, ?_⟩
    rw [Nat.sub_add_cancel within.1, UInt8.ofNat_toNat]

theorem upTo_nodup {count : Nat} (few : count ≤ 255) : (upTo count).Nodup := by
  refine List.Nodup.map_on (fun i below j other same => ?_) List.nodup_range
  rw [List.mem_range] at below other
  have numbers := congrArg UInt8.toNat same
  rw [UInt8.toNat_ofNat_of_lt' (show i + 1 < 256 by omega),
    UInt8.toNat_ofNat_of_lt' (show j + 1 < 256 by omega)] at numbers
  omega

/-- A further index comes behind the others. -/
theorem upTo_succ (count : Nat) : upTo (count + 1) = upTo count ++ [UInt8.ofNat (count + 1)] := by
  simp [upTo, List.range_succ]

theorem partitioned_empty : empty.Partitioned := ⟨0, Nat.zero_le _, List.Perm.refl _⟩

/-- All the indices are in use, and none is open. -/
def Full (list : EffectList) : Prop := list.openIndexes = [] ∧ 255 ≤ list.usedIndexes.length

instance (list : EffectList) : Decidable list.Full := inferInstanceAs (Decidable (_ ∧ _))

/-- What is handed out is in use from then on, and nothing else changes but what is open. -/
structure HandsOut (list : EffectList) (index : UInt8) (after : EffectList) : Prop where
  used : after.usedIndexes = list.usedIndexes ++ [index]
  fresh : index ∉ list.usedIndexes
  real : index ≠ 0
  parts : after.Partitioned
  kept : after.indexByEffect = list.indexByEffect

/-- An index is handed out as long as there is one. -/
theorem Partitioned.getOpenIndex {list : EffectList} (parts : list.Partitioned) :
    (list.Full ∧ list.getOpenIndex = (0, list)) ∨
      (¬ list.Full ∧ list.HandsOut list.getOpenIndex.1 list.getOpenIndex.2) := by
  obtain ⟨count, few, perm⟩ := parts
  have distinct := perm.nodup_iff.mpr (upTo_nodup few)
  have total := perm.length_eq
  simp only [List.length_append, upTo, List.length_map, List.length_range] at total
  unfold EffectList.getOpenIndex Full
  cases opened : list.openIndexes.getLast? with
  | none =>
    have nothing := List.getLast?_eq_none_iff.mp opened
    simp only [nothing, List.length_nil, Nat.add_zero] at total
    rw [nothing, List.append_nil] at perm
    by_cases room : list.usedIndexes.length < 0xFF
    · -- The next index is the number of those that are in use, and one.
      refine .inr ⟨fun full => by omega, ?_⟩
      have next : UInt8.ofNat list.usedIndexes.length + 1 = UInt8.ofNat (count + 1) := by
        rw [total, UInt8.ofNat_add]
        rfl
      have number : (UInt8.ofNat (count + 1)).toNat = count + 1 :=
        UInt8.toNat_ofNat_of_lt' (show count + 1 < 256 by omega)
      simp only [if_pos room, next]
      refine ⟨rfl, fun member => ?_, fun zero => ?_, ⟨count + 1, by omega, ?_⟩, rfl⟩
      · have within := (mem_upTo few).mp (perm.mem_iff.mp member)
        omega
      · rw [zero] at number
        exact absurd number (by simp)
      · rw [nothing, List.append_nil, upTo_succ]
        exact perm.append_right _
    · refine .inl ⟨⟨nothing, by omega⟩, ?_⟩
      simp only [if_neg room]
  | some index =>
    obtain ⟨front, same⟩ := List.getLast?_eq_some_iff.mp opened
    simp only [same, List.dropLast_concat]
    refine .inr ⟨by simp, ⟨rfl, fun member => ?_, fun zero => ?_, ⟨count, few, ?_⟩, rfl⟩⟩
    · rw [same, ← List.append_assoc, List.nodup_append] at distinct
      exact distinct.2.2 index (List.mem_append_left _ member) index (List.mem_singleton_self _) rfl
    · have member : index ∈ upTo count := perm.mem_iff.mp (by simp [same])
      have within := (mem_upTo few).mp member
      rw [zero] at within
      exact absurd within.1 (by decide)
    · rw [same] at perm
      refine List.Perm.trans ?_ perm
      rw [List.append_assoc]
      exact List.Perm.append_left _ (List.perm_append_comm)

theorem Partitioned.add {list : EffectList} (parts : list.Partitioned) (effect : UInt32) :
    (list.add effect).2.Partitioned := by
  unfold EffectList.add
  rcases parts.getOpenIndex with ⟨-, same⟩ | ⟨-, out⟩
  · simpa [same] using parts
  · simp only [if_pos out.real]
    exact out.parts

theorem Partitioned.remove {list : EffectList} (parts : list.Partitioned) (effect : UInt32) :
    (list.remove effect).2.Partitioned := by
  -- What is removed gives back its index, and unknown effects change nothing.
  unfold EffectList.remove
  split
  · exact parts
  · rename_i index found
    cases freed : list.release index with
    | none => exact parts
    | some released => exact (show released.Partitioned from parts.release freed)

theorem Partitioned.removeByIndex {list : EffectList} (parts : list.Partitioned) (index : UInt8) :
    (list.removeByIndex index).2.Partitioned := by
  -- The entry of the effect is dropped with the index, which leaves the two lists alone.
  unfold EffectList.removeByIndex
  cases freed : list.release index with
  | none => exact parts
  | some released =>
    have rest := parts.release freed
    simp only
    split
    · exact rest
    · exact rest

theorem Partitioned.after {list : EffectList} (parts : list.Partitioned) (call : EffectCall) :
    (list.after call).Partitioned := by
  cases call with
  | add effect => exact parts.add effect
  | remove effect => exact parts.remove effect
  | removeByIndex index => exact parts.removeByIndex index

/-- Whatever the calls are, the indices stay the first so many ones. -/
theorem partitioned_run (calls : List EffectCall) : (run calls).Partitioned := by
  unfold run
  induction calls using List.reverseRecOn with
  | nil => exact partitioned_empty
  | append_singleton calls call ih =>
    rw [List.foldl_append]
    exact ih.after call

/-- An addition that returns no index finds all of them in use. -/
theorem Partitioned.add_eq_zero {list : EffectList} (parts : list.Partitioned) {effect : UInt32}
    (none_left : (list.add effect).1 = 0) : list.Full := by
  unfold EffectList.add at none_left
  rcases parts.getOpenIndex with ⟨full, -⟩ | ⟨-, out⟩
  · exact full
  · simp only [if_pos out.real] at none_left
    exact absurd none_left out.real

/--
The indices in use differ from each other and from the open ones, and with these they are the first
so many indices. An addition returns none only if all of them are in use.
-/
theorem indices_allocated (calls : List EffectCall) :
    (run calls).usedIndexes.Nodup ∧ (run calls).openIndexes.Nodup ∧
    (∀ index ∈ (run calls).usedIndexes, 1 ≤ index.toNat ∧ index.toNat ≤ 255) ∧
    (run calls).usedIndexes.Disjoint (run calls).openIndexes ∧
    (∃ count ≤ 255, ∀ index : UInt8,
      index ∈ (run calls).usedIndexes ∨ index ∈ (run calls).openIndexes ↔
        1 ≤ index.toNat ∧ index.toNat ≤ count) ∧
    ∀ effect, ((run calls).add effect).1 = 0 → (run calls).usedIndexes.length = 255 := by
  -- All of it is said by the two lists being the first indices in some order.
  have parts := partitioned_run calls
  obtain ⟨count, few, perm⟩ := partitioned_run calls
  have distinct := List.nodup_append.mp (perm.nodup_iff.mpr (upTo_nodup few))
  have total := perm.length_eq
  simp only [List.length_append, upTo, List.length_map, List.length_range] at total
  refine ⟨distinct.1, distinct.2.1, ?_, ?_, ⟨count, few, ?_⟩, ?_⟩
  · intro index member
    have within := (mem_upTo few).mp (perm.mem_iff.mp (List.mem_append_left _ member))
    omega
  · intro index used opened
    exact distinct.2.2 index used index opened rfl
  · intro index
    rw [← mem_upTo few, ← perm.mem_iff, List.mem_append]
  · intro effect none_left
    have full := parts.add_eq_zero none_left
    have least := full.2
    omega

/-- An addition hands out an index and enters it, unless there is none left. -/
theorem Partitioned.add_cases {list : EffectList} (parts : list.Partitioned) (effect : UInt32) :
    (list.Full ∧ list.add effect = (0, list)) ∨
      (¬ list.Full ∧ (list.add effect).1 ≠ 0 ∧ (list.add effect).1 ∉ list.usedIndexes ∧
        (list.add effect).2.usedIndexes = list.usedIndexes ++ [(list.add effect).1] ∧
        (list.add effect).2.indexByEffect = list.indexByEffect.insert effect (list.add effect).1) := by
  unfold EffectList.add
  rcases parts.getOpenIndex with ⟨full, same⟩ | ⟨room, out⟩
  · exact .inl ⟨full, by simp [same]⟩
  · simp only [if_pos out.real]
    exact .inr ⟨room, out.real, out.fresh, out.used, by rw [out.kept]⟩

/-- An index is taken out of the list, and so is the entry that it has. -/
structure Frees (list : EffectList) (index : UInt8) (after : EffectList) : Prop where
  used : list.usedIndexes.Perm (index :: after.usedIndexes)
  entries : ∀ effect : UInt32, after.indexByEffect[effect]? =
    if list.indexByEffect[effect]? = some index then none else list.indexByEffect[effect]?

/-- No two effects are entered with one index. -/
def Distinct (list : EffectList) : Prop :=
  ∀ (first second : UInt32) (index : UInt8), list.indexByEffect[first]? = some index →
    list.indexByEffect[second]? = some index → first = second

theorem erase_entries {list : EffectList} (distinct : list.Distinct) {effect : UInt32} {index : UInt8}
    (found : list.indexByEffect[effect]? = some index) (other : UInt32) :
    (list.indexByEffect.erase effect)[other]? =
      if list.indexByEffect[other]? = some index then none else list.indexByEffect[other]? := by
  rw [OrderedMap.lookup_erase]
  by_cases same : effect = other
  · subst same
    rw [if_pos rfl, if_pos found]
  · rw [if_neg same, if_neg fun also => same (distinct _ _ _ found also)]

theorem remove_frees {list : EffectList} (distinct : list.Distinct) {effect : UInt32} {index : UInt8}
    (found : list.indexByEffect[effect]? = some index) (used : index ∈ list.usedIndexes) :
    list.Frees index (list.remove effect).2 := by
  cases freed : list.release index with
  | none => exact absurd used (release_eq_none.mp freed)
  | some released =>
    obtain ⟨perm, -, kept⟩ := release_eq_some freed
    simp only [EffectList.remove, found, freed, Option.getD_some, kept]
    exact ⟨perm, erase_entries distinct found⟩

theorem removeByIndex_frees {list : EffectList} (distinct : list.Distinct) {index : UInt8}
    (used : index ∈ list.usedIndexes) : list.Frees index (list.removeByIndex index).2 := by
  unfold EffectList.removeByIndex
  cases freed : list.release index with
  | none => exact absurd used (release_eq_none.mp freed)
  | some released =>
    obtain ⟨perm, -, kept⟩ := release_eq_some freed
    simp only [kept]
    split
    · -- No entry has the index, and so every entry stays.
      rename_i nowhere
      refine ⟨perm, fun effect => ?_⟩
      have absent : list.indexByEffect[effect]? ≠ some index := by
        intro found
        have member := Std.TreeMap.mem_toList_iff_getElem?_eq_some.mpr found
        exact List.find?_eq_none.mp nowhere _ member (by simp)
      rw [kept, if_neg absent]
    · rename_i effect held first
      have member := Std.TreeMap.mem_toList_iff_getElem?_eq_some.mp (List.mem_of_find?_eq_some first)
      have same : held = index := by simpa using List.find?_some first
      subst same
      exact ⟨perm, erase_entries distinct member⟩

theorem removeByIndex_other {list : EffectList} {index : UInt8} (unused : index ∉ list.usedIndexes) :
    (list.removeByIndex index).2 = list := by
  unfold EffectList.removeByIndex
  rw [release_eq_none.mpr unused]

/-! ## Which effect has an index -/

end EffectList

/-- A list with the effect that each index was handed out for, as long as it has not been freed. -/
structure EffectLedger where
  list : EffectList
  owner : UInt8 → Option UInt32

namespace EffectLedger

def empty : EffectLedger := ⟨EffectList.empty, fun _ => none⟩

/-- An index that an addition returns is handed out, and one that is not in use any more was freed. -/
def after (ledger : EffectLedger) (call : EffectCall) : EffectLedger :=
  let list := ledger.list.after call
  match call with
  | .add effect =>
    let index := (ledger.list.add effect).1
    ⟨list, if index = 0 then ledger.owner else Function.update ledger.owner index (some effect)⟩
  | _ => ⟨list, fun index => if index ∈ list.usedIndexes then ledger.owner index else none⟩

abbrev step (ledger : EffectLedger) (call : EffectCall) : Option EffectLedger := some (ledger.after call)

/--
Every index in use belongs to exactly one entry of the map, and the removal of an effect frees
every index that was handed out for it.
-/
def Balanced (ledger : EffectLedger) : Prop :=
  (∀ index ∈ ledger.list.usedIndexes,
    ∃! effect : UInt32, ledger.list.indexByEffect[effect]? = some index) ∧
  ∀ effect index, ledger.owner index = some effect →
    index ∉ (ledger.list.remove effect).2.usedIndexes

/-- A call does not add an effect that has an index already, unless there is no index left. -/
def NotAgain (ledger : EffectLedger) (call : EffectCall) : Prop :=
  ∀ effect, call = .add effect → ledger.list.indexByEffect[effect]? = none ∨ ledger.list.Full

/-- What is true of every ledger, balanced or not. -/
structure Sound (ledger : EffectLedger) : Prop where
  parts : ledger.list.Partitioned
  entered : ∀ effect index, ledger.list.indexByEffect[effect]? = some index →
    ledger.owner index = some effect
  owned : ∀ index, index ∈ ledger.list.usedIndexes ↔ ∃ effect, ledger.owner index = some effect

theorem sound_empty : empty.Sound where
  parts := EffectList.partitioned_empty
  entered := by simp [empty, EffectList.empty]
  owned := by simp [empty, EffectList.empty]

variable {ledger : EffectLedger}

theorem Sound.distinct (sound : ledger.Sound) : ledger.list.Distinct := by
  intro first second index one two
  have same := (sound.entered first index one).symm.trans (sound.entered second index two)
  exact Option.some.inj same

theorem Sound.used (sound : ledger.Sound) {effect : UInt32} {index : UInt8}
    (found : ledger.list.indexByEffect[effect]? = some index) : index ∈ ledger.list.usedIndexes :=
  (sound.owned index).mpr ⟨effect, sound.entered effect index found⟩

theorem Sound.nodup (sound : ledger.Sound) : ledger.list.usedIndexes.Nodup := by
  obtain ⟨count, few, perm⟩ := sound.parts
  exact (List.nodup_append.mp (perm.nodup_iff.mpr (EffectList.upTo_nodup few))).1

/-- A sound ledger is balanced where the map has every index under the effect that owns it. -/
theorem Sound.balanced_iff (sound : ledger.Sound) :
    ledger.Balanced ↔ ∀ effect index, ledger.owner index = some effect →
      ledger.list.indexByEffect[effect]? = some index := by
  -- An effect with two indices has an entry for one of them only.
  constructor
  · intro balanced effect index owned
    obtain ⟨other, found, -⟩ := balanced.1 index ((sound.owned index).mpr ⟨effect, owned⟩)
    have same : other = effect := Option.some.inj ((sound.entered other index found).symm.trans owned)
    exact same ▸ found
  · intro entered
    constructor
    · intro index used
      obtain ⟨effect, owned⟩ := (sound.owned index).mp used
      refine ⟨effect, entered effect index owned, fun other found => ?_⟩
      exact sound.distinct other effect index found (entered effect index owned)
    · intro effect index owned
      have found := entered effect index owned
      have frees := EffectList.remove_frees sound.distinct found (sound.used found)
      exact (List.nodup_cons.mp (frees.used.nodup_iff.mp sound.nodup)).1

/-- The ledger that is left when an index has been freed. -/
def freed (ledger : EffectLedger) (list : EffectList) : EffectLedger :=
  ⟨list, fun index => if index ∈ list.usedIndexes then ledger.owner index else none⟩

theorem Sound.freed (sound : ledger.Sound) {index : UInt8} {list : EffectList}
    (parts : list.Partitioned) (frees : ledger.list.Frees index list) : (ledger.freed list).Sound where
  -- Exactly the entries of the freed index are gone.
  parts := parts
  entered := by
    intro effect other found
    change list.indexByEffect[effect]? = some other at found
    rw [frees.entries] at found
    split at found
    · cases found
    · rename_i different
      have owned := sound.entered effect other found
      have used := frees.used.mem_iff.mp (sound.used found)
      have kept : other ∈ list.usedIndexes := by
        rcases List.mem_cons.mp used with same | kept
        · exact absurd (same ▸ found) different
        · exact kept
      exact (if_pos kept).trans owned
  owned := by
    intro other
    change other ∈ list.usedIndexes ↔ ∃ effect, (if other ∈ list.usedIndexes then _ else none) = _
    constructor
    · intro kept
      obtain ⟨effect, owned⟩ :=
        (sound.owned other).mp (frees.used.mem_iff.mpr (List.mem_cons_of_mem _ kept))
      exact ⟨effect, (if_pos kept).trans owned⟩
    · rintro ⟨effect, owned⟩
      by_contra gone
      rw [if_neg gone] at owned
      cases owned

theorem Sound.balanced_freed (sound : ledger.Sound) {index : UInt8} {list : EffectList}
    (parts : list.Partitioned) (frees : ledger.list.Frees index list) (balanced : ledger.Balanced) :
    (ledger.freed list).Balanced := by
  -- All other effects keep their entries.
  rw [(sound.freed parts frees).balanced_iff]
  intro effect other owned
  change (if other ∈ list.usedIndexes then ledger.owner other else none) = some effect at owned
  split at owned
  · rename_i kept
    have found := sound.balanced_iff.mp balanced effect other owned
    have different : other ≠ index := fun same =>
      (List.nodup_cons.mp (frees.used.nodup_iff.mp sound.nodup)).1 (same ▸ kept)
    change list.indexByEffect[effect]? = some other
    rw [frees.entries, if_neg fun same => different (Option.some.inj (found.symm.trans same)), found]
  · cases owned

/-- A ledger whose list does not change does not change. -/
theorem Sound.freed_same (sound : ledger.Sound) : ledger.freed ledger.list = ledger := by
  -- No index without an owner is in use, so nothing is taken away.
  obtain ⟨list, owner⟩ := ledger
  simp only [EffectLedger.freed, mk.injEq, true_and]
  funext index
  split
  · rfl
  · rename_i unused
    cases owned : owner index with
    | none => rfl
    | some effect => exact absurd ((sound.owned index).mpr ⟨effect, owned⟩) unused

/-- A call frees an index or changes nothing, or it adds an effect while there is an index left. -/
theorem Sound.after_cases (sound : ledger.Sound) (call : EffectCall) :
    (ledger.NotAgain call ∧ (ledger.after call = ledger ∨ ∃ index list, list.Partitioned ∧
      ledger.list.Frees index list ∧ ledger.after call = ledger.freed list)) ∨
    ∃ effect, call = .add effect ∧ ¬ ledger.list.Full := by
  -- A full list refuses, and an unknown effect or index is ignored.
  cases call with
  | add effect =>
    rcases sound.parts.add_cases effect with ⟨full, same⟩ | ⟨room, -⟩
    · refine .inl ⟨fun _ _ => .inr full, .inl ?_⟩
      simp only [EffectLedger.after, EffectList.after, same, if_true]
    · exact .inr ⟨effect, rfl, room⟩
  | remove effect =>
    refine .inl ⟨fun _ other => (by cases other), ?_⟩
    cases found : ledger.list.indexByEffect[effect]? with
    | none =>
      left
      have same : (ledger.list.remove effect).2 = ledger.list := by
        simp only [EffectList.remove, found]
      simp only [EffectLedger.after, EffectList.after, same]
      exact sound.freed_same
    | some index =>
      exact .inr ⟨index, _, sound.parts.remove effect,
        EffectList.remove_frees sound.distinct found (sound.used found), rfl⟩
  | removeByIndex index =>
    refine .inl ⟨fun _ other => (by cases other), ?_⟩
    by_cases used : index ∈ ledger.list.usedIndexes
    · exact .inr ⟨index, _, sound.parts.removeByIndex index,
        EffectList.removeByIndex_frees sound.distinct used, rfl⟩
    · left
      simp only [EffectLedger.after, EffectList.after, EffectList.removeByIndex_other used]
      exact sound.freed_same

section Add

variable {effect : UInt32}

/-- Where there is an index left, an addition hands out a fresh one. -/
theorem after_add (parts : ledger.list.Partitioned) (room : ¬ ledger.list.Full) :
    ∃ index, index ∉ ledger.list.usedIndexes ∧
      (ledger.after (.add effect)).owner = Function.update ledger.owner index (some effect) ∧
      (ledger.after (.add effect)).list.usedIndexes = ledger.list.usedIndexes ++ [index] ∧
      (ledger.after (.add effect)).list.indexByEffect =
        ledger.list.indexByEffect.insert effect index := by
  rcases parts.add_cases effect with ⟨full, -⟩ | ⟨-, real, fresh, used, entered⟩
  · exact absurd full room
  · exact ⟨_, fresh, if_neg real, used, entered⟩

theorem Sound.add (sound : ledger.Sound) (room : ¬ ledger.list.Full) :
    (ledger.after (.add effect)).Sound := by
  -- The index is fresh, so no older entry points to it.
  obtain ⟨index, fresh, owner, used, entered⟩ := after_add sound.parts room
  refine ⟨sound.parts.after _, fun other held found => ?_, fun other => ?_⟩
  · rw [entered, OrderedMap.lookup_insert] at found
    rw [owner]
    split at found
    · rename_i same
      rw [← Option.some.inj found, Function.update_self, same]
    · have different : held ≠ index := fun same => fresh (same ▸ sound.used found)
      rw [Function.update_of_ne different]
      exact sound.entered other held found
  · rw [owner, used, List.mem_append, List.mem_singleton]
    by_cases same : other = index
    · simp [same]
    · rw [Function.update_of_ne same, ← sound.owned other]
      simp [same]

/-- A ledger stays balanced as long as the effect has no index yet. -/
theorem Sound.balanced_add (sound : ledger.Sound) (room : ¬ ledger.list.Full)
    (balanced : ledger.Balanced) : (ledger.after (.add effect)).Balanced ↔
      ledger.list.indexByEffect[effect]? = none := by
  rw [(sound.add room).balanced_iff]
  rw [sound.balanced_iff] at balanced
  obtain ⟨index, fresh, owner, used, entered⟩ := @after_add ledger effect sound.parts room
  rw [owner, entered]
  constructor
  · -- The index that the effect has had is owned, and has lost its entry.
    intro all
    by_contra some_index
    obtain ⟨old, found⟩ := Option.ne_none_iff_exists'.mp some_index
    have different : old ≠ index := fun same => fresh (same ▸ sound.used found)
    have lost := all effect old (by
      rw [Function.update_of_ne different]
      exact sound.entered effect old found)
    rw [OrderedMap.lookup_insert, if_pos rfl] at lost
    exact different (Option.some.inj lost).symm
  · intro absent other held owned
    rw [OrderedMap.lookup_insert]
    by_cases new : held = index
    · subst new
      rw [Function.update_self] at owned
      rw [if_pos (Option.some.inj owned)]
    · rw [Function.update_of_ne new] at owned
      have found := balanced other held owned
      have different : effect ≠ other := by
        rintro rfl
        rw [absent] at found
        cases found
      rw [if_neg different, found]

end Add

theorem Sound.after (sound : ledger.Sound) (call : EffectCall) : (ledger.after call).Sound := by
  rcases sound.after_cases call with ⟨-, same | ⟨index, list, parts, frees, same⟩⟩ | ⟨effect, rfl, room⟩
  · rw [same]
    exact sound
  · rw [same]
    exact sound.freed parts frees
  · exact sound.add room

/-- A call leaves a balanced ledger balanced if it does not add an effect again. -/
theorem Sound.balanced_after (sound : ledger.Sound) (balanced : ledger.Balanced) (call : EffectCall) :
    (ledger.after call).Balanced ↔ ledger.NotAgain call := by
  -- Only adding an effect a second time loses the entry of its first index.
  rcases sound.after_cases call with ⟨other, same | ⟨index, list, parts, frees, same⟩⟩ |
    ⟨effect, rfl, room⟩
  · rw [same]
    exact iff_of_true balanced other
  · rw [same]
    exact iff_of_true (sound.balanced_freed parts frees balanced) other
  · rw [sound.balanced_add room balanced]
    constructor
    · intro absent again same
      cases same
      exact .inl absent
    · intro once
      exact (once effect rfl).resolve_right room

/--
A list of effects is balanced wherever its calls have led exactly if no effect is added again
while it has an index, unless there is no index left.
-/
theorem balanced_iff_notAgain (calls : List EffectCall) :
    (∀ front, front <+: calls → (Runs.final step empty front).Balanced) ↔
      Runs.Along step NotAgain empty calls := by
  -- One step keeps the balance exactly if it adds nothing again.
  have start : empty.Balanced := by
    rw [sound_empty.balanced_iff]
    intro effect index owned
    cases owned
  refine (Runs.Along.iff_final (fun ledger call next sound _ taken => ?_) (fun _ _ refused => ?_)
    (fun ledger call next sound balanced taken => ?_) calls sound_empty start).symm
  · exact Option.some.inj taken ▸ sound.after call
  · cases refused
  · exact Option.some.inj taken ▸ sound.balanced_after balanced call

/-- An effect that is added twice keeps its first index for ever. -/
theorem not_balanced : ¬ ∀ calls : List EffectCall, (Runs.final step empty calls).Balanced := by
  intro always
  have balanced := always [.add 7, .add 7]
  -- The removal of the effect frees only the second of its indices.
  exact balanced.2 7 1 (by decide) (by decide)

end EffectLedger
end Recap.Game
