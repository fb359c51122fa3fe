import Recap.Game.AttributesSync

/-! What an attribute reads as, and what is pending for it, after all calls that came before. -/

namespace Recap.Game.Attributes

variable {Value : Type} [Zero Value] [DecidableEq Value]

/-- A call that changes attributes. -/
inductive Call (Value : Type) where
  | setValue (idx : UInt8) (value : Value)
  | resetReflectionBits
  deriving DecidableEq

/-- One call, or nothing where it erases the end iterator. -/
def call (a : Attributes Value) : Call Value → Option (Attributes Value)
  | .setValue idx value => a.setValue idx value
  | .resetReflectionBits => some a.resetReflectionBits

section History

variable (idx : UInt8)

/-- The value that an attribute was set to last, or zero. The latest call comes first. -/
def lastSet : List (Call Value) → Value
  | [] => 0
  | .setValue other value :: past => if other = idx then value else lastSet past
  | .resetReflectionBits :: past => lastSet past

omit [Zero Value] [DecidableEq Value] in
/-- Whether an attribute was set since the last reset. -/
def touched : List (Call Value) → Bool
  | [] => false
  | .setValue other _ :: past => other = idx || touched past
  | .resetReflectionBits :: _ => false

/-- Whether an attribute was zero at the last reset, was set since then, and was only set to zero. -/
def onlyZeroed : List (Call Value) → Bool
  | [] => false
  | .setValue other value :: past =>
    if other = idx then
      value = 0 && (onlyZeroed past || !touched idx past && lastSet idx past = 0)
    else onlyZeroed past
  | .resetReflectionBits :: _ => false

end History

/-- Attributes with the calls that made them what they are, the latest one first. -/
abbrev Recorded (Value : Type) := Attributes Value × List (Call Value)

/-- A call on the attributes is added to those that were made. -/
def record (s : Recorded Value) (input : Call Value) : Option (Recorded Value) := do
  return (← s.1.call input, input :: s.2)

/-- What the calls say about attributes and what is pending for them. -/
structure Told (s : Recorded Value) : Prop where
  consistent : s.1.Consistent
  client : ∀ entry ∈ s.1.data, entry.1 < clientCount
  marked : ∀ idx ∈ s.1.erasedData, s.1.dataBits idx = true
  values : ∀ idx < clientCount, s.1.getValue idx = lastSet idx s.2
  bits : ∀ idx < clientCount, s.1.dataBits idx = touched idx s.2
  pending : ∀ idx < clientCount, s.1.getValue idx = 0 →
    (idx ∈ s.1.erasedData ↔ s.1.dataBits idx = true ∧ onlyZeroed idx s.2 = false)

omit [DecidableEq Value] in
/-- An attribute is absent exactly when it reads as zero. -/
theorem find_eq_none_iff {a : Attributes Value} (consistent : a.Consistent) {idx : UInt8} :
    a.find idx = none ↔ a.getValue idx = 0 := by
  constructor
  · intro absent
    exact getValue_absent (find_eq_none.mp absent)
  · intro zero
    -- A stored value is not zero.
    refine find_eq_none.mpr fun entry member same => ?_
    apply consistent.nonzero entry member
    rw [← getValue_mem consistent.sorted member, same, zero]

theorem told_empty : Told ((empty, []) : Recorded Value) where
  consistent := ⟨List.Pairwise.nil, by simp [empty], List.nodup_nil, by simp [empty]⟩
  client := by simp [empty]
  marked := by simp [empty]
  values := fun _ _ => rfl
  bits := fun _ _ => rfl
  pending := by simp [empty]

/-- After a reset nothing is pending, and nothing was set since. -/
theorem Told.reset {s : Recorded Value} (told : Told s) :
    Told (s.1.resetReflectionBits, .resetReflectionBits :: s.2) where
  consistent := ⟨told.consistent.sorted, told.consistent.nonzero, List.nodup_nil,
    fun _ _ => List.not_mem_nil⟩
  client := told.client
  marked := fun _ impossible => absurd impossible List.not_mem_nil
  values := told.values
  bits := fun _ _ => rfl
  pending := by simp [resetReflectionBits]

/-- An attribute that was only set to zero was set. -/
theorem touched_of_onlyZeroed {idx : UInt8} {past : List (Call Value)}
    (only : onlyZeroed idx past = true) : touched idx past = true := by
  induction past with
  | nil => exact only
  | cons input past ih =>
    cases input with
    | resetReflectionBits => exact only
    | setValue other value =>
      by_cases same : other = idx
      · simp [touched, same]
      · simp only [onlyZeroed, same, if_false] at only
        simp [touched, ih only]

/-- An attribute that was only set to zero is zero. -/
theorem lastSet_of_onlyZeroed {idx : UInt8} {past : List (Call Value)}
    (only : onlyZeroed idx past = true) : lastSet idx past = 0 := by
  induction past with
  | nil => rfl
  | cons input past ih =>
    cases input with
    | resetReflectionBits => simp [onlyZeroed] at only
    | setValue other value =>
      by_cases same : other = idx
      · simp only [onlyZeroed, same, if_true, Bool.and_eq_true, decide_eq_true_eq] at only
        simp [lastSet, same, only.1]
      · simp only [onlyZeroed, same, if_false] at only
        simp [lastSet, same, ih only]

/-- Setting an attribute that clients are sent keeps to what the calls say. -/
theorem Told.set {s : Recorded Value} (told : Told s) {idx : UInt8} (client : idx < clientCount)
    {value : Value} {after : Attributes Value} (set : s.1.setValue idx value = some after) :
    Told (after, .setValue idx value :: s.2) := by
  obtain ⟨sets, bits⟩ := setValue_sets told.consistent told.marked client set
  have values := sets.values told.consistent
  refine ⟨sets.consistent told.consistent, sets.client client told.client,
    sets.marked bits told.marked, ?_, ?_, ?_⟩
  · intro other below
    rw [values]
    by_cases same : other = idx
    · simp [lastSet, same]
    · simp [lastSet, same, Ne.symm same, told.values other below]
  · intro other below
    rw [bits]
    by_cases same : other = idx
    · simp [touched, same]
    · simp [touched, Function.update_of_ne same, Ne.symm same, told.bits other below]
  · intro other below zero
    rw [sets.erased, bits]
    rw [values] at zero
    by_cases same : other = idx
    · -- What was stored is erased now, and what was not is as it was before.
      subst same
      simp only [if_true] at zero
      have stored : (∃ entry ∈ s.1.data, entry.1 = other) ↔ s.1.getValue other ≠ 0 := by
        rw [ne_eq, ← find_eq_none_iff told.consistent, find_eq_none]
        push Not
        exact Iff.rfl
      have pending := told.pending other below
      rw [told.values other below, told.bits other below] at pending
      have erased_bits : other ∈ s.1.erasedData → touched other s.2 = true := by
        rw [← told.bits other below]
        exact told.marked other
      have zeroed := @lastSet_of_onlyZeroed _ _ _ other s.2
      simp only [if_true, zero, true_and, stored, told.values other below, Function.update_self,
        onlyZeroed, decide_true, Bool.true_and, Bool.or_eq_false_iff, Bool.and_eq_false_iff,
        Bool.not_eq_false', decide_eq_false_iff_not]
      by_cases nothing : lastSet other s.2 = 0
      · rw [pending nothing]
        simp [nothing]
        tauto
      · have never : onlyZeroed other s.2 = false :=
          Bool.eq_false_iff.mpr fun only => nothing (zeroed only)
        simp [nothing, never]
    · rw [if_neg same] at zero
      rw [if_neg same, Function.update_of_ne same, told.pending other below zero]
      simp [onlyZeroed, Ne.symm same]

/-- Setting any other attribute changes nothing. -/
theorem Told.ignored {s : Recorded Value} (told : Told s) {idx : UInt8} (beyond : ¬ idx < clientCount)
    (value : Value) : Told (s.1, .setValue idx value :: s.2) := by
  have other (sent : UInt8) (below : sent < clientCount) : idx ≠ sent := fun same =>
    beyond (same ▸ below)
  refine ⟨told.consistent, told.client, told.marked, fun sent below => ?_, fun sent below => ?_,
    fun sent below zero => ?_⟩
  · simp [lastSet, other sent below, told.values sent below]
  · simp [touched, other sent below, told.bits sent below]
  · simp [onlyZeroed, other sent below, told.pending sent below zero]

/-- Every call keeps to what the calls say. -/
theorem told_kept : Runs.Kept (@record Value _ _) Told := by
  intro s input after told taken
  obtain ⟨attributes, called, rfl⟩ : ∃ attributes, s.1.call input = some attributes ∧
      after = (attributes, input :: s.2) := by
    obtain ⟨attributes, called, same⟩ := Option.bind_eq_some_iff.mp taken
    exact ⟨attributes, called, (Option.some.inj same).symm⟩
  cases input with
  | resetReflectionBits =>
    rw [← Option.some.inj called]
    exact told.reset
  | setValue idx value =>
    by_cases client : idx < clientCount
    · exact told.set client called
    · have unchanged : s.1.setValue idx value = some s.1 := if_neg client
      rw [call, unchanged] at called
      rw [← Option.some.inj called]
      exact told.ignored client value

/-- Setting the attribute takes it out of those that became zero. -/
def Unerases (a : Attributes Value) (idx : UInt8) (value : Value) : Prop :=
  idx < clientCount ∧ a.find idx = none ∧ value ≠ 0 ∧ a.dataBits idx = true

/-- What is taken out is missing exactly if it was only set to zero since the last reset. -/
theorem Told.unerases_iff {s : Recorded Value} (told : Told s) (idx : UInt8) (value : Value) :
    (Unerases s.1 idx value → idx ∈ s.1.erasedData) ↔
      (idx < clientCount → value ≠ 0 → onlyZeroed idx s.2 = false) := by
  constructor
  · intro safe client nonzero
    by_contra only
    rw [Bool.not_eq_false] at only
    have zero : s.1.getValue idx = 0 := by rw [told.values idx client, lastSet_of_onlyZeroed only]
    have marked : s.1.dataBits idx = true := by rw [told.bits idx client, touched_of_onlyZeroed only]
    -- The attribute is absent, so it would have to be among the erased ones.
    have erased := safe ⟨client, (find_eq_none_iff told.consistent).mpr zero, nonzero, marked⟩
    rw [((told.pending idx client zero).mp erased).2] at only
    cases only
  · intro history unerases
    obtain ⟨client, absent, nonzero, marked⟩ := unerases
    apply (told.pending idx client ((find_eq_none_iff told.consistent).mp absent)).mpr
    exact ⟨marked, history client nonzero⟩

/--
`SetValue` never erases the end iterator exactly when no attribute is set to another value than zero
after it was zero and was set to zero, and to nothing else, since the last reset.
-/
theorem eraseSafe_iff (calls : List (Call Value)) :
    Runs.Along record (fun s input => ∀ idx value, input = .setValue idx value →
        Unerases s.1 idx value → idx ∈ s.1.erasedData) (empty, []) calls ↔
      Runs.Along record (fun s input => ∀ idx value, input = .setValue idx value →
        idx < clientCount → value ≠ 0 → onlyZeroed idx s.2 = false) (empty, []) calls := by
  refine told_kept.along_congr (fun s input told => ?_) calls told_empty
  exact forall_congr' fun idx => forall_congr' fun value => imp_congr_right fun _ =>
    told.unerases_iff idx value

/-- Zero and then one: the first call marks the attribute without adding it to the erased ones. -/
theorem not_eraseSafe :
    ¬ ∀ calls : List (Call ℤ), Runs.Along record (fun s input => ∀ idx value,
      input = .setValue idx value → Unerases s.1 idx value → idx ∈ s.1.erasedData) (empty, []) calls := by
  intro safe
  have run := safe [.setValue 0 0, .setValue 0 1]
  have erased := (run.2 (⟨[], [], Function.update (fun _ => false) 0 true, 0, 0⟩, [.setValue 0 0])
    rfl).1 0 1 rfl ⟨by decide, rfl, by decide, by simp⟩
  exact List.not_mem_nil erased

section Reading

/-- Calls that do not erase the end iterator return. -/
theorem setValue_isSome {a : Attributes Value} {idx : UInt8} {value : Value} :
    (∃ after, a.setValue idx value = some after) ↔ (Unerases a idx value → idx ∈ a.erasedData) := by
  unfold setValue Unerases
  by_cases client : idx < clientCount
  · cases found : a.find idx with
    | some entry =>
      by_cases zero : value = 0
      · simp [client, zero]
      · simp [client, zero]
    | none =>
      by_cases zero : value = 0
      · simp [client, zero]
      · cases marks : a.dataBits idx with
        | true =>
          by_cases pending : idx ∈ a.erasedData
          · simp [client, zero, pending]
          · simp [client, zero, pending]
        | false => simp [client, zero]
  · simp [client]

/-- Beyond what clients are sent, no attribute was ever set to another value than zero. -/
def Unset (s : Recorded Value) : Prop :=
  ∀ idx, ¬ idx < clientCount → lastSet idx s.2 = 0

/-- Attributes that clients are not sent read as zero. -/
theorem Told.getValue_beyond {s : Recorded Value} (told : Told s) {idx : UInt8}
    (beyond : ¬ idx < clientCount) : s.1.getValue idx = 0 :=
  getValue_absent fun entry member same => beyond (same ▸ told.client entry member)

/-- A call returns with every attribute reading as it was set last. -/
def ReadsLastSet (s : Recorded Value) (input : Call Value) : Prop :=
  ∃ after, s.1.call input = some after ∧ ∀ idx, after.getValue idx = lastSet idx (input :: s.2)

/-- A call sets no attribute that is not stored, and does not erase the end iterator. -/
def Stores (s : Recorded Value) (input : Call Value) : Prop :=
  ∀ idx value, input = .setValue idx value →
    (idx < clientCount → value ≠ 0 → onlyZeroed idx s.2 = false) ∧
      (¬ idx < clientCount → value = 0)

/-- What reads as it was set last, before and after a call, says whether the call stores. -/
theorem Told.reads_iff {s : Recorded Value} (told : Told s) (unset : Unset s)
    (input : Call Value) : ReadsLastSet s input ↔ Stores s input := by
  cases input with
  | resetReflectionBits =>
    refine iff_of_true ⟨_, rfl, fun idx => ?_⟩ fun _ _ impossible => by cases impossible
    by_cases client : idx < clientCount
    · exact told.values idx client
    · exact (told.getValue_beyond client).trans (unset idx client).symm
  | setValue idx value =>
    constructor
    · intro reads other value' same
      obtain ⟨rfl, rfl⟩ := Call.setValue.inj same
      obtain ⟨after, called, values⟩ := reads
      refine ⟨(told.unerases_iff idx value).mp (setValue_isSome.mp ⟨after, called⟩), fun beyond => ?_⟩
      -- The call has changed nothing, so the attribute still reads as zero.
      have unchanged : s.1.setValue idx value = some s.1 := if_neg beyond
      rw [call, unchanged] at called
      have now := values idx
      rw [← Option.some.inj called, told.getValue_beyond beyond] at now
      simpa [lastSet] using now.symm
    · intro stores
      obtain ⟨fresh, ignored⟩ := stores idx value rfl
      obtain ⟨after, called⟩ := setValue_isSome.mpr ((told.unerases_iff idx value).mpr fresh)
      have taken : record s (.setValue idx value) = some (after, .setValue idx value :: s.2) := by
        rw [record, call, called]
        rfl
      have later := told_kept _ _ _ told taken
      refine ⟨after, called, fun other => ?_⟩
      by_cases client : other < clientCount
      · exact later.values other client
      · rw [later.getValue_beyond client]
        by_cases same : idx = other
        · subst same
          simp [lastSet, ignored client]
        · simp [lastSet, same, unset other client]

/--
Every attribute reads as it was set last, after every call, exactly when no call sets an attribute
that clients are not sent to another value than zero, or erases the end iterator.
-/
theorem readsLastSet_iff (calls : List (Call Value)) :
    Runs.Along record ReadsLastSet (empty, []) calls ↔ Runs.Along record Stores (empty, []) calls := by
  refine @Runs.Along.congr _ _ _ (fun s => Told s ∧ Unset s) _ _ (fun s input next both reads taken => ?_)
    (fun s input both => both.1.reads_iff both.2 input) calls _ ⟨told_empty, fun _ _ => rfl⟩
  have later := told_kept _ _ _ both.1 taken
  refine ⟨later, fun idx beyond => ?_⟩
  obtain ⟨after, called, values⟩ := reads
  rw [record, called] at taken
  -- The next state is the one that the call was read in.
  have same : next = (after, input :: s.2) := (Option.some.inj taken).symm
  rw [same] at later ⊢
  rw [← values idx, later.getValue_beyond beyond]

/-- `AttributeType::DistributeDamageAmongSquad`, which is not sent to clients. -/
def distributeDamageAmongSquad : UInt8 := 113

/-- An attribute that clients are not sent reads as zero after it was set to one. -/
theorem not_readsLastSet :
    ¬ ∀ calls : List (Call ℤ), Runs.Along record ReadsLastSet (empty, []) calls := by
  intro reads
  obtain ⟨after, called, values⟩ := (reads [.setValue distributeDamageAmongSquad 1]).1
  cases Option.some.inj called
  have now := values distributeDamageAmongSquad
  simp [lastSet, getValue, find, empty] at now

end Reading

end Recap.Game.Attributes
