import Mathlib

/-! A record whose changed fields are told to a copy from time to time. -/

namespace Recap

/--
A record, the fields that are still to be told, and what its copy has been told.

Beside them stand the fields that were marked since the copy was begun.
-/
structure Tracked {Field : Type} (Value : Field → Type) where
  value : ∀ field, Value field
  dirty : Finset Field
  copy : ∀ field, Option (Value field)
  since : Finset Field

namespace Tracked

variable {Field : Type} [DecidableEq Field] {Value : Field → Type} (record : Tracked Value)

/-- The record is another one, and some of its fields are marked. -/
def change (value : ∀ field, Value field) (marked : Finset Field) : Tracked Value :=
  { record with
    value
    dirty := record.dirty ∪ marked
    since := record.since ∪ marked }

/-- The copy is told all fields that are marked. -/
def tell : Tracked Value :=
  { record with
    dirty := ∅
    copy := fun field =>
      if field ∈ record.dirty then some (record.value field) else record.copy field }

/-- There is a new copy, which has been told nothing. -/
def renew : Tracked Value := { record with copy := fun _ => none, since := ∅ }

/-- The copy has the value of every field that was marked for it and is not still to be told. -/
def UpToDate : Prop :=
  ∀ field ∈ record.since, field ∉ record.dirty → record.copy field = some (record.value field)

variable {record}

/-- A change keeps the copy up to date exactly when it marks whatever the copy would miss. -/
theorem UpToDate.change_iff (upToDate : record.UpToDate) {value : ∀ field, Value field}
    {marked : Finset Field} :
    (record.change value marked).UpToDate ↔
      ∀ field ∈ record.since, field ∉ record.dirty → field ∉ marked →
        value field = record.value field := by
  constructor
  · intro after field known clean unmarked
    have copied := after field (Finset.mem_union_left _ known)
      (by simp [change, clean, unmarked])
    -- The copy is what it was, and that was the value before the change.
    rw [change, upToDate field known clean] at copied
    exact (Option.some_inj.mp copied).symm
  · intro missed field known clean
    obtain ⟨wasClean, unmarked⟩ := not_or.mp (mt Finset.mem_union.mpr clean)
    have wasKnown := (Finset.mem_union.mp known).resolve_right unmarked
    change record.copy field = some (value field)
    rw [missed field wasKnown wasClean unmarked]
    exact upToDate field wasKnown wasClean

/-- Telling brings the copy up to date with what was marked. -/
theorem UpToDate.tell (upToDate : record.UpToDate) : record.tell.UpToDate := by
  intro field known _
  unfold Tracked.tell
  by_cases dirty : field ∈ record.dirty
  · simp [dirty]
  · simp only [if_neg dirty]
    exact upToDate field known dirty

omit [DecidableEq Field] in
/-- Nothing was marked for a new copy yet. -/
theorem renew_upToDate (record : Tracked Value) : record.renew.UpToDate := by
  intro field known
  simp [renew] at known

end Tracked
end Recap
