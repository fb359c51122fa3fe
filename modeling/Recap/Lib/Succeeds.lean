import Mathlib

/-! The condition under which a computation that may fail returns a value. -/

namespace Recap

variable {ε α β : Type}

/-- Whether a computation returns a value exactly under a condition. -/
def Succeeds (outcome : Except ε α) (condition : Prop) : Prop :=
  (∃ value, outcome = .ok value) ↔ condition

namespace Succeeds

theorem ok (value : α) : Succeeds (.ok value : Except ε α) True := iff_of_true ⟨value, rfl⟩ trivial

theorem error (fault : ε) : Succeeds (.error fault : Except ε α) False := by
  refine iff_of_false ?_ not_false
  intro ⟨value, returned⟩
  cases returned

/-- Conditions may be put in other words. -/
theorem iff {outcome : Except ε α} {condition other : Prop} (succeeds : Succeeds outcome condition)
    (same : condition ↔ other) : Succeeds outcome other :=
  Iff.trans succeeds same

/-- A sequence succeeds where its first part does, and then its second part on what that returned. -/
theorem andThen {first : Except ε α} {next : α → Except ε β} {later : α → Prop}
    (behind : ∀ value, first = .ok value → Succeeds (next value) (later value)) :
    Succeeds (first >>= next) (∃ value, first = .ok value ∧ later value) := by
  cases first with
  | error fault =>
    refine (error fault).iff (iff_of_false not_false ?_)
    intro ⟨value, returned, _⟩
    cases returned
  | ok value =>
    refine (behind value rfl).iff ?_
    constructor
    · intro holds
      exact ⟨value, rfl, holds⟩
    · intro ⟨other, same, holds⟩
      cases same
      exact holds

/-- What the first part returned often makes no difference to whether the second part succeeds. -/
theorem bind {first : Except ε α} {next : α → Except ε β} {condition later : Prop}
    (before : Succeeds first condition) (behind : ∀ value, Succeeds (next value) later) :
    Succeeds (first >>= next) (condition ∧ later) := by
  refine (andThen fun value _ => behind value).iff ?_
  rw [exists_and_right]
  exact and_congr_left fun _ => before

/-- A last part that cannot fail makes no difference. -/
theorem map {first : Except ε α} {condition : Prop} (before : Succeeds first condition)
    (change : α → β) : Succeeds (first >>= fun value => .ok (change value)) condition :=
  (before.bind fun value => ok (change value)).iff (iff_of_eq (and_true condition))

/-- A loop over a list succeeds where each of its rounds does. -/
theorem each {items : List α} {body : α → Except ε β} {condition : α → Prop}
    (round : ∀ item, Succeeds (body item) (condition item)) :
    Succeeds (items.mapM body) (∀ item ∈ items, condition item) := by
  induction items with
  | nil => exact (ok []).iff (by simp)
  | cons item rest ih =>
    rw [List.mapM_cons, List.forall_mem_cons]
    exact (round item).bind fun value => ih.map fun values => value :: values

end Succeeds
end Recap
