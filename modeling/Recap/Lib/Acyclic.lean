import Mathlib

/-! Ranks along a relation without cycles. -/

namespace Recap.Acyclic

open Relation

variable {α : Type*} {related : α → α → Prop} {targets : Set α}

/-- What a relation leads to from one place in some steps. -/
def Reached (related : α → α → Prop) (start : α) : Set α :=
  {place | TransGen related start place}

theorem reached_subset (into : ∀ first last, related first last → last ∈ targets) (start : α) :
    Reached related start ⊆ targets := by
  -- The last step of a path is a step of the relation.
  intro place path
  cases path with
  | single step => exact into start place step
  | tail _ step => exact into _ place step

/-- Without cycles, every step leaves fewer places to reach. -/
theorem reached_ssubset (acyclic : ∀ place, ¬ TransGen related place place) {first last : α}
    (step : related first last) : Reached related last ⊂ Reached related first := by
  refine ⟨fun place path => TransGen.head step path, fun all => ?_⟩
  -- The place that the step leads to is not reached from itself.
  exact acyclic last (all (TransGen.single step))

/-- A relation without cycles that leads into a finite set has ranks that go down along it. -/
theorem exists_rank (finite : targets.Finite) (into : ∀ first last, related first last → last ∈ targets)
    (acyclic : ∀ place, ¬ TransGen related place place) :
    ∃ rank : α → Nat, (∀ place, rank place ≤ targets.ncard) ∧
      ∀ first last, related first last → rank last < rank first := by
  refine ⟨fun place => (Reached related place).ncard, fun place => ?_, fun first last step => ?_⟩
  · exact Set.ncard_le_ncard (reached_subset into place) finite
  · exact Set.ncard_lt_ncard (reached_ssubset acyclic step) (finite.subset (reached_subset into first))

end Recap.Acyclic
