import Mathlib

/-! Runs of a machine whose steps may be refused, and what holds at every step of a run. -/

namespace Recap.Runs

variable {State Input : Type*} {step : State → Input → Option State}

/--
Something holds of every step that a run takes.

The run ends at the end of its inputs or at the first refused step, which still has to satisfy it.
-/
def Along (step : State → Input → Option State) (holds : State → Input → Prop) :
    State → List Input → Prop
  | _, [] => True
  | state, input :: rest =>
    holds state input ∧ ∀ next, step state input = some next → Along step holds next rest

/-- A run is judged step by step. -/
instance Along.decide (holds : State → Input → Prop)
    [∀ state input, Decidable (holds state input)] :
    ∀ (state : State) (inputs : List Input), Decidable (Along step holds state inputs)
  | _, [] => .isTrue trivial
  | state, input :: rest =>
    match taken : step state input with
    | none => decidable_of_iff (holds state input) (by simp [Along, taken])
    | some next =>
      have := Along.decide holds next rest
      decidable_of_iff (holds state input ∧ Along step holds next rest) (by simp [Along, taken])

/-- The state a run ends in, which is the last one before a refused step. -/
def final (step : State → Input → Option State) : State → List Input → State
  | state, [] => state
  | state, input :: rest =>
    match step state input with
    | some next => final step next rest
    | none => state

/-- A machine that refuses nothing takes its last input last. -/
theorem final_concat (next : State → Input → State) (state : State) (inputs : List Input)
    (last : Input) :
    final (fun state input => some (next state input)) state (inputs ++ [last]) =
      next (final (fun state input => some (next state input)) state inputs) last := by
  induction inputs generalizing state with
  | nil => rfl
  | cons input rest ih => exact ih (next state input)

/-- An invariant is kept by every step that is taken. -/
def Kept (step : State → Input → Option State) (invariant : State → Prop) : Prop :=
  ∀ state input next, invariant state → step state input = some next → invariant next

/-- A kept invariant holds where a run ends. -/
theorem Kept.final {invariant : State → Prop} (kept : Kept step invariant) (inputs : List Input)
    {state : State} (initially : invariant state) : invariant (Runs.final step state inputs) := by
  -- Each step that is taken hands the invariant on to the rest of the run.
  induction inputs generalizing state with
  | nil => exact initially
  | cons input rest ih =>
    unfold Runs.final
    split
    · rename_i next taken
      exact ih (kept _ _ _ initially taken)
    · exact initially

/-- An invariant that steps of one kind keep holds wherever a run of such steps ends. -/
theorem Along.final (invariant : State → Prop) {allowed : State → Input → Prop}
    (kept : ∀ state input next, invariant state → allowed state input → step state input = some next →
      invariant next) {inputs : List Input} {state : State} (initially : invariant state)
    (along : Along step allowed state inputs) : invariant (Runs.final step state inputs) := by
  -- Each step of the kind hands the invariant on to the rest of the run.
  induction inputs generalizing state with
  | nil => exact initially
  | cons input rest ih =>
    unfold Runs.final
    split
    · rename_i next taken
      exact ih (kept _ _ _ initially along.1 taken) (along.2 next taken)
    · exact initially

/-- What holds along a run holds along every beginning of it. -/
theorem Along.front {holds : State → Input → Prop} {front back : List Input} {state : State}
    (along : Along step holds state (front ++ back)) : Along step holds state front := by
  -- The beginning is taken step by step with the whole run.
  induction front generalizing state with
  | nil => trivial
  | cons input rest ih => exact ⟨along.1, fun next taken => ih (along.2 next taken)⟩

/-- A run that goes on goes on from where it has come to, unless a step was refused before. -/
theorem Along.back {holds : State → Input → Prop} {front back : List Input} {state : State}
    (along : Along step holds state (front ++ back)) :
    Runs.final step state (front ++ back) = Runs.final step state front ∨
      (Along step holds (Runs.final step state front) back ∧
        Runs.final step state (front ++ back) =
          Runs.final step (Runs.final step state front) back) := by
  induction front generalizing state with
  | nil => exact .inr ⟨along, rfl⟩
  | cons input rest ih =>
    cases taken : step state input with
    | none =>
      -- A refused step ends both runs in the same place.
      simp [Runs.final, taken]
    | some next =>
      simp only [List.cons_append, Runs.final, taken]
      exact ih (along.2 next taken)

/-- What follows at each step from an invariant that steps of one kind keep holds along their runs. -/
theorem Along.imp {invariant : State → Prop} {first second : State → Input → Prop}
    (kept : ∀ state input next, invariant state → first state input → step state input = some next →
      invariant next)
    (follows : ∀ state input, invariant state → first state input → second state input)
    {inputs : List Input} {state : State} (initially : invariant state)
    (along : Along step first state inputs) : Along step second state inputs := by
  induction inputs generalizing state with
  | nil => trivial
  | cons input rest ih =>
    refine ⟨follows _ _ initially along.1, fun next taken => ?_⟩
    exact ih (kept _ _ _ initially along.1 taken) (along.2 next taken)

/-- What follows from a kept invariant at each step holds along every run. -/
theorem Kept.along {invariant : State → Prop} {holds : State → Input → Prop}
    (kept : Kept step invariant) (follows : ∀ state input, invariant state → holds state input)
    (inputs : List Input) {state : State} (initially : invariant state) :
    Along step holds state inputs := by
  induction inputs generalizing state with
  | nil => trivial
  | cons input rest ih =>
    exact ⟨follows _ _ initially, fun next taken => ih (kept _ _ _ initially taken)⟩

/--
Two properties that agree under an invariant hold along the same runs.

The invariant need only be kept by the steps of which the first property holds.
-/
theorem Along.congr {invariant : State → Prop} {first second : State → Input → Prop}
    (kept : ∀ state input next, invariant state → first state input → step state input = some next →
      invariant next)
    (agree : ∀ state input, invariant state → (first state input ↔ second state input))
    (inputs : List Input) {state : State} (initially : invariant state) :
    Along step first state inputs ↔ Along step second state inputs := by
  -- The invariant is carried along because the agreement at later steps depends on it.
  induction inputs generalizing state with
  | nil => exact Iff.rfl
  | cons input rest ih =>
    constructor
    · intro both
      have now := both.1
      refine ⟨(agree _ _ initially).mp now, fun next taken => ?_⟩
      exact (ih (kept _ _ _ initially now taken)).mp (both.2 next taken)
    · intro both
      have now := (agree _ _ initially).mpr both.1
      refine ⟨now, fun next taken => ?_⟩
      exact (ih (kept _ _ _ initially now taken)).mpr (both.2 next taken)

/-- Two properties that agree under a kept invariant hold along the same runs. -/
theorem Kept.along_congr {invariant : State → Prop} {first second : State → Input → Prop}
    (kept : Kept step invariant)
    (agree : ∀ state input, invariant state → (first state input ↔ second state input))
    (inputs : List Input) {state : State} (initially : invariant state) :
    Along step first state inputs ↔ Along step second state inputs :=
  Along.congr (fun state input next holds _ => kept state input next holds) agree inputs initially

/-- Of a machine that refuses nothing, what holds of each input holds along the run, and back. -/
theorem Along.iff_forall_mem {holds : Input → Prop}
    (total : ∀ state input, (step state input).isSome) {inputs : List Input} {state : State} :
    Along step (fun _ => holds) state inputs ↔ ∀ input ∈ inputs, holds input := by
  induction inputs generalizing state with
  | nil => simp [Along]
  | cons input rest ih =>
    obtain ⟨next, taken⟩ := Option.isSome_iff_exists.mp (total state input)
    simp only [Along, taken, Option.some.injEq, forall_eq', List.forall_mem_cons, ih]

/--
A property holds wherever a run has come to exactly when every step of it is of the kind that
keeps the property.

A refused step changes nothing, so it is of that kind. The invariant may need the property itself.
-/
theorem Along.iff_final {invariant good : State → Prop} {allowed : State → Input → Prop}
    (kept : ∀ state input next, invariant state → good state → step state input = some next →
      invariant next)
    (refused : ∀ state input, step state input = none → allowed state input)
    (agree : ∀ state input next, invariant state → good state → step state input = some next →
      (good next ↔ allowed state input)) (inputs : List Input) {state : State}
    (initially : invariant state) (start : good state) :
    Along step allowed state inputs ↔
      ∀ front, front <+: inputs → good (Runs.final step state front) := by
  induction inputs generalizing state with
  | nil =>
    constructor
    · intro _ front shorter
      rw [List.prefix_nil.mp shorter]
      exact start
    · exact fun _ => trivial
  | cons input rest ih =>
    cases taken : step state input with
    | none =>
      constructor
      · -- The run stays where it is, whatever comes after the refused input.
        intro _ front _
        cases front with
        | nil => exact start
        | cons first front =>
          rename_i shorter
          obtain ⟨rfl, -⟩ := List.cons_prefix_cons.mp shorter
          simpa only [Runs.final, taken] using start
      · intro _
        exact ⟨refused _ _ taken, fun next moved => by simp [taken] at moved⟩
    | some next =>
      have later := @ih next (kept _ _ _ initially start taken)
      -- The runs that start with this step are the runs from where it leads.
      have onward : ∀ front, Runs.final step state (input :: front) =
          Runs.final step next front := by
        intro front
        simp only [Runs.final, taken]
      constructor
      · rintro ⟨now, along⟩ front shorter
        cases front with
        | nil => exact start
        | cons first front =>
          obtain ⟨rfl, within⟩ := List.cons_prefix_cons.mp shorter
          rw [onward]
          have reached : good next := (agree _ _ _ initially start taken).mpr now
          exact (later reached).mp (along next taken) front within
      · intro everywhere
        have reached : good next := by
          have here := everywhere [input] (by simp)
          rwa [onward] at here
        refine ⟨(agree _ _ _ initially start taken).mp reached, ?_⟩
        intro other taken'
        obtain rfl : next = other := Option.some_inj.mp (taken.symm.trans taken')
        refine (later reached).mpr fun front shorter => ?_
        rw [← onward]
        exact everywhere _ (List.cons_prefix_cons.mpr ⟨rfl, shorter⟩)

end Recap.Runs
