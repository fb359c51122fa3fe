import Mathlib

/-! Computations over a state that may throw, and loops that may run for ever. -/

namespace Recap

/-- How a computation ends. -/
inductive Outcome (ε α : Type) where
  /-- It returns a value. -/
  | done (value : α)
  /-- It throws. -/
  | thrown (fault : ε)
  /-- It was stopped at the head of a loop, where a caller asked for that. -/
  | stuck
  /-- It has not returned within the fuel it was given. -/
  | spent
  deriving DecidableEq, Repr

/-- A computation over a state. -/
def Program (σ ε α : Type) : Type := σ → Outcome ε (α × σ)

namespace Program

variable {σ ε α β : Type}

/-- Return a value and leave the state alone. -/
def pure (value : α) : Program σ ε α := fun state => .done (value, state)

/-- Run one computation, and then another on what it returned. -/
def bind (first : Program σ ε α) (next : α → Program σ ε β) : Program σ ε β := fun state =>
  match first state with
  | .done (value, state) => next value state
  | .thrown fault => .thrown fault
  | .stuck => .stuck
  | .spent => .spent

instance : Monad (Program σ ε) where
  pure := Program.pure
  bind := Program.bind

/-- Lift a function on the state that always returns. -/
def act (run : σ → α × σ) : Program σ ε α := fun state => .done (run state)

/-- Throw. -/
def throw (fault : ε) : Program σ ε α := fun _ => .thrown fault

/-- Run a computation the given number of times, each time on what the last one returned. -/
def repeated (body : α → Program σ ε α) : Nat → α → Program σ ε α
  | 0, value => Pure.pure value
  | count + 1, value => do
    let value ← body value
    repeated body count value

/-- Run a computation unless the state is one to stop in. -/
def guarded (stuck : σ → Bool) (run : Program σ ε α) : Program σ ε α := fun state =>
  if stuck state then .stuck else run state

/--
A loop, which tests before each round.

Where the test passes in a state that the caller calls stuck, the loop stops instead.
-/
def loop (stuck : σ → Bool) (test : Program σ ε Bool) (body : α → Program σ ε α) :
    (fuel : Nat) → α → Program σ ε α
  | 0, _ => fun _ => .spent
  | fuel + 1, value => do
    if ← test then
      guarded stuck (do
        let value ← body value
        loop stuck test body fuel value)
    else Pure.pure value

/-- A returned value is in the state where it was returned. -/
@[simp] theorem pure_apply (value : α) (state : σ) :
    (Pure.pure value : Program σ ε α) state = .done (value, state) := rfl

@[simp] theorem act_apply (run : σ → α × σ) (state : σ) :
    (act run : Program σ ε α) state = .done (run state) := rfl

@[simp] theorem throw_apply (fault : ε) (state : σ) :
    (throw fault : Program σ ε α) state = .thrown fault := rfl

/-- After a computation that returned, the next one runs where it left off. -/
theorem bind_done {first : Program σ ε α} {next : α → Program σ ε β} {state after : σ} {value : α}
    (returned : first state = .done (value, after)) : (first >>= next) state = next value after := by
  change Program.bind first next state = _
  rw [Program.bind, returned]

/-- A computation that throws throws out of everything around it. -/
theorem bind_thrown {first : Program σ ε α} {next : α → Program σ ε β} {state : σ} {fault : ε}
    (thrown : first state = .thrown fault) : (first >>= next) state = .thrown fault := by
  change Program.bind first next state = _
  rw [Program.bind, thrown]

/-- A computation that is stuck has everything around it stuck. -/
theorem bind_stuck {first : Program σ ε α} {next : α → Program σ ε β} {state : σ}
    (stopped : first state = .stuck) : (first >>= next) state = .stuck := by
  change Program.bind first next state = _
  rw [Program.bind, stopped]

/-- A computation that spends its fuel spends that of everything around it. -/
theorem bind_spent {first : Program σ ε α} {next : α → Program σ ε β} {state : σ}
    (out : first state = .spent) : (first >>= next) state = .spent := by
  change Program.bind first next state = _
  rw [Program.bind, out]

/-- A lifted function hands on what it returns. -/
@[simp] theorem act_bind (run : σ → α × σ) (next : α → Program σ ε β) (state : σ) :
    (act run >>= next) state = next (run state).1 (run state).2 := rfl

@[simp] theorem pure_bind (value : α) (next : α → Program σ ε β) (state : σ) :
    ((Pure.pure value : Program σ ε α) >>= next) state = next value state := rfl

/-- It does not matter how a sequence of three is put together. -/
theorem bind_assoc {γ : Type} (first : Program σ ε α) (next : α → Program σ ε β)
    (last : β → Program σ ε γ) :
    (first >>= next) >>= last = first >>= fun value => next value >>= last := by
  funext state
  -- If the first one does not return, neither of the others is run.
  cases ran : first state with
  | done pair =>
    rw [bind_done ran]
    change Program.bind (Program.bind first next) last state = _
    simp only [Program.bind, ran]
    rfl
  | thrown fault => rw [bind_thrown (bind_thrown ran), bind_thrown ran]
  | stuck => rw [bind_stuck (bind_stuck ran), bind_stuck ran]
  | spent => rw [bind_spent (bind_spent ran), bind_spent ran]

/-- A sequence returns only where both of its parts do. -/
theorem bind_eq_done {first : Program σ ε α} {next : α → Program σ ε β} {state : σ} {result : β × σ}
    (returned : (first >>= next) state = .done result) :
    ∃ value middle, first state = .done (value, middle) ∧ next value middle = .done result := by
  -- Only the first of the four outcomes lets the second part run.
  cases ran : first state with
  | done pair =>
    rw [bind_done ran] at returned
    exact ⟨pair.1, pair.2, rfl, returned⟩
  | thrown fault => exact absurd ((bind_thrown ran).symm.trans returned) (by simp)
  | stuck => exact absurd ((bind_stuck ran).symm.trans returned) (by simp)
  | spent => exact absurd ((bind_spent ran).symm.trans returned) (by simp)

/-- A sequence throws where one of its parts does. -/
theorem bind_eq_thrown {first : Program σ ε α} {next : α → Program σ ε β} {state : σ} {fault : ε}
    (thrown : (first >>= next) state = .thrown fault) :
    first state = .thrown fault ∨
      ∃ value middle, first state = .done (value, middle) ∧ next value middle = .thrown fault := by
  -- The fault is that of the first part, or the first part has returned.
  cases ran : first state with
  | done pair =>
    rw [bind_done ran] at thrown
    exact .inr ⟨pair.1, pair.2, rfl, thrown⟩
  | thrown other =>
    rw [bind_thrown ran] at thrown
    exact .inl (by rw [Outcome.thrown.inj thrown])
  | stuck => exact absurd ((bind_stuck ran).symm.trans thrown) (by simp)
  | spent => exact absurd ((bind_spent ran).symm.trans thrown) (by simp)

/-- A sequence is stuck where one of its parts is. -/
theorem bind_eq_stuck {first : Program σ ε α} {next : α → Program σ ε β} {state : σ}
    (stopped : (first >>= next) state = .stuck) :
    first state = .stuck ∨
      ∃ value middle, first state = .done (value, middle) ∧ next value middle = .stuck := by
  cases ran : first state with
  | done pair =>
    rw [bind_done ran] at stopped
    exact .inr ⟨pair.1, pair.2, rfl, stopped⟩
  | thrown fault => exact absurd ((bind_thrown ran).symm.trans stopped) (by simp)
  | stuck => exact .inl rfl
  | spent => exact absurd ((bind_spent ran).symm.trans stopped) (by simp)

/-- A loop whose test fails returns the value it has. -/
theorem loop_exit {stuck : σ → Bool} {test : Program σ ε Bool} {body : α → Program σ ε α}
    {state after : σ} (fuel : Nat) (value : α) (failed : test state = .done (false, after)) :
    loop stuck test body (fuel + 1) value state = .done (value, after) := by
  rw [loop, bind_done failed]
  rfl

/-- A loop whose test passes runs its body and goes on, unless it is stuck. -/
theorem loop_round {stuck : σ → Bool} {test : Program σ ε Bool} {body : α → Program σ ε α}
    {state head after : σ} {value next : α} (fuel : Nat) (passed : test state = .done (true, head))
    (free : stuck head = false) (ran : body value head = .done (next, after)) :
    loop stuck test body (fuel + 1) value state = loop stuck test body fuel next after := by
  rw [loop, bind_done passed, if_pos rfl, guarded, free, if_neg Bool.false_ne_true, bind_done ran]

/-- A loop with fuel is its test, and then either its end or a round and the rest of it. -/
theorem loop_succ (stuck : σ → Bool) (test : Program σ ε Bool) (body : α → Program σ ε α)
    (fuel : Nat) (value : α) :
    loop stuck test body (fuel + 1) value = test >>= fun passed =>
      if passed then guarded stuck (body value >>= loop stuck test body fuel) else Pure.pure value := rfl

/-- A relation between the states before and after holds wherever a computation returns. -/
def Keeps (related : σ → σ → Prop) (part : Program σ ε α) : Prop :=
  ∀ state value after, part state = .done (value, after) → related state after

section Keeps

variable {related : σ → σ → Prop}

theorem Keeps.pure (refl : ∀ state, related state state) (value : α) :
    Keeps related (Pure.pure value : Program σ ε α) := by
  intro state result after returned
  rw [pure_apply, Outcome.done.injEq, Prod.mk.injEq] at returned
  rw [← returned.2]
  exact refl state

theorem Keeps.act {run : σ → α × σ} (moves : ∀ state, related state (run state).2) :
    Keeps related (Program.act run : Program σ ε α) := by
  intro state result after returned
  rw [act_apply, Outcome.done.injEq] at returned
  have moved := moves state
  rwa [returned] at moved

theorem Keeps.throw (fault : ε) : Keeps related (Program.throw fault : Program σ ε α) :=
  fun _ _ _ impossible => absurd impossible (by simp)

theorem Keeps.bind (trans : ∀ first second third, related first second → related second third →
      related first third)
    {first : Program σ ε α} {next : α → Program σ ε β} (before : Keeps related first)
    (later : ∀ value, Keeps related (next value)) : Keeps related (first >>= next) := by
  intro state result after returned
  obtain ⟨value, middle, ran, ended⟩ := bind_eq_done returned
  exact trans _ _ _ (before _ _ _ ran) (later _ _ _ _ ended)

/-- What a test and a body keep, a loop of them keeps. -/
theorem Keeps.loop (refl : ∀ state, related state state)
    (trans : ∀ first second third, related first second → related second third → related first third)
    {stuck : σ → Bool} {test : Program σ ε Bool} {body : α → Program σ ε α}
    (tested : Keeps related test) (round : ∀ value, Keeps related (body value)) (fuel : Nat) (value : α) :
    Keeps related (Program.loop stuck test body fuel value) := by
  -- The induction follows the rounds, and the value is whatever the last round returned.
  induction fuel generalizing value with
  | zero => exact fun _ _ _ impossible => absurd impossible (by simp [Program.loop])
  | succ fuel ih =>
    rw [loop_succ]
    refine Keeps.bind trans tested fun passed => ?_
    cases passed with
    | false => exact Keeps.pure refl value
    | true =>
      intro state result after returned
      rw [if_pos rfl, guarded] at returned
      split at returned
      · exact absurd returned (by simp)
      · exact Keeps.bind trans (round value) ih _ _ _ returned

end Keeps

/-- Wherever the first computation returns or throws, the second one does the same. -/
structure Completes (first second : Program σ ε α) : Prop where
  done : ∀ {state result}, first state = .done result → second state = .done result
  thrown : ∀ {state fault}, first state = .thrown fault → second state = .thrown fault

theorem Completes.refl (part : Program σ ε α) : Completes part part := ⟨id, id⟩

theorem Completes.bind {first second : Program σ ε α} {next later : α → Program σ ε β}
    (before : Completes first second) (after : ∀ value, Completes (next value) (later value)) :
    Completes (first >>= next) (second >>= later) where
  done := by
    -- Where the first part returns, both sequences go on from the same state.
    intro state result returned
    obtain ⟨value, middle, ran, ended⟩ := bind_eq_done returned
    rw [bind_done (before.done ran)]
    exact (after value).done ended
  thrown := by
    intro state fault thrown
    rcases bind_eq_thrown thrown with now | ⟨value, middle, ran, ended⟩
    · exact bind_thrown (before.thrown now)
    · rw [bind_done (before.done ran)]
      exact (after value).thrown ended

/-- A loop that returns or throws does the same with more fuel, and where it is never stuck. -/
theorem Completes.loop {stuck : σ → Bool} {test : Program σ ε Bool} {body other : α → Program σ ε α}
    (round : ∀ value, Completes (body value) (other value)) {fuel more : Nat} (enough : fuel ≤ more)
    (value : α) :
    Completes (Program.loop stuck test body fuel value)
      (Program.loop (fun _ => false) test other more value) := by
  -- The induction follows the rounds of the loop with less fuel.
  induction fuel generalizing more value with
  | zero => exact ⟨fun impossible => absurd impossible (by simp [Program.loop]),
      fun impossible => absurd impossible (by simp [Program.loop])⟩
  | succ fuel ih =>
    obtain ⟨more, rfl⟩ : ∃ rest, more = rest + 1 := ⟨more - 1, by omega⟩
    have fewer : fuel ≤ more := by omega
    rw [loop_succ, loop_succ]
    refine Completes.bind (Completes.refl test) fun passed => ?_
    cases passed with
    | false => exact Completes.refl _
    | true =>
      have rest := Completes.bind (round value) (ih fewer)
      -- Where the first loop is stuck, there is nothing for the other one to agree with.
      constructor
      · intro state result returned
        rw [if_pos rfl, guarded] at returned
        split at returned
        · exact absurd returned (by simp)
        · exact rest.done returned
      · intro state fault thrown
        rw [if_pos rfl, guarded] at thrown
        split at thrown
        · exact absurd thrown (by simp)
        · exact rest.thrown thrown

/-- Whatever a computation returns meets a condition. -/
def Gives (met : α → Prop) (part : Program σ ε α) : Prop :=
  ∀ state value after, part state = .done (value, after) → met value

section Gives

variable {met : α → Prop} {later : β → Prop}

theorem Gives.pure {value : α} (holds : met value) : Gives met (Pure.pure value : Program σ ε α) := by
  intro state result after returned
  rw [pure_apply, Outcome.done.injEq, Prod.mk.injEq] at returned
  exact returned.1 ▸ holds

theorem Gives.act {run : σ → α × σ} (holds : ∀ state, met (run state).1) :
    Gives met (Program.act run : Program σ ε α) := by
  intro state result after returned
  rw [act_apply, Outcome.done.injEq] at returned
  have given := holds state
  rwa [returned] at given

theorem Gives.throw (fault : ε) : Gives met (Program.throw fault : Program σ ε α) :=
  fun _ _ _ impossible => absurd impossible (by simp)

theorem Gives.imp {other : α → Prop} {part : Program σ ε α} (gives : Gives met part)
    (weaker : ∀ value, met value → other value) : Gives other part :=
  fun state value after returned => weaker value (gives state value after returned)

theorem Gives.and {other : α → Prop} {part : Program σ ε α} (one : Gives met part)
    (another : Gives other part) : Gives (fun value => met value ∧ other value) part :=
  fun state value after returned => ⟨one state value after returned, another state value after returned⟩

/-- Nothing need be known of what is returned. -/
theorem Gives.any (part : Program σ ε α) : Gives (fun _ => True) part := fun _ _ _ _ => trivial

theorem Gives.bind {first : Program σ ε α} {next : α → Program σ ε β} (before : Gives met first)
    (behind : ∀ value, met value → Gives later (next value)) : Gives later (first >>= next) := by
  intro state result after returned
  obtain ⟨value, middle, ran, ended⟩ := bind_eq_done returned
  exact behind value (before _ _ _ ran) _ _ _ ended

/-- Rounds that each lead from one condition to the next lead over as many of them as there are rounds. -/
theorem Gives.repeated (met : Nat → α → Prop) {body : α → Program σ ε α}
    (round : ∀ index value, met index value → Gives (met (index + 1)) (body value)) (count index : Nat)
    {value : α} (start : met index value) :
    Gives (met (index + count)) (Program.repeated body count value) := by
  -- The induction follows the rounds, each of which moves on to the next condition.
  induction count generalizing index value with
  | zero => exact Gives.pure start
  | succ count ih =>
    refine (round index value start).bind fun between holds => ?_
    have rest := ih (index + 1) holds
    rwa [Nat.add_right_comm] at rest

/-- What every round gives again, a loop gives. -/
theorem Gives.loop {stuck : σ → Bool} {test : Program σ ε Bool} {body : α → Program σ ε α}
    (round : ∀ value, met value → Gives met (body value)) (fuel : Nat) {value : α} (start : met value) :
    Gives met (Program.loop stuck test body fuel value) := by
  -- The induction follows the rounds, each of which starts from what the last one gave.
  induction fuel generalizing value with
  | zero => exact fun _ _ _ impossible => absurd impossible (by simp [Program.loop])
  | succ fuel ih =>
    rw [loop_succ]
    refine (Gives.any test).bind fun passed _ => ?_
    cases passed with
    | false => exact Gives.pure start
    | true =>
      intro state result after returned
      rw [if_pos rfl, guarded] at returned
      split at returned
      · exact absurd returned (by simp)
      · exact (round value start).bind (fun between holds => ih holds) _ _ _ returned

end Gives

end Program
end Recap
