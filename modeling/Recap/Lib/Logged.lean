import Mathlib

/-! Computations that keep a log, and when two judgments of every log entry come to the same. -/

namespace Recap

/-- How a computation with a log comes to its end. -/
inductive Ending (α : Type) where
  /-- It returns a value. -/
  | done (value : α)
  /-- It throws, and whoever catches that goes on from the state it left. -/
  | thrown
  /-- Its calls are nested too deep, which nobody catches. -/
  | overflow

/-- The end of a computation, the state it left, and what it logged on the way. -/
structure Logged.Result (σ ω α : Type) where
  ending : Ending α
  state : σ
  log : List ω

/-- A computation over a state that keeps a log. -/
def Logged (σ ω α : Type) : Type := σ → Logged.Result σ ω α

namespace Logged

variable {σ ω α β : Type}

/-- Run one computation, and then another on what it returned. -/
def bind (first : Logged σ ω α) (next : α → Logged σ ω β) : Logged σ ω β := fun state =>
  match first state with
  | ⟨.done value, middle, log⟩ =>
    let last := next value middle
    { last with log := log ++ last.log }
  | ⟨.thrown, middle, log⟩ => ⟨.thrown, middle, log⟩
  | ⟨.overflow, middle, log⟩ => ⟨.overflow, middle, log⟩

instance : Monad (Logged σ ω) where
  pure value := fun state => ⟨.done value, state, []⟩
  bind := Logged.bind

def get : Logged σ ω σ := fun state => ⟨.done state, state, []⟩

def modify (change : σ → σ) : Logged σ ω Unit := fun state => ⟨.done (), change state, []⟩

def throw : Logged σ ω α := fun state => ⟨.thrown, state, []⟩

def overflow : Logged σ ω α := fun state => ⟨.overflow, state, []⟩

def log (entry : ω) : Logged σ ω Unit := fun state => ⟨.done (), state, [entry]⟩

/-- Run a computation, and catch what it throws. -/
def attempt (part : Logged σ ω Unit) : Logged σ ω Unit := fun state =>
  match part state with
  | ⟨.thrown, middle, log⟩ => ⟨.done (), middle, log⟩
  | result => result

/-- Run a round for each index from the given one on, each on what the last one returned. -/
def rounds (body : Nat → α → Logged σ ω α) : (count index : Nat) → α → Logged σ ω α
  | 0, _, value => pure value
  | count + 1, index, value => do
    let value ← body index value
    rounds body count (index + 1) value

@[simp] theorem get_bind (next : σ → Logged σ ω β) (state : σ) :
    (get >>= next) state = next state state := rfl

@[simp] theorem modify_bind (change : σ → σ) (next : Unit → Logged σ ω β) (state : σ) :
    (modify change >>= next) state = next () (change state) := rfl

@[simp] theorem pure_apply (value : α) (state : σ) :
    (pure value : Logged σ ω α) state = ⟨.done value, state, []⟩ := rfl

@[simp] theorem modify_apply (change : σ → σ) (state : σ) :
    (modify change : Logged σ ω Unit) state = ⟨.done (), change state, []⟩ := rfl

/--
All entries of a log are good exactly when all of them are allowed.

If they are, a returned value satisfies the one condition, and what is left by throwing the other.
-/
structure Agree (good allowed : ω → Prop) (returned : α → σ → Prop) (faulty : σ → Prop)
    (result : Result σ ω α) : Prop where
  log : (∀ entry ∈ result.log, good entry) ↔ ∀ entry ∈ result.log, allowed entry
  done : (∀ entry ∈ result.log, good entry) → ∀ value, result.ending = .done value →
    returned value result.state
  thrown : (∀ entry ∈ result.log, good entry) → result.ending = .thrown → faulty result.state

section Agree

variable {good allowed : ω → Prop} {returned : α → σ → Prop} {faulty : σ → Prop} {state : σ}

/-- What logs nothing and returns. -/
theorem Agree.silent {value : α} (met : returned value state) :
    Agree good allowed returned faulty ⟨.done value, state, []⟩ where
  log := by simp
  done := by
    intro _ other same
    cases same
    exact met
  thrown := nofun

theorem Agree.throw (met : faulty state) :
    Agree good allowed returned faulty ((throw : Logged σ ω α) state) where
  log := by simp [Logged.throw]
  done := nofun
  thrown := fun _ _ => met

theorem Agree.overflow :
    Agree good allowed returned faulty ((overflow : Logged σ ω α) state) where
  log := by simp [Logged.overflow]
  done := nofun
  thrown := nofun

/-- One entry that is good exactly when it is allowed. -/
theorem Agree.entry {returned : Unit → σ → Prop} {entry : ω} (same : good entry ↔ allowed entry)
    (met : good entry → returned () state) :
    Agree good allowed returned faulty ((Logged.log entry : Logged σ ω Unit) state) where
  log := by simpa [Logged.log] using same
  done := by
    intro all _ _
    exact met (all entry (by simp [Logged.log]))
  thrown := nofun

/-- One entry that both judgments let through, before what agrees. -/
theorem Agree.note {entry : ω} {next : Unit → Logged σ ω α} (is_good : good entry)
    (is_allowed : allowed entry) (agree : Agree good allowed returned faulty (next () state)) :
    Agree good allowed returned faulty ((Logged.log entry >>= next) state) where
  log := by
    change (∀ other ∈ entry :: (next () state).log, good other) ↔
      ∀ other ∈ entry :: (next () state).log, allowed other
    simp only [List.forall_mem_cons, is_good, is_allowed, true_and]
    exact agree.log
  done := fun all => agree.done (List.forall_mem_cons.mp all).2
  thrown := fun all => agree.thrown (List.forall_mem_cons.mp all).2

theorem Agree.weaken {returned' : α → σ → Prop} {faulty' : σ → Prop} {result : Result σ ω α}
    (agree : Agree good allowed returned faulty result)
    (done : ∀ value state, returned value state → returned' value state)
    (thrown : ∀ state, faulty state → faulty' state) :
    Agree good allowed returned' faulty' result where
  log := agree.log
  done := fun all value same => done _ _ (agree.done all value same)
  thrown := fun all same => thrown _ (agree.thrown all same)

/-- A sequence agrees when both parts do, the second one wherever the first one has gone well. -/
theorem Agree.bind {first : Logged σ ω α} {next : α → Logged σ ω β} {middle : α → σ → Prop}
    {returned : β → σ → Prop} (before : Agree good allowed middle faulty (first state))
    (after : ∀ value last, middle value last →
      Agree good allowed returned faulty (next value last)) :
    Agree good allowed returned faulty ((first >>= next) state) := by
  change Agree good allowed returned faulty (Logged.bind first next state)
  unfold Logged.bind
  obtain ⟨log, done, thrown⟩ := before
  generalize first state = result at log done thrown
  obtain ⟨ending, last, entries⟩ := result
  cases ending with
  | thrown => exact ⟨log, nofun, fun all _ => thrown all rfl⟩
  | overflow =>
    exact ⟨log, nofun, nofun⟩
  | done value =>
    -- The second part is only known to agree after a first part that was good.
    have later : (∀ entry ∈ entries, good entry) →
        Agree good allowed returned faulty (next value last) :=
      fun all => after value last (done all value rfl)
    simp only
    refine ⟨?_, fun all => ?_, fun all => ?_⟩
    · simp only [List.forall_mem_append]
      constructor
      · rintro ⟨front, rest⟩
        exact ⟨log.mp front, (later front).log.mp rest⟩
      · rintro ⟨front, rest⟩
        exact ⟨log.mpr front, (later (log.mpr front)).log.mpr rest⟩
    · obtain ⟨front, rest⟩ := List.forall_mem_append.mp all
      exact (later front).done rest
    · obtain ⟨front, rest⟩ := List.forall_mem_append.mp all
      exact (later front).thrown rest

/-- What is caught goes on from where it was thrown. -/
theorem Agree.attempt {part : Logged σ ω Unit} {met : σ → Prop}
    (agree : Agree good allowed (fun _ => met) met (part state)) :
    Agree good allowed (fun _ => met) faulty (attempt part state) := by
  obtain ⟨log, done, thrown⟩ := agree
  unfold Logged.attempt
  generalize part state = result at log done thrown
  obtain ⟨ending, last, entries⟩ := result
  cases ending with
  | done value =>
    exact ⟨log, fun all _ _ => done all value rfl, nofun⟩
  | thrown => exact ⟨log, fun all _ _ => thrown all rfl, nofun⟩
  | overflow =>
    exact ⟨log, nofun, nofun⟩

/-- An invariant that every round keeps holds after all of them. -/
theorem Agree.rounds {body : Nat → α → Logged σ ω α} (invariant : Nat → α → σ → Prop)
    (round : ∀ index value state, invariant index value state →
      Agree good allowed (invariant (index + 1)) faulty (body index value state))
    (count index : Nat) (value : α) (initially : invariant index value state) :
    Agree good allowed (invariant (index + count)) faulty
      (rounds body count index value state) := by
  induction count generalizing index value state with
  | zero => exact Agree.silent initially
  | succ count ih =>
    refine Agree.bind (round index value state initially) fun next last kept => ?_
    have rest := ih (index + 1) next kept
    rwa [Nat.add_right_comm] at rest

end Agree

/--
What a computation returns, what it logs and the state it leaves satisfy the one condition.

If it throws, what it logged and left satisfies the other, and it overflows only if that may happen.
-/
structure Meets (returned : α → List ω → σ → Prop) (faulty : List ω → σ → Prop) (deep : Prop)
    (result : Result σ ω α) : Prop where
  done : ∀ value, result.ending = .done value → returned value result.log result.state
  thrown : result.ending = .thrown → faulty result.log result.state
  overflow : result.ending = .overflow → deep

section Meets

variable {returned : α → List ω → σ → Prop} {faulty : List ω → σ → Prop} {deep : Prop} {state : σ}

/-- What logs nothing and returns. -/
theorem Meets.silent {value : α} (met : returned value [] state) :
    Meets returned faulty deep ⟨.done value, state, []⟩ := by
  refine ⟨fun other same => ?_, nofun, nofun⟩
  cases same
  exact met

theorem Meets.throw (met : faulty [] state) :
    Meets returned faulty deep ((throw : Logged σ ω α) state) :=
  ⟨nofun, fun _ => met, nofun⟩

/-- What is nested too deep has returned nothing, and has thrown nothing. -/
theorem Meets.of_deep (met : deep) : Meets returned faulty deep ((Logged.overflow : Logged σ ω α) state) :=
  ⟨nofun, nofun, fun _ => met⟩

/-- What logs one entry and returns. -/
theorem Meets.entry {returned : Unit → List ω → σ → Prop} {entry : ω} (met : returned () [entry] state) :
    Meets returned faulty deep ((Logged.log entry : Logged σ ω Unit) state) :=
  ⟨fun _ _ => met, nofun, nofun⟩

/-- One entry comes before all that is logged later. -/
theorem Meets.note {entry : ω} {next : Unit → Logged σ ω α}
    (meets : Meets (fun value log => returned value (entry :: log)) (fun log => faulty (entry :: log)) deep
      (next () state)) :
    Meets returned faulty deep ((Logged.log entry >>= next) state) :=
  ⟨meets.done, meets.thrown, meets.overflow⟩

theorem Meets.weaken {returned' : α → List ω → σ → Prop} {faulty' : List ω → σ → Prop}
    {result : Result σ ω α} (meets : Meets returned faulty deep result)
    (done : ∀ value log state, returned value log state → returned' value log state)
    (thrown : ∀ log state, faulty log state → faulty' log state) :
    Meets returned' faulty' deep result where
  done := fun value same => done _ _ _ (meets.done value same)
  thrown := fun same => thrown _ _ (meets.thrown same)
  overflow := meets.overflow

/-- A sequence meets what its second part meets wherever the first one has come to. -/
theorem Meets.bind {first : Logged σ ω α} {next : α → Logged σ ω β} {middle : α → List ω → σ → Prop}
    {returned : β → List ω → σ → Prop} (before : Meets middle faulty deep (first state))
    (after : ∀ value log last, middle value log last →
      Meets (fun value more => returned value (log ++ more)) (fun more => faulty (log ++ more)) deep
        (next value last)) :
    Meets returned faulty deep ((first >>= next) state) := by
  change Meets returned faulty deep (Logged.bind first next state)
  unfold Logged.bind
  obtain ⟨done, thrown, overflow⟩ := before
  generalize first state = result at done thrown overflow
  obtain ⟨ending, last, entries⟩ := result
  cases ending with
  | thrown => exact ⟨nofun, fun _ => thrown rfl, nofun⟩
  | overflow => exact ⟨nofun, nofun, fun _ => overflow rfl⟩
  | done value =>
    have later := after value entries last (done value rfl)
    exact ⟨later.done, later.thrown, later.overflow⟩

/-- What is caught goes on from where it was thrown. -/
theorem Meets.attempt {part : Logged σ ω Unit} {returned : Unit → List ω → σ → Prop}
    (meets : Meets returned (returned ()) deep (part state)) :
    Meets returned faulty deep (attempt part state) := by
  obtain ⟨done, thrown, overflow⟩ := meets
  unfold Logged.attempt
  generalize part state = result at done thrown overflow
  obtain ⟨ending, last, entries⟩ := result
  cases ending with
  | done value => exact ⟨fun _ _ => done value rfl, nofun, nofun⟩
  | thrown => exact ⟨fun _ _ => thrown rfl, nofun, nofun⟩
  | overflow => exact ⟨nofun, nofun, fun _ => overflow rfl⟩

/-- An invariant that every round keeps holds after all of them, and so for their whole log. -/
theorem Meets.rounds {body : Nat → α → Logged σ ω α} (invariant : Nat → α → List ω → σ → Prop)
    (count index : Nat)
    (round : ∀ place value log state, place < index + count → invariant place value log state →
      Meets (fun value more => invariant (place + 1) value (log ++ more)) (fun more => faulty (log ++ more))
        deep (body place value state))
    (value : α) (log : List ω) (initially : invariant index value log state) :
    Meets (fun value more => invariant (index + count) value (log ++ more))
      (fun more => faulty (log ++ more)) deep (rounds body count index value state) := by
  -- The log of the rounds before comes before that of the rounds to come.
  induction count generalizing index value log state with
  | zero => exact Meets.silent (by simpa using initially)
  | succ count ih =>
    have here := round index value log state (by omega) initially
    refine Meets.bind here fun next more last kept => ?_
    have rest := ih (index + 1) (fun place value log state within => round place value log state (by omega))
      next (log ++ more) kept
    rw [Nat.add_right_comm] at rest
    exact rest.weaken (fun _ _ _ met => by simpa [Nat.add_assoc] using met) fun _ _ met => by simpa using met

/-- The same for rounds that are the first to log anything. -/
theorem Meets.rounds_zero {body : Nat → α → Logged σ ω α} (invariant : Nat → α → List ω → σ → Prop)
    (count : Nat)
    (round : ∀ place value log state, place < count → invariant place value log state →
      Meets (fun value more => invariant (place + 1) value (log ++ more)) (fun more => faulty (log ++ more))
        deep (body place value state))
    (value : α) (initially : invariant 0 value [] state) :
    Meets (invariant count) faulty deep (Logged.rounds body count 0 value state) := by
  have all := Meets.rounds invariant count 0 (by simpa using round) value [] initially
  simpa using all

/-- What can neither throw nor overflow returns. -/
theorem Meets.returns {result : Result σ ω α} (meets : Meets returned faulty False result)
    (never : ∀ log state, ¬ faulty log state) :
    ∃ value, result.ending = .done value ∧ returned value result.log result.state := by
  cases ends : result.ending with
  | done value => exact ⟨value, rfl, meets.done value ends⟩
  | thrown => exact absurd (meets.thrown ends) (never _ _)
  | overflow => exact (meets.overflow ends).elim

end Meets

/-- A computation does what another one does, unless that one overflows. -/
def Extends (first second : Logged σ ω α) : Prop :=
  ∀ state, (first state).ending = .overflow ∨ second state = first state

section Extends

theorem Extends.refl (part : Logged σ ω α) : Extends part part :=
  fun _ => .inr rfl

theorem Extends.of_overflow (part : Logged σ ω α) : Extends overflow part :=
  fun _ => .inl rfl

theorem Extends.bind {first second : Logged σ ω α} {next after : α → Logged σ ω β}
    (parts : Extends first second) (rest : ∀ value, Extends (next value) (after value)) :
    Extends (first >>= next) (second >>= after) := by
  intro state
  change (Logged.bind first next state).ending = _ ∨
    Logged.bind second after state = Logged.bind first next state
  unfold Logged.bind
  rcases parts state with deep | same
  · generalize first state = result at deep
    obtain ⟨ending, last, log⟩ := result
    cases deep
    exact .inl rfl
  · rw [same]
    generalize first state = result
    obtain ⟨ending, last, log⟩ := result
    cases ending with
    | thrown => exact .inr rfl
    | overflow => exact .inl rfl
    | done value =>
      rcases rest value last with deep | same
      · exact .inl deep
      · exact .inr (by simp only [same])

/-- Parts that begin in the same way. -/
theorem Extends.then {part : Logged σ ω α} {next after : α → Logged σ ω β}
    (rest : ∀ value, Extends (next value) (after value)) : Extends (part >>= next) (part >>= after) :=
  (Extends.refl part).bind rest

theorem Extends.attempt {first second : Logged σ ω Unit} (parts : Extends first second) :
    Extends (attempt first) (attempt second) := by
  intro state
  unfold Logged.attempt
  rcases parts state with deep | same
  · generalize first state = result at deep
    obtain ⟨ending, last, log⟩ := result
    cases deep
    exact .inl rfl
  · rw [same]
    exact .inr rfl

theorem Extends.rounds {body other : Nat → α → Logged σ ω α}
    (round : ∀ index value, Extends (body index value) (other index value)) (count index : Nat) (value : α) :
    Extends (rounds body count index value) (rounds other count index value) := by
  induction count generalizing index value with
  | zero => exact Extends.refl _
  | succ count ih => exact (round index value).bind fun value => ih (index + 1) value

end Extends

end Logged
end Recap
