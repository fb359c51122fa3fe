import Recap.Blaze.ParserFrame

/-! What the parser does from where a strict run of it stops. -/

namespace Recap.Blaze.Parser

/-- The values of a stream from the given place on. -/
def shift (count : Nat) (uninit : Nat → Nat) : Nat → Nat := fun n => uninit (n + count)

/-- The first values of one stream, with all of another behind them. -/
def splice (count : Nat) (uninit later : Nat → Nat) : Nat → Nat := fun n =>
  if n < count then uninit n else later (n - count)

/-- Values that are never zero, and that no field header can be made of. -/
def ones : Nat → Nat := fun _ => 0xFFFFFFFF

@[simp] theorem splice_zero (uninit later : Nat → Nat) : splice 0 uninit later = later := by
  funext n
  simp [splice]

/-- Values spliced in twice stand one behind the other. -/
theorem splice_add (first second : Nat) (uninit later : Nat → Nat) :
    splice (first + second) uninit later =
      splice first uninit (splice second (shift first uninit) later) := by
  funext n
  unfold splice shift
  split
  · split
    · rfl
    · have back : n - first + first = n := by omega
      rw [if_pos (by omega), back]
  · rw [if_neg (by omega), if_neg (by omega), Nat.sub_sub]

theorem shift_add (first second : Nat) (uninit : Nat → Nat) :
    shift second (shift first uninit) = shift (first + second) uninit := by
  funext n
  simp only [shift]
  congr 1
  omega

/--
From a given buffer, a family of runs does what one strict run does.

It gets the values that the strict run used up, whatever stands behind them.
Where the strict run is stuck, all of the family run for ever if the values go on as ones.
-/
structure Replays {ι α : Type} (b : DataBuffer) (part : Parse α) (parts : ι → Parse α) : Prop where
  returned : ∀ {uninit value after}, part ⟨b, uninit⟩ = .done (value, after) →
    ∃ count, after.uninit = shift count uninit ∧ ∀ i later,
      parts i ⟨b, splice count uninit later⟩ = .done (value, ⟨after.buffer, later⟩) ∨
        parts i ⟨b, splice count uninit later⟩ = .spent
  stopped : ∀ {uninit}, part ⟨b, uninit⟩ = .stuck →
    ∃ count, ∀ i, parts i ⟨b, splice count uninit ones⟩ = .spent

namespace Replays

variable {ι α β : Type} {b : DataBuffer}

theorem pure (value : α) : Replays b (Pure.pure value) fun _ : ι => Pure.pure value where
  returned := by
    intro uninit result after returned
    rw [Program.pure_apply, Outcome.done.injEq, Prod.mk.injEq] at returned
    obtain ⟨rfl, rfl⟩ := returned
    exact ⟨0, rfl, fun i later => .inl (by rw [splice_zero, Program.pure_apply])⟩
  stopped := fun impossible => absurd impossible (by simp)

theorem throw (fault : Fault) :
    Replays (α := α) b (Program.throw fault) fun _ : ι => Program.throw fault where
  returned := fun impossible => absurd impossible (by simp)
  stopped := fun impossible => absurd impossible (by simp)

/-- Parts in sequence use up their values in sequence. -/
theorem bind {first : Parse α} {firsts : ι → Parse α} {next : α → Parse β} {nexts : ι → α → Parse β}
    (before : Replays b first firsts)
    (later : ∀ {uninit value after}, first ⟨b, uninit⟩ = .done (value, after) →
      Replays after.buffer (next value) fun i => nexts i value) :
    Replays b (first >>= next) fun i => firsts i >>= nexts i where
  -- What the first part uses up is gone when the next part starts.
  returned := by
    intro uninit result after returned
    obtain ⟨value, middle, ran, ended⟩ := Program.bind_eq_done returned
    obtain ⟨used, shifted, replayed⟩ := before.returned ran
    obtain ⟨more, shifted_more, replayed_more⟩ := (later ran).returned ended
    rw [shifted] at shifted_more replayed_more
    refine ⟨used + more, by rw [shifted_more, shift_add], fun i rest => ?_⟩
    rw [splice_add]
    rcases replayed i (splice more (shift used uninit) rest) with done | spent
    · rw [Program.bind_done done]
      exact replayed_more i rest
    · exact .inr (Program.bind_spent spent)
  stopped := by
    intro uninit stopped
    rcases Program.bind_eq_stuck stopped with now | ⟨value, middle, ran, ended⟩
    · obtain ⟨used, replayed⟩ := before.stopped now
      exact ⟨used, fun i => Program.bind_spent (replayed i)⟩
    · obtain ⟨used, shifted, replayed⟩ := before.returned ran
      have rest : ∃ count, ∀ i, nexts i value ⟨middle.buffer, splice count middle.uninit ones⟩ = .spent :=
        (later ran).stopped ended
      obtain ⟨more, replayed_more⟩ := rest
      rw [shifted] at replayed_more
      refine ⟨used + more, fun i => ?_⟩
      rw [splice_add]
      rcases replayed i (splice more (shift used uninit) ones) with done | spent
      · rw [Program.bind_done done]
        exact replayed_more i
      · exact Program.bind_spent spent

/-- Runs that have spent their fuel may stand in a family in the place of others. -/
theorem weaken {part : Parse α} {parts fewer : ι → Parse α} (replays : Replays b part parts)
    (less : ∀ i, fewer i = parts i ∨ fewer i = fun _ => .spent) : Replays b part fewer where
  returned := by
    intro uninit value after returned
    obtain ⟨count, shifted, replayed⟩ := replays.returned returned
    refine ⟨count, shifted, fun i later => ?_⟩
    rcases less i with same | spent
    · rw [same]
      exact replayed i later
    · exact .inr (by rw [spent])
  stopped := by
    intro uninit stopped
    obtain ⟨count, replayed⟩ := replays.stopped stopped
    refine ⟨count, fun i => ?_⟩
    rcases less i with same | spent
    · rw [same]
      exact replayed i
    · rw [spent]

/-- What never looks at an uninitialised value is the same in all of the family. -/
theorem act (run : DataBuffer → α × DataBuffer) :
    Replays b (Program.act fun r => ((run r.buffer).1, ⟨(run r.buffer).2, r.uninit⟩))
      fun _ : ι => Program.act fun r => ((run r.buffer).1, ⟨(run r.buffer).2, r.uninit⟩) where
  returned := by
    intro uninit value after returned
    rw [Program.act_apply, Outcome.done.injEq, Prod.mk.injEq] at returned
    obtain ⟨rfl, rfl⟩ := returned
    exact ⟨0, rfl, fun i later => .inl (by rw [splice_zero, Program.act_apply])⟩
  stopped := fun impossible => absurd impossible (by simp)

/-- A failed read or peek uses up one value. -/
theorem takeUninit (width : Nat) :
    Replays b (Program.act (·.takeUninit width)) fun _ : ι => Program.act (·.takeUninit width) where
  returned := by
    intro uninit value after returned
    rw [Program.act_apply, Outcome.done.injEq, Prod.mk.injEq] at returned
    obtain ⟨rfl, rfl⟩ := returned
    refine ⟨1, rfl, fun i later => .inl ?_⟩
    rw [Program.act_apply, Reader.takeUninit]
    rfl
  stopped := fun impossible => absurd impossible (by simp)

/-- Runs that agree from a buffer replay each other from there. -/
theorem congr {part other : Parse α} {parts others : ι → Parse α} (replays : Replays b part parts)
    (same : ∀ uninit, other ⟨b, uninit⟩ = part ⟨b, uninit⟩)
    (same_all : ∀ i uninit, others i ⟨b, uninit⟩ = parts i ⟨b, uninit⟩) : Replays b other others where
  returned := by
    intro uninit value after returned
    rw [same] at returned
    simp only [same_all]
    exact replays.returned returned
  stopped := by
    intro uninit stopped
    rw [same] at stopped
    simp only [same_all]
    exact replays.stopped stopped

variable (b)

theorem read (width : Nat) :
    Replays b (Program.act (·.read width)) fun _ : ι => Program.act (·.read width) := by
  by_cases admitted : b.canRw (width % wordBound) = true
  · refine congr (act (fun b =>
      (Reader.littleEndian ((b.buffer.drop b.position).take (width % wordBound)),
        { b with position := (b.position + width % wordBound) % wordBound })) (ι := ι)) ?_ ?_
    all_goals
      intros
      rw [Program.act_apply, Program.act_apply, Reader.read_eq, if_pos admitted]
  · refine congr (takeUninit (ι := ι) width) ?_ ?_
    all_goals
      intros
      rw [Program.act_apply, Program.act_apply, Reader.read_eq, if_neg admitted]

theorem peek : Replays b peekU8 fun _ : ι => peekU8 := by
  by_cases admitted : b.canRw (1 % wordBound) = true
  · refine congr (act (fun b =>
      (Reader.littleEndian ((b.buffer.drop b.position).take (1 % wordBound)), b)) (ι := ι)) ?_ ?_
    all_goals
      intros
      rw [peekU8, Program.act_apply, Program.act_apply, Reader.peek_eq, if_pos admitted]
  · refine congr (takeUninit (ι := ι) 1) ?_ ?_
    all_goals
      intros
      rw [peekU8, Program.act_apply, Program.act_apply, Reader.peek_eq, if_neg admitted]

theorem skip : Replays b skipU8 fun _ : ι => skipU8 :=
  act fun b => ((), b.skip 1 1)

theorem atEnd : Replays b eof fun _ : ι => eof := act fun b => (b.eof, b)

theorem chars (env envs : Env) (same : envs.maxSize = env.maxSize) (length : Nat) :
    Replays b (readChars env length) fun _ : ι => readChars envs length := by
  unfold readChars
  rw [same]
  split
  · exact throw _
  · -- Characters never come from an uninitialised local: the string is zeroed before.
    refine congr (act (fun b =>
      if b.canRw (1 * length % wordBound) then
        ((b.buffer.drop b.position).take (1 * length % wordBound),
          { b with position := (b.position + 1 * length % wordBound) % wordBound })
      else (List.replicate length 0, b)) (ι := ι)) ?_ ?_
    all_goals
      intros
      simp only [Program.act_apply, DataBuffer.implRead]
      cases b.canRw (1 * length % wordBound) with
      | true => rfl
      | false => rfl

end Replays

/-! ## Where no header fits any more -/

/-- At a buffer with no room for a header, a value of an unknown type is met, and nothing moves. -/
theorem readValue_starved {b : DataBuffer} (full : b.canRw 4 = false) (env : Env) (fuel : Nat)
    (parent : Json) :
    readValue env fuel parent ⟨b, ones⟩ = .done (parent, ⟨b, ones⟩) ∨
      readValue env fuel parent ⟨b, ones⟩ = .spent := by
  cases fuel with
  | zero => exact .inr rfl
  | succ fuel =>
    left
    -- The header's local holds the type 255 and stays where it is.
    have taken : (⟨b, ones⟩ : Reader).read 4 = (0xFFFFFFFF, ⟨b, ones⟩) := by
      have refused : ¬ b.canRw (4 % wordBound) = true := by
        rw [show 4 % wordBound = 4 by decide, full]
        exact Bool.false_ne_true
      rw [Reader.read_eq, if_neg refused]
      rfl
    obtain ⟨label, header⟩ : ∃ label, readHeader ⟨b, ones⟩ = .done (⟨label, .other 255⟩, ⟨b, ones⟩) := by
      have type : Kind.ofNat (0xFFFFFFFF >>> 24) = .other 255 := rfl
      rw [readHeader, Program.act_bind, taken, Program.pure_apply, type]
      exact ⟨_, rfl⟩
    have unknown : readTyped env (readValue env fuel) fuel (.other 255) = none := rfl
    rw [readValue, Program.bind_done header, eof, Program.act_bind]
    simp only [unknown, ite_self]
    rfl

/-- A test that passed passes again at the same buffer, as long as its values are not zero. -/
theorem test_starved {test : Parse Bool} (either : test = moreFields ∨ test = moreContent)
    {b : DataBuffer} {uninit : Nat → Nat} {head : Reader} (passed : test ⟨b, uninit⟩ = .done (true, head)) :
    head.buffer = b ∧ test ⟨b, ones⟩ = .done (true, ⟨b, ones⟩) := by
  rcases either with rfl | rfl
  · rw [moreFields, peekU8, Program.act_bind, Program.pure_apply, Outcome.done.injEq,
      Prod.mk.injEq] at passed
    obtain ⟨nonzero, rfl⟩ := passed
    rw [moreFields, peekU8, Program.act_bind, Program.pure_apply]
    rw [Reader.peek_eq] at nonzero ⊢
    rw [Reader.peek_eq]
    -- A byte that was there is there again, and a missing one is the ones' 255.
    by_cases admitted : b.canRw (1 % wordBound) = true
    · simp only [admitted, if_true] at nonzero ⊢
      exact ⟨trivial, by rw [nonzero]⟩
    · have taken : (⟨b, ones⟩ : Reader).takeUninit 1 = (255, ⟨b, ones⟩) := by
        simp only [Reader.takeUninit, ones]
        rfl
      simp only [admitted, Bool.false_eq_true, if_false, taken]
      exact ⟨rfl, rfl⟩
  · rw [moreContent_eq, Outcome.done.injEq, Prod.mk.injEq] at passed
    obtain ⟨more, rfl⟩ := passed
    exact ⟨rfl, by
      rw [moreContent_eq]
      exact congrArg (fun passed => Outcome.done (passed, _)) more⟩

/-- A loop that goes on where no header fits goes on for ever. -/
theorem loop_starved {test : Parse Bool} {b : DataBuffer} (full : b.canRw 4 = false)
    (goes_on : test ⟨b, ones⟩ = .done (true, ⟨b, ones⟩)) (maxSize nested fuel : Nat) (value : Json) :
    Program.loop (starving ⟨maxSize, false⟩) test (readValue ⟨maxSize, false⟩ nested) fuel value
      ⟨b, ones⟩ = .spent := by
  -- The induction follows the rounds, each of which ends in the state it began in.
  induction fuel generalizing value with
  | zero => rfl
  | succ fuel ih =>
    rw [Program.loop_succ, Program.bind_done goes_on, if_pos rfl]
    change (readValue ⟨maxSize, false⟩ nested value >>= _) ⟨b, ones⟩ = .spent
    rcases readValue_starved full ⟨maxSize, false⟩ nested value with done | spent
    · rw [Program.bind_done done]
      exact ih value
    · exact Program.bind_spent spent

/-- A strict loop is replayed by loops that are not strict. -/
theorem Replays.loop {ι : Type} {test : Parse Bool} (either : test = moreFields ∨ test = moreContent)
    {maxSize nested : Nat} {fuels : ι → Nat}
    (tested : ∀ b, Replays b test fun _ : ι => test)
    (round : ∀ value b, Replays b (readValue ⟨maxSize, true⟩ nested value)
      fun i => readValue ⟨maxSize, false⟩ (fuels i) value) (fuel : Nat) (rounds : ι → Nat)
    (value : Json) (b : DataBuffer) :
    Replays b (Program.loop (starving ⟨maxSize, true⟩) test (readValue ⟨maxSize, true⟩ nested) fuel value)
      fun i => Program.loop (starving ⟨maxSize, false⟩) test (readValue ⟨maxSize, false⟩ (fuels i))
        (rounds i) value := by
  -- The induction follows the rounds of the strict loop.
  induction fuel generalizing rounds value b with
  | zero => exact ⟨fun impossible => absurd impossible (by simp [Program.loop]),
      fun impossible => absurd impossible (by simp [Program.loop])⟩
  | succ fuel ih =>
    have step : Replays b
        (Program.loop (starving ⟨maxSize, true⟩) test (readValue ⟨maxSize, true⟩ nested) (fuel + 1) value)
        fun i => Program.loop (starving ⟨maxSize, false⟩) test (readValue ⟨maxSize, false⟩ (fuels i))
          (rounds i - 1 + 1) value := by
      simp only [Program.loop_succ]
      refine Replays.bind (tested b) fun {uninit passed head} ran => ?_
      cases passed with
      | false => exact Replays.pure value
      | true =>
        obtain ⟨same, goes_on⟩ := test_starved either ran
        rw [same]
        cases fits : b.canRw 4 with
        | true =>
          refine Replays.congr (Replays.bind (round value b) fun {_ value after} _ =>
            ih (fun i => rounds i - 1) value after.buffer) (fun uninit => ?_) fun i uninit => rfl
          simp only [if_true, Program.guarded, starving, fits, Bool.not_true, Bool.and_false,
            Bool.false_eq_true, if_false]
        | false =>
          -- The strict loop stops here, and the others never get away from here.
          refine ⟨fun {uninit result after} returned => ?_, fun _ => ⟨0, fun i => ?_⟩⟩
          · exact absurd returned (by simp [Program.guarded, starving, fits])
          · rw [splice_zero]
            change (readValue ⟨maxSize, false⟩ (fuels i) value >>= _) ⟨b, ones⟩ = .spent
            rcases readValue_starved fits ⟨maxSize, false⟩ (fuels i) value with done | spent
            · rw [Program.bind_done done]
              exact loop_starved fits goes_on maxSize (fuels i) (rounds i - 1) value
            · exact Program.bind_spent spent
    refine step.weaken fun i => ?_
    cases rounds i with
    | zero => exact .inr rfl
    | succ rest => exact .inl rfl

end Recap.Blaze.Parser
