import Recap.Core.SchedulerRuns

/-! The order in which the worker runs tasks that one thread adds. -/

namespace Recap.Scheduler

/-- The step calls `AddTask`. -/
def AddsTask : SchedulerStep → Bool
  | .addTask _ _ _ => true
  | _ => false

/-- One thread alone adds tasks, fewer of them than there are ids, and nobody calls `Shutdown`. -/
structure OneCaller (thread : Nat) (inputs : List SchedulerStep) : Prop where
  alone : ∀ other delay top, .addTask other delay top ∈ inputs → other = thread
  few : inputs.countP AddsTask < 2 ^ 32
  running : .shutdownStore ∉ inputs

/-- The step takes no task, or one of the queued tasks whose time comes first and has come. -/
def TakesEarliest (s : Scheduler) (input : SchedulerStep) : Prop :=
  ∀ after, s.step input = some after → after.ran = s.ran ∨
    ∃ task ∈ s.tasks, (∀ other ∈ s.tasks, task.executionPoint ≤ other.executionPoint) ∧
      task.executionPoint ≤ s.now ∧ after.ran = s.ran ++ [(task, s.now)]

/-- Tasks run in the order of their times, and not at all if they are cancelled before. -/
structure InOrder (inputs : List SchedulerStep) : Prop where
  not_early : ∀ entry ∈ (Runs.final step initial inputs).ran, entry.1.executionPoint ≤ entry.2
  not_cancelled : ∀ front id back, inputs = front ++ .cancelTask id :: back →
    ∀ task ∈ (Runs.final step initial front).added, task.id = id →
      task ∉ (Runs.final step initial front).ran.map Prod.fst →
        task ∉ (Runs.final step initial inputs).ran.map Prod.fst
  earliest : Runs.Along step TakesEarliest initial inputs

/-! ## The ids of one thread -/

/-- The thread's counter is at the number of tasks that were added, and all of their ids are up to it. -/
structure Numbered (thread : Nat) (s : Scheduler) : Prop where
  running : s.stopping = false
  counter : (s.taskId thread).toNat = s.added.length
  ids : ∀ task ∈ s.added, task.id.toNat ≤ s.added.length

theorem numbered_initial (thread : Nat) : Numbered thread initial :=
  ⟨rfl, rfl, fun _ impossible => absurd impossible List.not_mem_nil⟩

/-- The next id is one more than the counter while it does not wrap around. -/
theorem Numbered.nextId_toNat {thread : Nat} {s : Scheduler} (numbered : Numbered thread s)
    (few : s.added.length + 1 < 2 ^ 32) : (s.nextId thread).toNat = s.added.length + 1 := by
  have counted : (s.taskId thread + 1).toNat = s.added.length + 1 := by
    rw [UInt32.toNat_add, numbered.counter]
    exact Nat.mod_eq_of_lt few
  -- The counter is not at zero, so its value is taken as it is.
  have positive : s.taskId thread + 1 ≠ 0 := fun zero => by
    rw [zero] at counted
    exact absurd counted (Nat.succ_ne_zero _).symm
  rw [nextId, if_neg positive]
  exact counted

/-- The next id is higher than that of every task that was added. -/
theorem Numbered.fresh {thread : Nat} {s : Scheduler} (numbered : Numbered thread s)
    (few : s.added.length + 1 < 2 ^ 32) : s.nextId thread ∉ s.added.map Task.id := by
  intro known
  obtain ⟨task, added, same⟩ := List.mem_map.mp known
  have below := numbered.ids task added
  rw [same, numbered.nextId_toNat few] at below
  exact Nat.not_succ_le_self _ below

/-- A task that is added takes the counter one on. -/
theorem Numbered.withTask {thread : Nat} {s : Scheduler} (numbered : Numbered thread s)
    (few : s.added.length + 1 < 2 ^ 32) (delay : Nat) (top : Bool) :
    Numbered thread (s.withTask thread (s.newTask thread delay) top) := by
  have next := numbered.nextId_toNat few
  have longer : (s.added ++ [s.newTask thread delay]).length = s.added.length + 1 := by simp
  refine ⟨numbered.running, ?_, fun task member => ?_⟩
  · simp only [Scheduler.withTask, Function.update_self]
    exact next.trans longer.symm
  · simp only [Scheduler.withTask, longer]
    rcases List.mem_append.mp member with before | new
    · exact Nat.le_succ_of_le (numbered.ids task before)
    · rw [List.mem_singleton.mp new]
      exact Nat.le_of_eq next

/-- A step that adds no task and does not shut down leaves the counter and the ids as they are. -/
theorem Numbered.keeps {thread : Nat} {s after : Scheduler} {input : SchedulerStep}
    (numbered : Numbered thread s) (running : input ≠ .shutdownStore) (adds : AddsTask input = false)
    (taken : s.step input = some after) : Numbered thread after ∧ after.added = s.added := by
  obtain ⟨-, change⟩ := change_of_step taken
  cases change with
  | stored => exact absurd rfl running
  | added | refused => exact absurd adds (by simp [AddsTask])
  | zero | cancelled | unknown | cleared | notified | lost | clock | went | entered | waits | waitsUntil
  | woke | finished | overran | took | dropped =>
    exact ⟨⟨numbered.running, numbered.counter, numbered.ids⟩, rfl⟩

/-- While one thread adds tasks, none of them is given an id for a second time. -/
theorem Numbered.along {thread : Nat} {inputs : List SchedulerStep} {s : Scheduler}
    (numbered : Numbered thread s)
    (alone : ∀ other delay top, .addTask other delay top ∈ inputs → other = thread)
    (running : .shutdownStore ∉ inputs) (few : s.added.length + inputs.countP AddsTask < 2 ^ 32) :
    Runs.Along step FreshId s inputs := by
  -- What is left of the ids goes down with every task that is added.
  induction inputs generalizing s with
  | nil => trivial
  | cons input rest ih =>
    have alone' := fun other delay top inside => alone other delay top (List.mem_cons_of_mem _ inside)
    have running' : .shutdownStore ∉ rest := fun inside => running (List.mem_cons_of_mem _ inside)
    cases adds : AddsTask input with
    | false =>
      rw [List.countP_cons_of_neg (by simp [adds])] at few
      refine ⟨fun thread delay top same => ?_, fun next taken => ?_⟩
      · rw [same] at adds
        exact absurd adds (by simp [AddsTask])
      · have other : input ≠ .shutdownStore := fun same => running (same ▸ List.mem_cons_self)
        obtain ⟨numbered', same⟩ := numbered.keeps other adds taken
        exact ih numbered' alone' running' (same ▸ few)
    | true =>
      rw [List.countP_cons_of_pos adds] at few
      have room : s.added.length + 1 < 2 ^ 32 := by omega
      refine ⟨fun other delay top same _ => ?_, fun next taken => ?_⟩
      · rw [alone other delay top (same ▸ List.mem_cons_self)]
        exact numbered.fresh room
      · obtain ⟨-, change⟩ := change_of_step taken
        cases change with
        | refused _ _ _ stopping => exact absurd (numbered.running.symm.trans stopping) (by simp)
        | added other delay top =>
          rw [alone other delay top List.mem_cons_self]
          refine ih (numbered.withTask room delay top) alone' running' ?_
          simp only [Scheduler.withTask, List.length_append, List.length_singleton]
          omega
        | _ => exact absurd adds (by simp [AddsTask])

theorem OneCaller.fresh {thread : Nat} {inputs : List SchedulerStep} (caller : OneCaller thread inputs) :
    Runs.Along step FreshId initial inputs :=
  (numbered_initial thread).along caller.alone caller.running (by simpa [initial] using caller.few)

/-! ## What is cancelled and what is taken -/

/-- The task was added and not run, and its id is not one of those that are still to run. -/
structure Dead (task : Task) (s : Scheduler) : Prop where
  added : task ∈ s.added
  cancelled : task.id ∉ s.taskIds
  not_ran : task ∉ s.ran.map Prod.fst

/-- A task whose id is gone is never run, while no other task is given its id. -/
theorem Dead.keeps {task : Task} {s after : Scheduler} {input : SchedulerStep} (dead : Dead task s)
    (fresh : s.FreshId input) (taken : s.step input = some after) : Dead task after := by
  obtain ⟨-, change⟩ := change_of_step taken
  cases change with
  | added thread delay top open_ =>
    refine ⟨List.mem_append_left _ dead.added, fun live => ?_, dead.not_ran⟩
    -- The new id is not that of the dead task.
    rcases Finset.mem_insert.mp live with same | before
    · have missing : s.nextId thread ∉ s.added.map Task.id := fresh thread delay top rfl open_
      have named : (s.newTask thread delay).id = s.nextId thread := rfl
      rw [← named, ← same] at missing
      exact missing (List.mem_map_of_mem dead.added)
    · exact dead.cancelled before
  | cancelled | unknown =>
    exact ⟨dead.added, fun live => dead.cancelled (Finset.mem_of_mem_erase live), dead.not_ran⟩
  | cleared => exact ⟨dead.added, Finset.notMem_empty _, dead.not_ran⟩
  | took place deadline other waited over_ queued earliest live =>
    refine ⟨dead.added, fun live => dead.cancelled (Finset.mem_of_mem_erase live), fun ran => ?_⟩
    rw [List.map_append, List.map_singleton] at ran
    -- Only a task whose id is still there is run.
    rcases List.mem_append.mp ran with before | new
    · exact dead.not_ran before
    · rw [List.mem_singleton.mp new] at dead
      exact dead.cancelled live
  | refused | zero | stored | notified | lost | clock | went | entered | waits | waitsUntil | woke
  | finished | overran | dropped => exact ⟨dead.added, dead.cancelled, dead.not_ran⟩

/-- A task that is cancelled before it is taken is not run. -/
theorem dead_of_cancel {task : Task} {s after : Scheduler} (added : task ∈ s.added) (nonzero : task.id ≠ 0)
    (not_ran : task ∉ s.ran.map Prod.fst) (taken : s.step (.cancelTask task.id) = some after) :
    Dead task after := by
  obtain ⟨-, change⟩ := change_of_step taken
  generalize same : task.id = id at change
  cases change with
  | zero => exact absurd same nonzero
  | unknown _ unknown => exact absurd (same ▸ List.mem_map_of_mem added) unknown
  | cancelled => exact ⟨added, same ▸ Finset.notMem_erase _ _, not_ran⟩

/-- A task's id is never zero, which is what `AddTask` returns when it adds none. -/
def Named (s : Scheduler) : Prop :=
  ∀ task ∈ s.added, task.id ≠ 0

theorem named_kept : Runs.Kept step Named := by
  intro s input after named taken
  obtain ⟨-, change⟩ := change_of_step taken
  cases change with
  | added thread delay top =>
    intro task member
    rcases List.mem_append.mp member with before | new
    · exact named task before
    · rw [List.mem_singleton.mp new]
      -- A counter that wraps around goes on with one.
      show s.nextId thread ≠ 0
      unfold nextId
      split
      · decide
      · rename_i nonzero
        exact nonzero
  | refused | zero | cancelled | unknown | stored | cleared | notified | lost | clock | went | entered
  | waits | waitsUntil | woke | finished | overran | took | dropped => exact named

/-- A step of a scheduler that keeps account of its tasks takes the earliest of them. -/
theorem Accounted.takesEarliest {s : Scheduler} (both : s.Sound ∧ s.Accounted) (input : SchedulerStep) :
    s.TakesEarliest input := by
  intro after taken
  obtain ⟨-, change⟩ := change_of_step taken
  cases change with
  | took place deadline task waited over_ queued earliest live =>
    have member := List.mem_of_getElem? queued
    have first := earliest_iff.mp earliest
    obtain ⟨awaited, present, early⟩ := both.1.awaited deadline waited (both.1.full member)
    -- The wait was for a task that is still there, which the one at the top is not later than.
    exact .inr ⟨task, member, first, Nat.le_trans (first awaited present) (Nat.le_trans early over_), rfl⟩
  | refused | zero | cancelled | unknown | added | stored | cleared | notified | lost | clock | went
  | entered | waits | waitsUntil | woke | finished | overran | dropped => exact .inl rfl

/--
Over every interleaving in which one thread adds tasks, no task runs before its time or after it was
cancelled, and each one that runs is the earliest of those that were queued.
-/
theorem inOrder_of_oneCaller (thread : Nat) (inputs : List SchedulerStep)
    (caller : OneCaller thread inputs) : InOrder inputs where
  not_early := (accounted_of_fresh caller.fresh).2.timely
  not_cancelled := by
    rintro front id back rfl task added rfl not_ran
    have named : task.id ≠ 0 := named_kept.final front (by simp [Named, initial]) task added
    rcases caller.fresh.back with stays | ⟨onward, goes⟩
    · rwa [stays]
    · rw [goes]
      -- The run goes on with the call, which leaves the task dead for the rest of it.
      simp only [Runs.final]
      split
      · rename_i next taken
        exact (Runs.Along.final (Dead task) (fun _ _ _ dead fresh taken => dead.keeps fresh taken)
          (dead_of_cancel added named not_ran taken) (onward.2 next taken)).not_ran
      · exact not_ran
  earliest :=
    caller.fresh.imp (fun _ _ _ both fresh taken => accounted_kept both fresh taken)
      (fun _ input both _ => Accounted.takesEarliest both input) ⟨sound_initial, accounted_initial⟩

/-- One thread adds two tasks, cancels one of them, and the other one runs when its time has come. -/
theorem inOrder_of_oneCaller_two :
    InOrder [.addTask 7 5 true, .addTask 7 3 true, .cancelTask 1, .test, .enter, .clock 4, .timeout 1] :=
  inOrder_of_oneCaller 7 _ ⟨by simp; omega, by decide, by decide⟩

end Recap.Scheduler
