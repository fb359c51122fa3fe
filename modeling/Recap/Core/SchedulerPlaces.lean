import Recap.Core.SchedulerOrder

/-! Where the scheduler's tasks are, and which one it runs, whatever their ids. -/

namespace Recap.Scheduler

/-- The task that the worker runs. -/
def running (s : Scheduler) : Option Task :=
  match s.worker with
  | .running task => some task
  | _ => none

/-- What a step does to the task that the worker runs and to the record of those that it took. -/
inductive Turn (s : Scheduler) : SchedulerStep → Scheduler → Prop where
  | same {input : SchedulerStep} {after : Scheduler} (other : input ≠ .finish)
      (ran : after.ran = s.ran) (running : after.running = s.running) : Turn s input after
  | took {after : Scheduler} (place : Nat) (task : Task) (idle : s.running = none)
      (running : after.running = some task) (ran : after.ran = s.ran ++ [(task, s.now)]) :
      Turn s (.timeout place) after
  | finished {after : Scheduler} (task : Task) (running : s.running = some task)
      (idle : after.running = none) (ran : after.ran = s.ran) : Turn s .finish after

/-- A step takes a task, finishes one, or does neither. -/
theorem turn_of_step {s after : Scheduler} {input : SchedulerStep} (taken : s.step input = some after) :
    Turn s input after := by
  obtain ⟨-, change⟩ := change_of_step taken
  cases change with
  | refused | zero | clock | added | cancelled | unknown | stored | cleared | notified | lost =>
    exact .same (by simp) rfl rfl
  | went testing | entered testing => exact .same (by simp) rfl (by simp [running, testing])
  | waits entering | waitsUntil entering => exact .same (by simp) rfl (by simp [running, entering])
  | woke waiting =>
    rcases waiting with waits | ⟨deadline, waits⟩ <;>
      exact .same (by simp) rfl (by simp [running, waits])
  | finished task runs => exact .finished task (by simp [running, runs]) rfl rfl
  | overran place deadline waited | dropped place deadline task waited =>
    exact .same (by simp) rfl (by simp [running, waited])
  | took place deadline task waited => exact .took place task (by simp [running, waited]) rfl rfl

/-- Where every task is, when nothing is said of their ids. -/
structure Placed (s : Scheduler) : Prop where
  numbers : s.added.map Task.number = List.range s.added.length
  queued : ∀ task ∈ s.tasks, task ∈ s.added
  queued_once : s.tasks.Nodup
  ran : ∀ entry ∈ s.ran, entry.1 ∈ s.added
  ran_once : (s.ran.map Prod.fst).Nodup
  apart : ∀ task ∈ s.tasks, task ∉ s.ran.map Prod.fst
  timely : ∀ entry ∈ s.ran, entry.1.executionPoint ≤ entry.2
  running : ∀ task, s.running = some task → task ∈ s.ran.map Prod.fst

theorem placed_initial : Placed initial := by
  constructor <;> simp [initial, Scheduler.running]

/-- A task that was added has a number below that of the next one. -/
theorem Placed.number_lt {s : Scheduler} (placed : s.Placed) {task : Task} (added : task ∈ s.added) :
    task.number < s.added.length := by
  have member := List.mem_map_of_mem (f := Task.number) added
  rwa [placed.numbers, List.mem_range] at member

/-- A task that is added is queued, and was neither queued nor run before. -/
theorem Placed.withTask {s : Scheduler} (placed : s.Placed) (thread delay : Nat) (top : Bool) :
    (s.withTask thread (s.newTask thread delay) top).Placed := by
  have new : s.newTask thread delay ∉ s.added := fun member =>
    Nat.lt_irrefl _ (placed.number_lt member)
  refine ⟨?_, ?_, ?_, fun entry member => List.mem_append_left _ (placed.ran entry member),
    placed.ran_once, ?_, placed.timely, placed.running⟩
  · simp only [Scheduler.withTask, List.map_append, List.map_singleton, placed.numbers,
      List.length_append, List.length_singleton, List.range_succ]
    rfl
  · intro task member
    rcases List.mem_append.mp member with before | last
    · exact List.mem_append_left _ (placed.queued task before)
    · exact List.mem_append_right _ last
  · refine List.Nodup.append placed.queued_once (List.nodup_singleton _) ?_
    intro task before last
    exact new (List.mem_singleton.mp last ▸ placed.queued task before)
  · intro task member ran
    rcases List.mem_append.mp member with before | last
    · exact placed.apart task before ran
    · obtain ⟨entry, inside, same⟩ := List.mem_map.mp ran
      rw [List.mem_singleton.mp last] at same
      exact new (same ▸ placed.ran entry inside)

/-- A task that is taken goes from the queue to the record, and not before its time. -/
theorem Placed.took {s : Scheduler} (placed : s.Placed) (sound : s.Sound) {place deadline : Nat}
    {task : Task} (waited : s.worker = .waitingUntil deadline) (over_ : deadline ≤ s.now)
    (queued : s.tasks[place]? = some task) (earliest : Earliest s.tasks task) :
    Placed { s with
      tasks := s.tasks.eraseIdx place
      taskIds := s.taskIds.erase task.id
      worker := .running task
      ran := s.ran ++ [(task, s.now)] } := by
  have member := List.mem_of_getElem? queued
  have rest : ∀ other ∈ s.tasks.eraseIdx place, other ∈ s.tasks := fun other inside =>
    List.mem_of_mem_eraseIdx inside
  -- The wait was for a task that is still there, which the one at the top is not later than.
  obtain ⟨awaited, present, early⟩ := sound.awaited deadline waited (sound.full member)
  have due := Nat.le_trans (earliest_iff.mp earliest awaited present) (Nat.le_trans early over_)
  refine ⟨placed.numbers, fun other inside => placed.queued other (rest other inside),
    placed.queued_once.sublist (List.eraseIdx_sublist _ _), ?_, ?_, ?_, ?_, ?_⟩
  · intro entry inside
    rcases List.mem_append.mp inside with before | last
    · exact placed.ran entry before
    · rw [List.mem_singleton.mp last]
      exact placed.queued task member
  · rw [List.map_append, List.map_singleton]
    refine List.Nodup.append placed.ran_once (List.nodup_singleton _) ?_
    intro other before last
    rw [List.mem_singleton.mp last] at before
    exact placed.apart task member before
  · intro other inside ran
    rw [List.map_append, List.map_singleton] at ran
    rcases List.mem_append.mp ran with before | last
    · exact placed.apart other (rest other inside) before
    · -- The task itself is at no other place of the queue.
      obtain ⟨within, same⟩ := List.getElem?_eq_some_iff.mp queued
      rw [← placed.queued_once.erase_getElem place within, same, List.mem_singleton.mp last] at inside
      exact (placed.queued_once.mem_erase_iff.mp inside).1 rfl
  · intro entry inside
    rcases List.mem_append.mp inside with before | last
    · exact placed.timely entry before
    · rw [List.mem_singleton.mp last]
      exact due
  · intro other runs
    rw [List.map_append, List.map_singleton]
    exact List.mem_append_right _ (List.mem_singleton.mpr (Option.some.inj runs).symm)

/-- Every step keeps all tasks in their places. -/
theorem placed_kept {s after : Scheduler} {input : SchedulerStep} (both : s.Sound ∧ s.Placed)
    (taken : s.step input = some after) : after.Sound ∧ after.Placed := by
  obtain ⟨sound, placed⟩ := both
  refine ⟨sound_kept s input after sound taken, ?_⟩
  obtain ⟨-, change⟩ := change_of_step taken
  cases change with
  | refused | zero => exact placed
  | clock | cancelled | unknown | stored | notified | lost => exact { placed with }
  | added thread delay top => exact placed.withTask thread delay top
  | cleared => exact { placed with
      queued := fun _ impossible => absurd impossible List.not_mem_nil
      queued_once := List.nodup_nil
      apart := fun _ impossible => absurd impossible List.not_mem_nil }
  | went | entered | waits | waitsUntil | woke | finished | overran =>
    exact { placed with running := fun task runs => absurd runs (by simp [running]) }
  | took place deadline task waited over_ queued earliest =>
    exact placed.took sound waited over_ queued earliest
  | dropped place deadline task =>
    exact { placed with
      queued := fun other inside => placed.queued other (List.mem_of_mem_eraseIdx inside)
      queued_once := placed.queued_once.sublist (List.eraseIdx_sublist _ _)
      apart := fun other inside => placed.apart other (List.mem_of_mem_eraseIdx inside)
      running := fun task runs => absurd runs (by simp [running]) }

end Recap.Scheduler
