import Mathlib

/-! The scheduler: tasks ordered by time, the worker that runs them, and the threads that call it. -/

namespace Recap

/-- `Task`, told apart from all others by the number of the call that added it. -/
structure Task where
  number : Nat
  id : UInt32
  executionPoint : Nat
  deriving DecidableEq, Repr

/-- Where the worker's thread is. -/
inductive Worker where
  /-- At the test of its loop, without the lock. -/
  | testing
  /-- Past the test, about to take the lock. -/
  | entering
  /-- In `wait`, without the lock. -/
  | waiting
  /-- In `wait_until`, without the lock. -/
  | waitingUntil (deadline : Nat)
  /-- Running a task, without the lock. -/
  | running (task : Task)
  /-- Behind its loop. -/
  | left
  /-- Behind a `top` or `pop` of an empty queue, which is undefined. -/
  | undefined
  deriving DecidableEq, Repr

/-- `Scheduler`, with the calls that are under way and a record of what was done so far. -/
structure Scheduler where
  /-- The queued tasks, in no particular order. -/
  tasks : List Task
  taskIds : Finset UInt32
  /-- Whether `mState` has been set, which is what stops the worker. -/
  stopping : Bool
  worker : Worker
  /-- Whether the worker's wait has been notified. -/
  signalled : Bool
  /-- How many calls have left the lock and are still to notify. -/
  notifies : Nat
  /-- The thread-local counters that ids are taken from. -/
  taskId : Nat → UInt32
  /-- What the system clock shows. -/
  now : Nat
  /-- Every task that was added, in order. -/
  added : List Task
  /-- The tasks that the worker took to run, with the time at which it did. -/
  ran : List (Task × Nat)
  /-- The ids that tasks were cancelled by. -/
  cancelled : List UInt32
  /-- Whether a shutdown has emptied the queue. -/
  emptied : Bool

/-- One step of the worker, of a thread that calls the scheduler, or of the clock. -/
inductive SchedulerStep where
  /-- A thread calls `AddTask`, and finds its task at the top of the queue or not. -/
  | addTask (thread delay : Nat) (top : Bool)
  | cancelTask (id : UInt32)
  /-- `Shutdown` sets the state, which it does without the lock. -/
  | shutdownStore
  /-- `Shutdown` empties the queue under the lock. -/
  | shutdownClear
  /-- One of the calls that are still to notify does so. -/
  | notify
  /-- The clock shows another time, not always a later one. -/
  | clock (now : Nat)
  /-- The worker tests the state. -/
  | test
  /-- The worker takes the lock and starts to wait. -/
  | enter
  /-- The worker's wait returns without a timeout, notified or not. -/
  | wake
  /-- The worker's wait times out, and it takes the task at the given place from the queue. -/
  | timeout (place : Nat)
  /-- The worker is done with the task it runs. -/
  | finish
  deriving DecidableEq, Repr

namespace Scheduler

/-- The scheduler as it is constructed, with its worker about to test the state. -/
def initial : Scheduler where
  tasks := []
  taskIds := ∅
  stopping := false
  worker := .testing
  signalled := false
  notifies := 0
  taskId := fun _ => 0
  now := 0
  added := []
  ran := []
  cancelled := []
  emptied := false

/-- The id that a thread gives to its next task, which is never zero. -/
def nextId (s : Scheduler) (thread : Nat) : UInt32 :=
  if s.taskId thread + 1 = 0 then 1 else s.taskId thread + 1

/-- The task that a call of `AddTask` makes. -/
def newTask (s : Scheduler) (thread delay : Nat) : Task :=
  ⟨s.added.length, s.nextId thread, s.now + delay⟩

/-- `TaskComparator`, by which the queue puts the left task below the right one. -/
def taskComparator (lhs rhs : Task) : Bool := lhs.executionPoint > rhs.executionPoint

/-- Whether a task is one that the queue may have at its top: it is below no other one. -/
def Earliest (tasks : List Task) (task : Task) : Prop :=
  ∀ other ∈ tasks, taskComparator task other = false

instance (tasks : List Task) (task : Task) : Decidable (Earliest tasks task) :=
  inferInstanceAs (Decidable (∀ other ∈ tasks, _))

/-- The task at the top of the queue is one whose time comes no later than that of any other. -/
theorem earliest_iff {tasks : List Task} {task : Task} :
    Earliest tasks task ↔ ∀ other ∈ tasks, task.executionPoint ≤ other.executionPoint := by
  simp only [Earliest, taskComparator, gt_iff_lt, decide_eq_false_iff_not, Nat.not_lt]

/-- `AddTask` under the lock, where the task may be at the top only if no other one is earlier. -/
def addTask (s : Scheduler) (thread delay : Nat) (top : Bool) : Option Scheduler :=
  if s.stopping then some s else
  let task := s.newTask thread delay
  let added : Scheduler := { s with
    taskId := Function.update s.taskId thread task.id
    taskIds := insert task.id s.taskIds
    tasks := s.tasks ++ [task]
    added := s.added ++ [task]
    notifies := if top then s.notifies + 1 else s.notifies }
  if top then
    if Earliest s.tasks task then some added else none
  else
    -- Some other task is at the top instead, so it is not later than this one.
    if ∃ other ∈ s.tasks, other.executionPoint ≤ task.executionPoint then some added else none

/-- `CancelTask`, called with any id, of which only those that `AddTask` has returned are recorded. -/
def cancelTask (s : Scheduler) (id : UInt32) : Option Scheduler :=
  if id = 0 then some s
  else some { s with
    taskIds := s.taskIds.erase id
    cancelled := if id ∈ s.added.map Task.id then s.cancelled ++ [id] else s.cancelled }

/-- The worker's part under the lock up to its wait. -/
def enter (s : Scheduler) : Option Scheduler :=
  match s.worker with
  | .entering =>
    match (s.tasks.map Task.executionPoint).min? with
    | none => some { s with worker := .waiting, signalled := false }
    | some deadline => some { s with worker := .waitingUntil deadline, signalled := false }
  | _ => none

/-- The worker's part under the lock after its wait timed out. -/
def timeout (s : Scheduler) (place : Nat) : Option Scheduler :=
  match s.worker with
  | .waitingUntil deadline =>
    if deadline ≤ s.now then
      if s.tasks.isEmpty then some { s with worker := .undefined }
      else
        match s.tasks[place]? with
        | none => none
        | some task =>
          if Earliest s.tasks task then
            if task.id ∈ s.taskIds then
              some { s with
                tasks := s.tasks.eraseIdx place
                taskIds := s.taskIds.erase task.id
                worker := .running task
                ran := s.ran ++ [(task, s.now)] }
            else some { s with tasks := s.tasks.eraseIdx place, worker := .testing }
          else none
    else none
  | _ => none

/-- One step of a scheduler whose behaviour is still defined, where the step can be taken. -/
def advance (s : Scheduler) : SchedulerStep → Option Scheduler
  | .addTask thread delay top => s.addTask thread delay top
  | .cancelTask id => s.cancelTask id
  | .shutdownStore => some { s with stopping := true }
  | .shutdownClear =>
    if s.stopping then
      some { s with tasks := [], taskIds := ∅, emptied := true, notifies := s.notifies + 1 }
    else none
  | .notify =>
    if 0 < s.notifies then
      match s.worker with
      | .waiting | .waitingUntil _ => some { s with notifies := s.notifies - 1, signalled := true }
      -- Nobody is waiting, so the notification is lost.
      | _ => some { s with notifies := s.notifies - 1 }
    else none
  | .clock now => some { s with now := now }
  | .test =>
    match s.worker with
    | .testing => some { s with worker := if s.stopping then .left else .entering }
    | _ => none
  | .enter => s.enter
  | .wake =>
    match s.worker with
    | .waiting | .waitingUntil _ => some { s with worker := .testing }
    | _ => none
  | .timeout place => s.timeout place
  | .finish =>
    match s.worker with
    | .running _ => some { s with worker := .testing }
    | _ => none

/-- One step of the scheduler. A run ends where its behaviour is undefined. -/
def step (s : Scheduler) (input : SchedulerStep) : Option Scheduler :=
  if s.worker = .undefined then none else s.advance input

/-- Steps that the worker takes by itself: it never returns from a wait without a reason. -/
def Driven (s : Scheduler) : SchedulerStep → Prop
  | .notify | .test | .enter | .finish | .timeout _ => True
  | .wake => s.signalled = true
  | _ => False

/-- The worker takes some number of steps by itself, while nobody calls the scheduler. -/
inductive Drives : Scheduler → Nat → Scheduler → Prop where
  | rest (s : Scheduler) : Drives s 0 s
  | step {s next after : Scheduler} {count : Nat} (input : SchedulerStep) (driven : s.Driven input)
      (taken : s.step input = some next) (drives : Drives next count after) : Drives s (count + 1) after

end Scheduler
end Recap
