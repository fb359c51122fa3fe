import Recap.Core.Scheduler
import Recap.Lib.Runs

/-! What the scheduler's worker does over every interleaving of its callers. -/

namespace Recap.Scheduler

/-- The scheduler with a task added to it. -/
def withTask (s : Scheduler) (thread : Nat) (task : Task) (top : Bool) : Scheduler :=
  { s with
    taskId := Function.update s.taskId thread task.id
    taskIds := insert task.id s.taskIds
    tasks := s.tasks ++ [task]
    added := s.added ++ [task]
    notifies := if top then s.notifies + 1 else s.notifies }

/-- Everything that a step can do. -/
inductive Change (s : Scheduler) : SchedulerStep → Scheduler → Prop where
  | refused (thread delay : Nat) (top : Bool) (stopping : s.stopping = true) :
      Change s (.addTask thread delay top) s
  | added (thread delay : Nat) (top : Bool) (open_ : s.stopping = false)
      (others : top = false → ∃ other ∈ s.tasks,
        other.executionPoint ≤ (s.newTask thread delay).executionPoint) :
      Change s (.addTask thread delay top) (s.withTask thread (s.newTask thread delay) top)
  | zero : Change s (.cancelTask 0) s
  | cancelled (id : UInt32) (known : id ∈ s.added.map Task.id) :
      Change s (.cancelTask id) { s with
        taskIds := s.taskIds.erase id, cancelled := s.cancelled ++ [id] }
  | unknown (id : UInt32) (unknown : id ∉ s.added.map Task.id) :
      Change s (.cancelTask id) { s with taskIds := s.taskIds.erase id }
  | stored : Change s .shutdownStore { s with stopping := true }
  | cleared (stopping : s.stopping = true) : Change s .shutdownClear { s with
      tasks := [], taskIds := ∅, emptied := true, notifies := s.notifies + 1 }
  | notified (some_left : 0 < s.notifies)
      (waiting : s.worker = .waiting ∨ ∃ deadline, s.worker = .waitingUntil deadline) :
      Change s .notify { s with notifies := s.notifies - 1, signalled := true }
  | lost (some_left : 0 < s.notifies)
      (awake : s.worker ≠ .waiting ∧ ∀ deadline, s.worker ≠ .waitingUntil deadline) :
      Change s .notify { s with notifies := s.notifies - 1 }
  | clock (now : Nat) : Change s (.clock now) { s with now := now }
  | went (testing : s.worker = .testing) (stopping : s.stopping = true) :
      Change s .test { s with worker := .left }
  | entered (testing : s.worker = .testing) : Change s .test { s with worker := .entering }
  | waits (entering : s.worker = .entering) (empty : s.tasks = []) :
      Change s .enter { s with worker := .waiting, signalled := false }
  | waitsUntil (entering : s.worker = .entering) (task : Task) (queued : task ∈ s.tasks)
      (earliest : Earliest s.tasks task) :
      Change s .enter { s with worker := .waitingUntil task.executionPoint, signalled := false }
  | woke (waiting : s.worker = .waiting ∨ ∃ deadline, s.worker = .waitingUntil deadline) :
      Change s .wake { s with worker := .testing }
  | finished (task : Task) (running : s.worker = .running task) :
      Change s .finish { s with worker := .testing }
  | overran (place deadline : Nat) (waited : s.worker = .waitingUntil deadline)
      (over_ : deadline ≤ s.now) (empty : s.tasks = []) :
      Change s (.timeout place) { s with worker := .undefined }
  | took (place deadline : Nat) (task : Task) (waited : s.worker = .waitingUntil deadline)
      (over_ : deadline ≤ s.now) (queued : s.tasks[place]? = some task) (earliest : Earliest s.tasks task)
      (live : task.id ∈ s.taskIds) :
      Change s (.timeout place) { s with
        tasks := s.tasks.eraseIdx place
        taskIds := s.taskIds.erase task.id
        worker := .running task
        ran := s.ran ++ [(task, s.now)] }
  | dropped (place deadline : Nat) (task : Task) (waited : s.worker = .waitingUntil deadline)
      (over_ : deadline ≤ s.now) (queued : s.tasks[place]? = some task)
      (dead : task.id ∉ s.taskIds) :
      Change s (.timeout place) { s with tasks := s.tasks.eraseIdx place, worker := .testing }

/-- The execution point that a queue gives to `wait_until` is that of an earliest task. -/
theorem earliest_of_min {tasks : List Task} {deadline : Nat}
    (least : (tasks.map Task.executionPoint).min? = some deadline) :
    ∃ task ∈ tasks, Earliest tasks task ∧ task.executionPoint = deadline := by
  obtain ⟨member, below⟩ := List.min?_eq_some_iff.mp least
  obtain ⟨task, queued, same⟩ := List.mem_map.mp member
  refine ⟨task, queued, earliest_iff.mpr fun other inside => ?_, same⟩
  rw [same]
  exact below _ (List.mem_map_of_mem inside)

theorem change_of_addTask {s after : Scheduler} {thread delay : Nat} {top : Bool}
    (taken : s.addTask thread delay top = some after) : Change s (.addTask thread delay top) after := by
  simp only [addTask] at taken
  split at taken
  · rename_i stopping
    rw [← Option.some.inj taken]
    exact .refused thread delay top stopping
  · rename_i open_
    cases top with
    | true =>
      simp only [if_true] at taken
      split at taken
      · rw [← Option.some.inj taken]
        exact .added thread delay true (by simpa using open_) (by simp)
      · exact absurd taken (by simp)
    | false =>
      simp only [Bool.false_eq_true, if_false] at taken
      split at taken
      · rename_i others
        rw [← Option.some.inj taken]
        exact .added thread delay false (by simpa using open_) fun _ => others
      · exact absurd taken (by simp)

theorem change_of_cancelTask {s after : Scheduler} {id : UInt32}
    (taken : s.cancelTask id = some after) : Change s (.cancelTask id) after := by
  simp only [cancelTask] at taken
  split at taken
  · rename_i zero
    rw [← Option.some.inj taken, zero]
    exact .zero
  · rw [← Option.some.inj taken]
    -- Only an id that some task was given is recorded as cancelled.
    by_cases known : id ∈ s.added.map Task.id
    · rw [if_pos known]
      exact .cancelled id known
    · rw [if_neg known]
      exact .unknown id known

theorem change_of_notify {s after : Scheduler} (taken : s.advance .notify = some after) :
    Change s .notify after := by
  simp only [advance] at taken
  split at taken
  · rename_i some_left
    split at taken
    · rename_i waiting
      rw [← Option.some.inj taken]
      exact .notified some_left (.inl waiting)
    · rename_i deadline waiting
      rw [← Option.some.inj taken]
      exact .notified some_left (.inr ⟨deadline, waiting⟩)
    · rename_i not_waiting not_until
      rw [← Option.some.inj taken]
      exact .lost some_left ⟨not_waiting, not_until⟩
  · exact absurd taken (by simp)

theorem change_of_enter {s after : Scheduler} (taken : s.enter = some after) :
    Change s .enter after := by
  simp only [enter] at taken
  split at taken
  · rename_i entering
    split at taken
    · rename_i empty
      rw [← Option.some.inj taken]
      exact .waits entering (by simpa using empty)
    · -- The point that the worker waits until is that of a task in the queue.
      rename_i deadline least
      obtain ⟨task, queued, earliest, same⟩ := earliest_of_min least
      rw [← Option.some.inj taken, ← same]
      exact .waitsUntil entering task queued earliest
  · exact absurd taken (by simp)

theorem change_of_timeout {s after : Scheduler} {place : Nat}
    (taken : s.timeout place = some after) : Change s (.timeout place) after := by
  simp only [timeout] at taken
  split at taken
  · rename_i deadline waited
    split at taken
    · rename_i over_
      split at taken
      · -- A shutdown has emptied the queue since the wait began.
        rename_i empty
        rw [← Option.some.inj taken]
        exact .overran place deadline waited over_ (by simpa using empty)
      · split at taken
        · exact absurd taken (by simp)
        · rename_i task queued
          split at taken
          · rename_i earliest
            split at taken
            · rename_i live
              rw [← Option.some.inj taken]
              exact .took place deadline task waited over_ queued earliest live
            · rename_i dead
              rw [← Option.some.inj taken]
              exact .dropped place deadline task waited over_ queued dead
          · exact absurd taken (by simp)
    · exact absurd taken (by simp)
  · exact absurd taken (by simp)

/-- A step that is taken makes one of the changes. -/
theorem change_of_step {s after : Scheduler} {input : SchedulerStep} (taken : s.step input = some after) :
    s.worker ≠ .undefined ∧ Change s input after := by
  unfold step at taken
  split at taken
  · exact absurd taken (by simp)
  rename_i defined
  refine ⟨defined, ?_⟩
  cases input with
  | addTask thread delay top => exact change_of_addTask taken
  | cancelTask id => exact change_of_cancelTask taken
  | shutdownStore =>
    rw [← Option.some.inj taken]
    exact .stored
  | shutdownClear =>
    simp only [advance] at taken
    split at taken
    · rename_i stopping
      rw [← Option.some.inj taken]
      exact .cleared stopping
    · exact absurd taken (by simp)
  | notify => exact change_of_notify taken
  | clock now =>
    rw [← Option.some.inj taken]
    exact .clock now
  | test =>
    simp only [advance] at taken
    split at taken
    · rename_i testing
      rw [← Option.some.inj taken]
      by_cases stopping : s.stopping = true
      · rw [if_pos stopping]
        exact .went testing stopping
      · rw [if_neg stopping]
        exact .entered testing
    · exact absurd taken (by simp)
  | enter => exact change_of_enter taken
  | wake =>
    simp only [advance] at taken
    split at taken
    · rename_i waiting
      rw [← Option.some.inj taken]
      exact .woke (.inl waiting)
    · rename_i deadline waiting
      rw [← Option.some.inj taken]
      exact .woke (.inr ⟨deadline, waiting⟩)
    · exact absurd taken (by simp)
  | timeout place => exact change_of_timeout taken
  | finish =>
    simp only [advance] at taken
    split at taken
    · rename_i task running
      rw [← Option.some.inj taken]
      exact .finished task running
    · exact absurd taken (by simp)

/-- What holds of the worker's wait and of a shutdown, whatever ids the tasks have. -/
structure Sound (s : Scheduler) : Prop where
  /-- A timed wait has a task to wait for, unless a shutdown took it away. -/
  awaited : ∀ deadline, s.worker = .waitingUntil deadline → s.emptied = false →
    ∃ task ∈ s.tasks, task.executionPoint ≤ deadline
  emptied : s.emptied = true → s.tasks = [] ∧ s.stopping = true
  left : s.worker = .left → s.stopping = true
  defined : s.worker = .undefined → s.emptied = true

theorem sound_initial : Sound initial :=
  ⟨by simp [initial], by simp [initial], by simp [initial], by simp [initial]⟩

/-- Every step keeps the worker's wait sound. -/
theorem sound_kept : Runs.Kept step Sound := by
  intro s input after sound taken
  obtain ⟨defined, change⟩ := change_of_step taken
  cases change with
  | refused | zero => exact sound
  | clock | cancelled | unknown => exact ⟨sound.awaited, sound.emptied, sound.left, sound.defined⟩
  | added thread delay top open_ others =>
    refine ⟨fun deadline waited full => ?_, fun emptied => ?_, sound.left, sound.defined⟩
    · obtain ⟨task, queued, early⟩ := sound.awaited deadline waited full
      exact ⟨task, List.mem_append_left _ queued, early⟩
    · have stopping := (sound.emptied emptied).2
      exact absurd (stopping.symm.trans open_) (by decide)
  | stored => exact ⟨sound.awaited, fun emptied => ⟨(sound.emptied emptied).1, rfl⟩, fun _ => rfl,
      sound.defined⟩
  | cleared stopping => exact ⟨fun _ _ impossible => absurd impossible (by simp), fun _ => ⟨rfl, stopping⟩,
      sound.left, fun _ => rfl⟩
  | notified | lost => exact ⟨sound.awaited, sound.emptied, sound.left, sound.defined⟩
  | went testing stopping => exact ⟨by simp, sound.emptied, fun _ => stopping, by simp⟩
  | entered | woke | finished => exact ⟨by simp, sound.emptied, by simp, by simp⟩
  | waits => exact ⟨by simp, sound.emptied, by simp, by simp⟩
  | waitsUntil entering task queued earliest =>
    refine ⟨fun deadline waited _ => ?_, sound.emptied, by simp, by simp⟩
    exact ⟨task, queued, by rw [Worker.waitingUntil.inj waited]⟩
  | overran place deadline waited over_ empty =>
    refine ⟨by simp, sound.emptied, by simp, fun _ => ?_⟩
    -- Nothing but a shutdown can have taken the awaited task away.
    by_contra full
    obtain ⟨task, queued, -⟩ := sound.awaited deadline waited (by simpa using full)
    exact absurd (empty ▸ queued) List.not_mem_nil
  | took place deadline task waited over_ queued earliest live =>
    refine ⟨by simp, fun emptied => ?_, by simp, by simp⟩
    exact ⟨by simp [(sound.emptied emptied).1], (sound.emptied emptied).2⟩
  | dropped place deadline task waited over_ queued dead =>
    refine ⟨by simp, fun emptied => ?_, by simp, by simp⟩
    exact ⟨by simp [(sound.emptied emptied).1], (sound.emptied emptied).2⟩

/-- Before a shutdown, the queue has not been emptied by one. -/
theorem Sound.open_full {s : Scheduler} (sound : s.Sound) (open_ : s.stopping = false) :
    s.emptied = false := by
  by_contra emptied
  have stopping := (sound.emptied (by simpa using emptied)).2
  exact absurd (stopping.symm.trans open_) (by decide)

/-! ## Every task once -/

/-- The id of a task that is added now is not that of any task before. -/
def FreshId (s : Scheduler) (input : SchedulerStep) : Prop :=
  ∀ thread delay top, input = .addTask thread delay top → s.stopping = false →
    s.nextId thread ∉ s.added.map Task.id

/-- Where every task is that was added, when their ids are all different. -/
structure Accounted (s : Scheduler) : Prop where
  numbers : s.added.map Task.number = List.range s.added.length
  ids : (s.added.map Task.id).Nodup
  queued : ∀ task ∈ s.tasks, task ∈ s.added
  queued_once : s.tasks.Nodup
  ran : ∀ entry ∈ s.ran, entry.1 ∈ s.added
  ran_once : (s.ran.map Prod.fst).Nodup
  apart : ∀ task ∈ s.tasks, task ∉ s.ran.map Prod.fst
  timely : ∀ entry ∈ s.ran, entry.1.executionPoint ≤ entry.2
  /-- A queued task is still to run exactly if nobody cancelled it. -/
  pending : s.emptied = false → ∀ task ∈ s.tasks, task.id ∈ s.taskIds ↔ task.id ∉ s.cancelled
  known : ∀ id ∈ s.cancelled, id ∈ s.added.map Task.id
  somewhere : s.emptied = false → ∀ task ∈ s.added, task ∈ s.tasks ∨ task ∈ s.ran.map Prod.fst ∨
    task.id ∈ s.cancelled
  /-- The worker waits for no later a time than it has to, or it is about to be notified. -/
  wakeful : s.stopping = false → s.signalled = true ∨ 0 < s.notifies ∨
    ((s.worker = .waiting → s.tasks = []) ∧
      ∀ deadline, s.worker = .waitingUntil deadline → ∀ task ∈ s.tasks, deadline ≤ task.executionPoint)

theorem accounted_initial : Accounted initial := by
  constructor <;> simp [initial]

/-- Two tasks with one id are the same, when the ids are all different. -/
theorem Accounted.same_id {s : Scheduler} (accounted : s.Accounted) {first second : Task}
    (left : first ∈ s.added) (right : second ∈ s.added) (same : first.id = second.id) : first = second :=
  List.inj_on_of_nodup_map accounted.ids left right same

/-- The task that a call adds is not there yet. -/
theorem Accounted.newTask_fresh {s : Scheduler} (accounted : s.Accounted) (thread delay : Nat) :
    s.newTask thread delay ∉ s.added := by
  intro member
  -- Its number is the first that no earlier call was given.
  have numbered : s.added.length ∈ s.added.map Task.number := List.mem_map.mpr ⟨_, member, rfl⟩
  rw [accounted.numbers, List.mem_range] at numbered
  exact Nat.lt_irrefl _ numbered

/-- Adding a task whose id is fresh. -/
theorem Accounted.withTask {s : Scheduler} (accounted : s.Accounted) (sound : s.Sound) (thread delay : Nat)
    (top : Bool) (open_ : s.stopping = false) (fresh : s.nextId thread ∉ s.added.map Task.id)
    (others : top = false → ∃ other ∈ s.tasks,
      other.executionPoint ≤ (s.newTask thread delay).executionPoint) :
    (s.withTask thread (s.newTask thread delay) top).Accounted := by
  have full := sound.open_full open_
  have missing := accounted.newTask_fresh thread delay
  have named : (s.newTask thread delay).id = s.nextId thread := rfl
  have known : ∀ task ∈ s.added, task.id ≠ s.nextId thread := fun task member same =>
    fresh (same ▸ List.mem_map_of_mem member)
  constructor
  case numbers =>
    simp only [Scheduler.withTask, List.map_append, accounted.numbers, List.map_singleton,
      List.length_append, List.length_singleton, List.range_succ]
    rfl
  case ids =>
    simp only [Scheduler.withTask, List.map_append, List.map_singleton]
    rw [← List.concat_eq_append]
    exact accounted.ids.concat fresh
  case queued =>
    intro task member
    rcases List.mem_append.mp member with before | new
    · exact List.mem_append_left _ (accounted.queued task before)
    · exact List.mem_append_right _ new
  case queued_once =>
    simp only [Scheduler.withTask, ← List.concat_eq_append]
    exact accounted.queued_once.concat fun before => missing (accounted.queued _ before)
  case ran => exact fun entry member => List.mem_append_left _ (accounted.ran entry member)
  case ran_once => exact accounted.ran_once
  case apart =>
    intro task member
    rcases List.mem_append.mp member with before | new
    · exact accounted.apart task before
    · intro ran
      obtain ⟨entry, inside, rfl⟩ := List.mem_map.mp ran
      exact missing (List.mem_singleton.mp new ▸ accounted.ran entry inside)
  case timely => exact accounted.timely
  case pending =>
    intro _ task member
    simp only [Scheduler.withTask, Finset.mem_insert]
    rcases List.mem_append.mp member with before | new
    · have other := known task (accounted.queued task before)
      rw [← accounted.pending full task before, named]
      simp [other]
    · -- An id can only have been cancelled after it was returned.
      rw [List.mem_singleton.mp new]
      simp only [true_or, true_iff]
      exact fun cancelled => fresh (accounted.known _ cancelled)
  case known =>
    intro id cancelled
    have before := accounted.known id cancelled
    simp only [Scheduler.withTask, List.map_append]
    exact List.mem_append_left _ before
  case somewhere =>
    intro _ task member
    rcases List.mem_append.mp member with before | new
    · rcases accounted.somewhere full task before with queued | rest
      · exact .inl (List.mem_append_left _ queued)
      · exact .inr rest
    · exact .inl (List.mem_append_right _ new)
  case wakeful =>
    intro _
    cases top with
    | true => exact .inr (.inl (Nat.succ_pos _))
    | false =>
      -- The task at the top is not later than the new one, and the worker waits for it already.
      obtain ⟨other, queued, earlier⟩ := others rfl
      rcases accounted.wakeful open_ with signalled | notifies | ⟨waiting, until_⟩
      · exact .inl signalled
      · exact .inr (.inl notifies)
      · refine .inr (.inr ⟨fun waits => ?_, fun deadline waits task member => ?_⟩)
        · exact absurd (waiting waits ▸ queued) List.not_mem_nil
        · rcases List.mem_append.mp member with before | new
          · exact until_ deadline waits task before
          · rw [List.mem_singleton.mp new]
            exact Nat.le_trans (until_ deadline waits other queued) earlier

/-- Taking a task from the queue leaves the others. -/
theorem Accounted.mem_eraseIdx {s : Scheduler} (accounted : s.Accounted) {place : Nat} {task : Task}
    (queued : s.tasks[place]? = some task) (other : Task) :
    other ∈ s.tasks.eraseIdx place ↔ other ≠ task ∧ other ∈ s.tasks := by
  obtain ⟨inside, same⟩ := List.getElem?_eq_some_iff.mp queued
  rw [← accounted.queued_once.erase_getElem place inside, same]
  exact accounted.queued_once.mem_erase_iff

/-- While a task is queued, no shutdown has emptied the queue. -/
theorem Sound.full {s : Scheduler} (sound : s.Sound) {task : Task} (queued : task ∈ s.tasks) :
    s.emptied = false := by
  by_contra emptied
  have empty := (sound.emptied (by simpa using emptied)).1
  exact absurd (empty ▸ queued) List.not_mem_nil

/-- The task at the top is run, because nobody cancelled it and its time has come. -/
theorem Accounted.took {s : Scheduler} (accounted : s.Accounted) (sound : s.Sound) {place deadline : Nat}
    {task : Task} (waited : s.worker = .waitingUntil deadline) (over_ : deadline ≤ s.now)
    (queued : s.tasks[place]? = some task) (earliest : Earliest s.tasks task) :
    Accounted { s with
      tasks := s.tasks.eraseIdx place
      taskIds := s.taskIds.erase task.id
      worker := .running task
      ran := s.ran ++ [(task, s.now)] } := by
  have member := List.mem_of_getElem? queued
  have full := sound.full member
  have rest := accounted.mem_eraseIdx queued
  have first : task ∉ s.ran.map Prod.fst := accounted.apart task member
  constructor
  case numbers => exact accounted.numbers
  case ids => exact accounted.ids
  case queued => exact fun other inside => accounted.queued other ((rest other).mp inside).2
  case queued_once => exact accounted.queued_once.sublist (List.eraseIdx_sublist _ _)
  case ran =>
    intro entry inside
    rcases List.mem_append.mp inside with before | new
    · exact accounted.ran entry before
    · rw [List.mem_singleton.mp new]
      exact accounted.queued task member
  case ran_once =>
    rw [List.map_append, List.map_singleton, ← List.concat_eq_append]
    exact accounted.ran_once.concat first
  case apart =>
    intro other inside
    obtain ⟨different, before⟩ := (rest other).mp inside
    simp only [List.map_append, List.map_singleton, List.mem_append, List.mem_singleton, not_or]
    exact ⟨accounted.apart other before, different⟩
  case timely =>
    intro entry inside
    rcases List.mem_append.mp inside with before | new
    · exact accounted.timely entry before
    · -- What the wait was for is not earlier than the task at the top.
      obtain ⟨awaited, present, early⟩ := sound.awaited deadline waited full
      rw [List.mem_singleton.mp new]
      exact Nat.le_trans (earliest_iff.mp earliest awaited present) (Nat.le_trans early over_)
  case pending =>
    intro _ other inside
    obtain ⟨different, before⟩ := (rest other).mp inside
    have other_id : other.id ≠ task.id := fun same => different
      (accounted.same_id (accounted.queued other before) (accounted.queued task member) same)
    rw [Finset.mem_erase, ← accounted.pending full other before]
    simp [other_id]
  case known => exact accounted.known
  case somewhere =>
    intro _ other inside
    by_cases same : other = task
    · exact .inr (.inl (by simp [same]))
    · rcases accounted.somewhere full other inside with before | ran | cancelled
      · exact .inl ((rest other).mpr ⟨same, before⟩)
      · exact .inr (.inl (by
          rw [List.map_append]
          exact List.mem_append_left _ ran))
      · exact .inr (.inr cancelled)
  case wakeful => exact fun _ => .inr (.inr ⟨by simp, by simp⟩)

/-- The task at the top is dropped, because somebody cancelled it. -/
theorem Accounted.dropped {s : Scheduler} (accounted : s.Accounted) (sound : s.Sound) {place : Nat}
    {task : Task} (queued : s.tasks[place]? = some task) (dead : task.id ∉ s.taskIds) :
    Accounted { s with tasks := s.tasks.eraseIdx place, worker := .testing } := by
  have member := List.mem_of_getElem? queued
  have full := sound.full member
  have rest := accounted.mem_eraseIdx queued
  have was_cancelled : task.id ∈ s.cancelled := by
    by_contra never
    exact dead ((accounted.pending full task member).mpr never)
  refine { accounted with
    queued := fun other inside => accounted.queued other ((rest other).mp inside).2
    queued_once := accounted.queued_once.sublist (List.eraseIdx_sublist _ _)
    apart := fun other inside => accounted.apart other ((rest other).mp inside).2
    pending := fun _ other inside => accounted.pending full other ((rest other).mp inside).2
    somewhere := ?_
    wakeful := fun _ => .inr (.inr ⟨by simp, by simp⟩) }
  intro _ other inside
  by_cases same : other = task
  · exact .inr (.inr (same ▸ was_cancelled))
  · rcases accounted.somewhere full other inside with before | gone
    · exact .inl ((rest other).mpr ⟨same, before⟩)
    · exact .inr gone

/-- Steps that give every new task a fresh id keep account of all tasks. -/
theorem accounted_kept {s after : Scheduler} {input : SchedulerStep} (both : s.Sound ∧ s.Accounted)
    (fresh : s.FreshId input) (taken : s.step input = some after) : after.Sound ∧ after.Accounted := by
  obtain ⟨sound, accounted⟩ := both
  refine ⟨sound_kept s input after sound taken, ?_⟩
  obtain ⟨-, change⟩ := change_of_step taken
  cases change with
  | refused | zero => exact accounted
  | clock => exact { accounted with }
  | added thread delay top open_ others =>
    exact accounted.withTask sound thread delay top open_ (fresh thread delay top rfl open_) others
  | cancelled id known =>
    refine { accounted with pending := ?_, known := ?_, somewhere := ?_ }
    · intro full task member
      simp only [Finset.mem_erase, List.mem_append, List.mem_singleton, not_or]
      rw [accounted.pending full task member, and_comm]
    · intro other member
      rcases List.mem_append.mp member with before | new
      · exact accounted.known other before
      · exact List.mem_singleton.mp new ▸ known
    · intro full task member
      rcases accounted.somewhere full task member with queued | ran | cancelled
      · exact .inl queued
      · exact .inr (.inl ran)
      · exact .inr (.inr (List.mem_append_left _ cancelled))
  | unknown id unknown =>
    refine { accounted with pending := fun full task member => ?_ }
    -- The task is not the one that was meant, because its id has been returned.
    have other : task.id ≠ id := fun same =>
      unknown (same ▸ List.mem_map_of_mem (accounted.queued task member))
    rw [Finset.mem_erase, ← accounted.pending full task member]
    exact and_iff_right other
  | stored => exact { accounted with wakeful := fun impossible => absurd impossible (by simp) }
  | cleared stopping =>
    refine { accounted with
      queued := by simp
      queued_once := List.nodup_nil
      apart := by simp
      pending := by simp
      somewhere := by simp
      wakeful := fun open_ => absurd (stopping.symm.trans open_) (by decide) }
  | notified => exact { accounted with wakeful := fun _ => .inl rfl }
  | lost some_left awake =>
    refine { accounted with wakeful := fun _ => .inr (.inr ?_) }
    exact ⟨fun waits => absurd waits awake.1, fun _ waits => absurd waits (awake.2 _)⟩
  | went | entered | woke | finished =>
    exact { accounted with wakeful := fun _ => .inr (.inr ⟨by simp, by simp⟩) }
  | waits entering empty => exact { accounted with wakeful := fun _ => .inr (.inr ⟨fun _ => empty, by simp⟩) }
  | waitsUntil entering task queued earliest =>
    refine { accounted with wakeful := fun _ => .inr (.inr ⟨by simp, fun deadline waits other member => ?_⟩) }
    rw [← Worker.waitingUntil.inj waits]
    exact earliest_iff.mp earliest other member
  | overran => exact { accounted with wakeful := fun _ => .inr (.inr ⟨by simp, by simp⟩) }
  | took place deadline task waited over_ queued earliest =>
    exact accounted.took sound waited over_ queued earliest
  | dropped place deadline task waited over_ queued dead => exact accounted.dropped sound queued dead

/-! ## The worker by itself -/

/-- A bound on the steps that the worker can take by itself. -/
def effort (s : Scheduler) : Nat :=
  10 * s.tasks.length + 10 * s.notifies +
    match s.worker with
    | .running _ => 4
    | .testing => 3
    | .entering => 2
    | .waiting | .waitingUntil _ => if s.signalled then 5 else 1
    | .left | .undefined => 0

/-- Every step that the worker takes by itself leaves fewer of them to take. -/
theorem effort_lt {s after : Scheduler} {input : SchedulerStep} (driven : s.Driven input)
    (taken : s.step input = some after) : after.effort < s.effort := by
  obtain ⟨-, change⟩ := change_of_step taken
  cases change with
  | refused | added | zero | cancelled | unknown | stored | cleared | clock => exact driven.elim
  | notified some_left waiting =>
    -- A notification is used up, and all it leaves is a wait that returns.
    rcases waiting with phase | ⟨deadline, phase⟩
    all_goals
      simp only [effort, phase, if_true]
      split <;> omega
  | lost some_left =>
    simp only [effort]
    omega
  | went testing => simp [effort, testing]
  | entered testing => simp [effort, testing]
  | waits entering => simp [effort, entering]
  | waitsUntil entering => simp [effort, entering]
  | woke waiting =>
    have signalled : s.signalled = true := driven
    rcases waiting with phase | ⟨deadline, phase⟩
    all_goals simp [effort, phase, signalled]
  | finished task running => simp [effort, running]
  | overran place deadline waited =>
    simp only [effort, waited]
    split <;> omega
  | took place deadline task waited over_ queued | dropped place deadline task waited over_ queued =>
    obtain ⟨inside, -⟩ := List.getElem?_eq_some_iff.mp queued
    have fewer := List.length_eraseIdx_add_one inside
    simp only [effort, waited]
    split <;> omega

/-- The worker takes no more steps by itself than it has to. -/
theorem Drives.finite {s after : Scheduler} {count : Nat} (drives : Drives s count after) :
    count ≤ s.effort := by
  induction drives with
  | rest => exact Nat.zero_le _
  | step input driven taken drives ih =>
    have less := effort_lt driven taken
    omega

/-- What the worker does by itself leaves the tasks accounted for, and calls and clock as they were. -/
theorem Drives.keeps {s after : Scheduler} {count : Nat} (drives : Drives s count after)
    (both : s.Sound ∧ s.Accounted) : (after.Sound ∧ after.Accounted) ∧ after.stopping = s.stopping ∧
      after.added = s.added ∧ after.cancelled = s.cancelled ∧ after.now = s.now := by
  induction drives with
  | rest => exact ⟨both, rfl, rfl, rfl, rfl⟩
  | @step s next after count input driven taken drives ih =>
    have not_added : s.FreshId input := by
      rintro thread delay top rfl
      exact absurd driven (by simp [Driven])
    obtain ⟨kept, rest⟩ := ih (accounted_kept both not_added taken)
    refine ⟨kept, ?_⟩
    -- None of the worker's own steps changes any of these.
    obtain ⟨-, change⟩ := change_of_step taken
    cases change with
    | refused | added | zero | cancelled | unknown | stored | cleared | clock => exact driven.elim
    | notified | lost | went | entered | waits | waitsUntil | woke | finished | overran | took | dropped =>
      exact rest

/-- All tasks are accounted for while every new one is given a fresh id. -/
theorem accounted_of_fresh {inputs : List SchedulerStep}
    (fresh : Runs.Along step FreshId initial inputs) :
    (Runs.final step initial inputs).Sound ∧ (Runs.final step initial inputs).Accounted :=
  Runs.Along.final (fun s => Sound s ∧ Accounted s)
    (fun _ _ _ both fresh taken => accounted_kept both fresh taken)
    ⟨sound_initial, accounted_initial⟩ fresh

/-- The worker's timed wait ends by its deadline in this step. -/
def TimesOut (s : Scheduler) (input : SchedulerStep) : Prop :=
  ∃ place deadline, input = .timeout place ∧ s.worker = .waitingUntil deadline ∧ deadline ≤ s.now

/-- The step asks an empty queue for its top. -/
def AsksEmpty (s : Scheduler) (input : SchedulerStep) : Prop :=
  ∃ after, s.step input = some after ∧ after.worker = .undefined

/-- An empty queue is asked for its top exactly where a timed wait ends that a shutdown fell into. -/
theorem asksEmpty_iff {s : Scheduler} (sound : s.Sound) (input : SchedulerStep) :
    ¬ s.AsksEmpty input ↔ (s.TimesOut input → s.emptied = false) := by
  constructor
  · rintro never ⟨place, deadline, rfl, waited, over_⟩
    by_contra emptied
    have empty := (sound.emptied (by simpa using emptied)).1
    refine never ⟨{ s with worker := .undefined }, ?_, rfl⟩
    simp [step, advance, timeout, waited, over_, empty]
  · rintro full ⟨after, taken, undefined⟩
    obtain ⟨defined, change⟩ := change_of_step taken
    cases change with
    | overran place deadline waited over_ empty =>
      obtain ⟨task, queued, -⟩ :=
        sound.awaited deadline waited (full ⟨place, deadline, rfl, waited, over_⟩)
      exact absurd (empty ▸ queued) List.not_mem_nil
    | refused | zero | clock | cancelled | unknown | added | stored | cleared | notified | lost =>
      exact defined undefined
    | went | entered | woke | finished | waits | waitsUntil | took | dropped => simp at undefined

/--
Over every interleaving, the worker never asks an empty queue for its top if and only if no timed
wait ends by its deadline after a shutdown has emptied the queue.
-/
theorem top_defined_iff (inputs : List SchedulerStep) :
    Runs.Along step (fun s input => ¬ s.AsksEmpty input) initial inputs ↔
      Runs.Along step (fun s input => s.TimesOut input → s.emptied = false) initial inputs :=
  sound_kept.along_congr (fun _ input sound => asksEmpty_iff sound input) inputs sound_initial

/-- A shutdown that comes between a deadline and the worker's return from its wait empties the queue. -/
theorem top_undefined : ¬ ∀ inputs,
    Runs.Along step (fun s input => ¬ s.AsksEmpty input) initial inputs := by
  intro never
  have along := never [.addTask 0 5 true, .test, .enter, .clock 5, .shutdownStore, .shutdownClear,
    .timeout 0]
  have last := ((((((along.2 _ rfl).2 _ rfl).2 _ rfl).2 _ rfl).2 _ rfl).2 _ rfl).1
  exact last ⟨_, rfl, rfl⟩

end Recap.Scheduler
