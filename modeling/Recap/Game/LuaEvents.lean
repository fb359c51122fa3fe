import Recap.Core.SchedulerPlaces

/-! The events of scripts: from a game's thread to the scheduler, to the game's server, and back to the game. -/

namespace Recap.Game

/-- What a game has of its events: `mEvents`, the tasks of its server, and the callbacks that were called. -/
structure GameEvents where
  events : Finset UInt32
  /-- `mTasks` of the server, as far as events put them there. -/
  tasks : List Task
  called : List Task

/-- The scheduler, which all games share, and the events of each game. -/
structure LuaEvents where
  scheduler : Scheduler
  /-- The game that a task's function refers to, by the number of the task. -/
  owner : Nat → Nat
  games : Nat → GameEvents

/-- A step of a game's server thread, of the scheduler's worker, or of the clock. -/
inductive LuaEventStep where
  /-- A script calls `AddEvent`, and the task comes to the top of the scheduler's queue or not. -/
  | addEvent (game delay : Nat) (top : Bool)
  /-- A script calls `StopEvent`. -/
  | stopEvent (game : Nat) (id : UInt32)
  /-- A game's server takes a task from its queue, and calls the callback. -/
  | call (game : Nat)
  /-- The task that the scheduler's worker runs gives the callback to the game's server. -/
  | addServerTask
  /-- Any other step of the scheduler. -/
  | scheduler (input : SchedulerStep)
  deriving DecidableEq, Repr

namespace LuaEvents

/-- No event has been added, and the scheduler's worker is about to start. -/
def initial : LuaEvents := ⟨.initial, fun _ => 0, fun _ => ⟨∅, [], []⟩⟩

/-- The games once one of them is another. -/
def set (s : LuaEvents) (game : Nat) (events : GameEvents) : Nat → GameEvents :=
  Function.update s.games game events

/-- What `AddTask` returns to a game's thread. -/
def returned (s : LuaEvents) (game : Nat) : UInt32 :=
  if s.scheduler.stopping then 0 else s.scheduler.nextId game

/-- `Instance::AddTask`, called from the thread of the game's server. -/
def addTask (s : LuaEvents) (game delay : Nat) (top : Bool) : Option LuaEvents :=
  (s.scheduler.step (.addTask game delay top)).map fun scheduler => {
    scheduler
    owner := Function.update s.owner s.scheduler.added.length game
    games := s.set game { s.games game with
      events := insert (s.returned game) (s.games game).events } }

/-- `Instance::CancelTask` -/
def cancelTask (s : LuaEvents) (game : Nat) (id : UInt32) : Option LuaEvents :=
  (s.scheduler.step (.cancelTask id)).map fun scheduler => { s with
    scheduler
    games := s.set game { s.games game with events := (s.games game).events.erase id } }

/-- The first task of the server's queue cancels its own event and calls the callback. -/
def call (s : LuaEvents) (game : Nat) : Option LuaEvents :=
  match (s.games game).tasks with
  | [] => none
  | task :: rest =>
    (s.cancelTask game task.id).map fun s => { s with
      games := s.set game { s.games game with
        tasks := rest, called := (s.games game).called ++ [task] } }

/-- `Instance::AddServerTask`, called by the task that the worker runs, which is its last step. -/
def addServerTask (s : LuaEvents) : Option LuaEvents :=
  match s.scheduler.running with
  | none => none
  | some task =>
    (s.scheduler.step .finish).map fun scheduler =>
      let game := s.owner task.number
      { s with
        scheduler
        games := s.set game { s.games game with tasks := (s.games game).tasks ++ [task] } }

/-- Whether a step of the scheduler is none that the games take. -/
def IsOwn : SchedulerStep → Prop
  | .addTask _ _ _ | .cancelTask _ | .finish => False
  | _ => True

instance : DecidablePred IsOwn := fun input => by
  cases input <;> (unfold IsOwn; infer_instance)

/-- One step. A script that asks for no delay has its callback called at once, without an event. -/
def step (s : LuaEvents) : LuaEventStep → Option LuaEvents
  | .addEvent game delay top => if 0 < delay then s.addTask game delay top else some s
  | .stopEvent game id => s.cancelTask game id
  | .call game => s.call game
  | .addServerTask => s.addServerTask
  | .scheduler input =>
    if IsOwn input then (s.scheduler.step input).map fun scheduler => { s with scheduler } else none

/-! ## What a step does -/

/-- Everything that a step can do. -/
inductive Moved (s : LuaEvents) : LuaEventStep → LuaEvents → Prop where
  | atOnce (game : Nat) (top : Bool) : Moved s (.addEvent game 0 top) s
  | added (game delay : Nat) (top : Bool) (scheduler : Scheduler) (positive : 0 < delay)
      (taken : s.scheduler.step (.addTask game delay top) = some scheduler) :
      Moved s (.addEvent game delay top) {
        scheduler
        owner := Function.update s.owner s.scheduler.added.length game
        games := s.set game { s.games game with
          events := insert (s.returned game) (s.games game).events } }
  | stopped (game : Nat) (id : UInt32) (scheduler : Scheduler)
      (taken : s.scheduler.step (.cancelTask id) = some scheduler) :
      Moved s (.stopEvent game id) { s with
        scheduler
        games := s.set game { s.games game with events := (s.games game).events.erase id } }
  | called (game : Nat) (task : Task) (rest : List Task) (scheduler : Scheduler)
      (first : (s.games game).tasks = task :: rest)
      (taken : s.scheduler.step (.cancelTask task.id) = some scheduler) :
      Moved s (.call game) { s with
        scheduler
        games := s.set game {
          events := (s.games game).events.erase task.id
          tasks := rest
          called := (s.games game).called ++ [task] } }
  | posted (task : Task) (scheduler : Scheduler) (runs : s.scheduler.running = some task)
      (taken : s.scheduler.step .finish = some scheduler) :
      Moved s .addServerTask { s with
        scheduler
        games := s.set (s.owner task.number) { s.games (s.owner task.number) with
          tasks := (s.games (s.owner task.number)).tasks ++ [task] } }
  | own (input : SchedulerStep) (scheduler : Scheduler) (isOwn : IsOwn input)
      (taken : s.scheduler.step input = some scheduler) :
      Moved s (.scheduler input) { s with scheduler }

theorem moved_of_step {s after : LuaEvents} {input : LuaEventStep} (taken : s.step input = some after) :
    Moved s input after := by
  cases input with
  | addEvent game delay top =>
    simp only [step] at taken
    split at taken
    · rename_i positive
      obtain ⟨scheduler, went, rfl⟩ := Option.map_eq_some_iff.mp taken
      exact .added game delay top scheduler positive went
    · rename_i none
      obtain rfl : delay = 0 := by omega
      rw [← Option.some.inj taken]
      exact .atOnce game top
  | stopEvent game id =>
    obtain ⟨scheduler, went, rfl⟩ := Option.map_eq_some_iff.mp taken
    exact .stopped game id scheduler went
  | call game =>
    simp only [step, call] at taken
    cases first : (s.games game).tasks with
    | nil => simp [first] at taken
    | cons task rest =>
      simp only [first, cancelTask, Option.map_map] at taken
      obtain ⟨scheduler, went, rfl⟩ := Option.map_eq_some_iff.mp taken
      -- The two updates are of one game.
      simp only [Function.comp_apply, set, Function.update_self, Function.update_idem]
      exact .called game task rest scheduler first went
  | addServerTask =>
    simp only [step, addServerTask] at taken
    split at taken
    · cases taken
    · rename_i task runs
      obtain ⟨scheduler, went, rfl⟩ := Option.map_eq_some_iff.mp taken
      exact .posted task scheduler runs went
  | scheduler input =>
    simp only [step] at taken
    split at taken
    · rename_i isOwn
      obtain ⟨scheduler, went, rfl⟩ := Option.map_eq_some_iff.mp taken
      exact .own input scheduler isOwn went
    · cases taken

end LuaEvents

end Recap.Game
