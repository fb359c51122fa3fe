import Recap.Game.LuaEvents

/-! Callbacks are called once each, in order and in time, and after a stop only if it comes too late. -/

namespace Recap.Game

/-- The callbacks that a game has been given: those that were called, and those in its queue. -/
def GameEvents.line (events : GameEvents) : List Task := events.called ++ events.tasks

namespace LuaEvents

open Scheduler (Placed Sound Turn)

/-! ## From the scheduler to the callbacks -/

/-- The tasks of a game among some tasks. -/
def owned (s : LuaEvents) (game : Nat) (tasks : List Task) : List Task :=
  tasks.filter fun task => s.owner task.number = game

/-- The callbacks of a game that it has been given, and the one on its way there. -/
def delivered (s : LuaEvents) (game : Nat) : List Task :=
  (s.games game).line ++ s.owned game s.scheduler.running.toList

/-- The tasks that the worker took, in that order. -/
def fired (s : LuaEvents) : List Task := s.scheduler.ran.map Prod.fst

/-- What holds of the scheduler, and that no callback that a game is owed is lost on its way. -/
structure Sound (s : LuaEvents) : Prop where
  scheduler : s.scheduler.Sound ∧ s.scheduler.Placed
  delivered : ∀ game, s.delivered game = s.owned game s.fired

theorem sound_initial : initial.Sound where
  scheduler := ⟨Scheduler.sound_initial, Scheduler.placed_initial⟩
  delivered := fun _ => rfl

/-- Each step is a step of the scheduler or none. -/
theorem scheduler_step {s after : LuaEvents} {input : LuaEventStep} (moved : Moved s input after) :
    after.scheduler = s.scheduler ∨ ∃ input, s.scheduler.step input = some after.scheduler := by
  cases moved with
  | atOnce => exact .inl rfl
  | added _ _ _ _ _ went | stopped _ _ _ went | called _ _ _ _ _ went | posted _ _ _ went
  | own _ _ _ went => exact .inr ⟨_, went⟩

theorem scheduler_kept {s after : LuaEvents} {input : LuaEventStep} (moved : Moved s input after)
    (both : s.scheduler.Sound ∧ s.scheduler.Placed) :
    after.scheduler.Sound ∧ after.scheduler.Placed := by
  rcases scheduler_step moved with same | ⟨_, went⟩
  · rwa [same]
  · exact Scheduler.placed_kept both went

/-- Where a step of a game gives no game a callback, and the worker's record is as it was, none is lost. -/
theorem delivered_same {s after : LuaEvents} {game : Nat} (before : s.delivered game = s.owned game s.fired)
    (line : (after.games game).line = (s.games game).line)
    (running : after.scheduler.running = s.scheduler.running)
    (ran : after.scheduler.ran = s.scheduler.ran)
    (owner : ∀ task ∈ s.fired, after.owner task.number = s.owner task.number)
    (placed : s.scheduler.Placed) : after.delivered game = after.owned game after.fired := by
  have same : ∀ tasks : List Task, (∀ task ∈ tasks, task ∈ s.fired) →
      after.owned game tasks = s.owned game tasks := by
    intro tasks within
    refine List.filter_congr fun task member => ?_
    rw [owner task (within task member)]
  -- The task that runs is one of those that were taken.
  have runs : ∀ task ∈ s.scheduler.running.toList, task ∈ s.fired := by
    intro task member
    exact placed.running task (Option.mem_toList.mp member)
  have record : after.fired = s.fired := congrArg (List.map Prod.fst) ran
  rw [delivered, line, running, same _ runs, record, same s.fired fun _ member => member]
  exact before

/-- A game's events changed in nothing but `mEvents` leave every game's callbacks as they are. -/
theorem line_set {s : LuaEvents} {game : Nat} {events : GameEvents}
    (same : events.line = (s.games game).line) (other : Nat) :
    (s.set game events other).line = (s.games other).line := by
  unfold set
  by_cases here : other = game
  · rw [here, Function.update_self, same]
  · rw [Function.update_of_ne here]

/-- A callback is not lost, whatever step is taken. -/
theorem sound_kept : Runs.Kept step Sound := by
  intro s input after sound went
  have moved := moved_of_step went
  have placed := sound.scheduler.2
  refine ⟨scheduler_kept moved sound.scheduler, fun game => ?_⟩
  have before := sound.delivered game
  cases moved with
  | atOnce => exact before
  | added other delay top scheduler positive taken =>
    cases Scheduler.turn_of_step taken with
    | same other ran running =>
      refine delivered_same before (line_set ?_ game) running ran ?_ placed
      · rfl
      -- The number of the new task is that of none that was taken.
      intro task member
      obtain ⟨entry, inside, rfl⟩ := List.mem_map.mp member
      have lower := placed.number_lt (placed.ran entry inside)
      exact Function.update_of_ne (by omega) _ _
  | stopped other id scheduler taken =>
    cases Scheduler.turn_of_step taken with
    | same other ran running =>
      refine delivered_same before (line_set ?_ game) running ran (fun _ _ => rfl) placed
      rfl
  | called other task rest scheduler first taken =>
    cases Scheduler.turn_of_step taken with
    | same other ran running =>
      refine delivered_same before (line_set ?_ game) running ran (fun _ _ => rfl) placed
      simp [GameEvents.line, first]
  | posted task scheduler runs taken =>
    cases Scheduler.turn_of_step taken with
    | same other => exact absurd rfl other
    | finished other runs' idle ran =>
      obtain rfl : task = other := Option.some.inj (runs.symm.trans runs')
      -- The callback is at the end of the line of its game, and was on its way there before.
      have record : List.map Prod.fst scheduler.ran = s.fired := congrArg (List.map Prod.fst) ran
      simp only [delivered, runs, idle, Option.toList_some, Option.toList_none, owned, List.filter_nil,
        List.append_nil, fired, record] at before ⊢
      rw [← before]
      by_cases here : game = s.owner task.number
      · simp [set, here, GameEvents.line]
      · simp [set, here, Ne.symm here]
  | own input scheduler isOwn taken =>
    cases Scheduler.turn_of_step taken with
    | same other ran running => exact delivered_same before rfl running ran (fun _ _ => rfl) placed
    | took place task idle running ran =>
      simp only [delivered, idle, running, Option.toList_some, Option.toList_none, owned, List.filter_nil,
        List.append_nil] at before ⊢
      rw [before]
      simp [fired, ran]
    | finished => exact isOwn.elim

/-- What a game gets of its events: in order, once each, and none before its time. -/
structure Delivers (s : LuaEvents) (game : Nat) : Prop where
  /-- What was called, what is queued, and what is on its way are the tasks that the worker took. -/
  in_order : s.delivered game = s.owned game s.fired
  once : (s.delivered game).Nodup
  not_early : ∀ task ∈ (s.games game).called, ∃ time, (task, time) ∈ s.scheduler.ran ∧
    task.executionPoint ≤ time

theorem Sound.delivers {s : LuaEvents} (sound : s.Sound) (game : Nat) : s.Delivers game where
  in_order := sound.delivered game
  once := by
    rw [sound.delivered game]
    exact sound.scheduler.2.ran_once.filter _
  not_early := by
    intro task called
    have inside : task ∈ s.delivered game :=
      List.mem_append_left _ (List.mem_append_left _ called)
    rw [sound.delivered game] at inside
    obtain ⟨⟨same, time⟩, entry, rfl⟩ := List.mem_map.mp (List.mem_filter.mp inside).1
    exact ⟨time, entry, sound.scheduler.2.timely _ entry⟩

/--
Over every interleaving of the games, the scheduler and its callers, the callbacks of each game are
called in the order in which their tasks were taken, each once and none before its time.

This needs nothing of the ids. None is lost on the way from the scheduler to the game.
-/
theorem delivers_in_order (inputs : List LuaEventStep) (game : Nat) :
    (Runs.final step initial inputs).Delivers game :=
  (sound_kept.final inputs sound_initial).delivers game

/-! ## Events that are stopped -/

/-- The id of an event that is added now is not that of any event before. -/
def Fresh (s : LuaEvents) (input : LuaEventStep) : Prop :=
  ∀ game delay top, input = .addEvent game delay top → 0 < delay → s.scheduler.stopping = false →
    s.scheduler.nextId game ∉ s.scheduler.added.map Task.id

/-- Whether a script calls `AddEvent` in a step. -/
def AddsEvent : LuaEventStep → Bool
  | .addEvent _ _ _ => true
  | _ => false

/-- A step that adds no event leaves the ids of one game's thread as they are. -/
theorem numbered_kept {game : Nat} {s after : LuaEvents} {input : LuaEventStep}
    (numbered : Scheduler.Numbered game s.scheduler) (adds : AddsEvent input = false)
    (running : input ≠ .scheduler .shutdownStore) (taken : s.step input = some after) :
    Scheduler.Numbered game after.scheduler ∧ after.scheduler.added = s.scheduler.added := by
  cases moved_of_step taken with
  | atOnce | added => cases adds
  | stopped _ _ _ went | called _ _ _ _ _ went | posted _ _ _ went =>
    exact numbered.keeps (by simp) rfl went
  | own input _ isOwn went =>
    refine numbered.keeps (fun same => running (same ▸ rfl)) ?_ went
    cases input <;> first | rfl | exact isOwn.elim

/-- While one game alone adds events, and fewer than there are ids, all of them have different ids. -/
theorem fresh_of_oneGame {game : Nat} {inputs : List LuaEventStep} {s : LuaEvents}
    (numbered : Scheduler.Numbered game s.scheduler)
    (alone : ∀ other delay top, .addEvent other delay top ∈ inputs → other = game)
    (running : .scheduler .shutdownStore ∉ inputs)
    (few : s.scheduler.added.length + inputs.countP AddsEvent < 2 ^ 32) :
    Runs.Along step Fresh s inputs := by
  -- What is left of the ids goes down with every event that is added.
  induction inputs generalizing s with
  | nil => trivial
  | cons input rest ih =>
    have alone' := fun other delay top inside => alone other delay top (List.mem_cons_of_mem _ inside)
    have running' : .scheduler .shutdownStore ∉ rest :=
      fun inside => running (List.mem_cons_of_mem _ inside)
    have notStore : input ≠ .scheduler .shutdownStore := fun same => running (same ▸ List.mem_cons_self)
    cases adds : AddsEvent input with
    | false =>
      rw [List.countP_cons_of_neg (by simp [adds])] at few
      refine ⟨fun other delay top same => ?_, fun next taken => ?_⟩
      · rw [same] at adds
        cases adds
      · obtain ⟨numbered', same⟩ := numbered_kept numbered adds notStore taken
        exact ih numbered' alone' running' (same ▸ few)
    | true =>
      rw [List.countP_cons_of_pos adds] at few
      have room : s.scheduler.added.length + 1 < 2 ^ 32 := by omega
      refine ⟨fun other delay top same _ _ => ?_, fun next taken => ?_⟩
      · rw [alone other delay top (same ▸ List.mem_cons_self)]
        exact numbered.fresh room
      · cases moved_of_step taken with
        | atOnce => exact ih numbered alone' running' (by omega)
        | added other delay top scheduler positive went =>
          obtain rfl := alone other delay top List.mem_cons_self
          obtain ⟨-, change⟩ := Scheduler.change_of_step went
          cases change with
          | refused _ _ _ stopping => exact absurd (numbered.running.symm.trans stopping) (by simp)
          | added =>
            refine ih (numbered.withTask room delay top) alone' running' ?_
            simp only [Scheduler.withTask, List.length_append, List.length_singleton]
            omega
        | _ => cases adds

/-- A step that gives a fresh id to a new event does so in the scheduler. -/
theorem fresh_scheduler_step {s after : LuaEvents} {input : LuaEventStep} (fresh : s.Fresh input)
    (moved : Moved s input after) :
    after.scheduler = s.scheduler ∨ ∃ input, s.scheduler.step input = some after.scheduler ∧
      s.scheduler.FreshId input := by
  cases moved with
  | atOnce => exact .inl rfl
  | added game delay top scheduler positive went =>
    refine .inr ⟨_, went, ?_⟩
    intro thread later last same open_
    cases same
    exact fresh game delay top rfl positive open_
  | stopped _ _ _ went | called _ _ _ _ _ went => exact .inr ⟨_, went, by simp [Scheduler.FreshId]⟩
  | posted _ _ _ went => exact .inr ⟨_, went, by simp [Scheduler.FreshId]⟩
  | own input _ isOwn went =>
    refine .inr ⟨input, went, ?_⟩
    rintro thread delay top rfl
    exact isOwn.elim

/-- What holds while ids are fresh: an event that is dead in the scheduler stays so. -/
theorem dead_kept {task : Task} {s after : LuaEvents} {input : LuaEventStep}
    (dead : Scheduler.Dead task s.scheduler) (fresh : s.Fresh input)
    (taken : s.step input = some after) : Scheduler.Dead task after.scheduler := by
  rcases fresh_scheduler_step fresh (moved_of_step taken) with same | ⟨_, went, freshId⟩
  · rwa [same]
  · exact dead.keeps freshId went

/-- An event's id is not zero, whatever step is taken. -/
theorem named_kept : Runs.Kept step fun s => s.scheduler.Named := by
  intro s input after named taken
  rcases scheduler_step (moved_of_step taken) with same | ⟨_, went⟩
  · rwa [same]
  · exact Scheduler.named_kept _ _ _ named went

/-- The worker took a task for a game. -/
structure FiredFor (task : Task) (game : Nat) (s : LuaEvents) : Prop where
  sound : s.Sound
  fired : task ∈ s.fired
  owner : s.owner task.number = game

/-- A task that the worker took for a game stays one that it took for that game. -/
theorem firedFor_kept (task : Task) (game : Nat) : Runs.Kept step (FiredFor task game) := by
  intro s input after ⟨sound, fired, owner⟩ taken
  have record : ∀ {scheduler : Scheduler} {input : SchedulerStep},
      s.scheduler.step input = some scheduler → task ∈ scheduler.ran.map Prod.fst := by
    intro scheduler input went
    cases Scheduler.turn_of_step went with
    | same _ ran => rwa [ran]
    | finished _ _ _ ran => rwa [ran]
    | took place other idle running ran =>
      rw [ran, List.map_append]
      exact List.mem_append_left _ fired
  have still := sound_kept s input after sound taken
  cases moved_of_step taken with
  | atOnce => exact ⟨still, fired, owner⟩
  | added other delay top scheduler positive went =>
    refine ⟨still, record went, ?_⟩
    -- The number of the new task is another one.
    obtain ⟨entry, inside, rfl⟩ := List.mem_map.mp fired
    have lower := sound.scheduler.2.number_lt (sound.scheduler.2.ran entry inside)
    rw [← owner]
    exact Function.update_of_ne (by omega) _ _
  | stopped _ _ _ went | called _ _ _ _ _ went | posted _ _ _ went | own _ _ _ went =>
    exact ⟨still, record went, owner⟩

/-- A game that has nothing left to call has called what the worker took for it. -/
theorem Sound.called_iff {s : LuaEvents} (sound : s.Sound) {task : Task} {game : Nat}
    (owner : s.owner task.number = game) (drained : (s.games game).tasks = [])
    (idle : s.scheduler.running ≠ some task) :
    task ∈ (s.games game).called ↔ task ∈ s.fired := by
  have line := sound.delivered game
  simp only [LuaEvents.delivered, GameEvents.line, drained, List.append_nil] at line
  constructor
  · intro called
    have inside : task ∈ s.owned game s.fired := line ▸ List.mem_append_left _ called
    exact (List.mem_filter.mp inside).1
  · intro fired
    have inside : task ∈ s.owned game s.fired := List.mem_filter.mpr ⟨fired, by simpa using owner⟩
    rw [← line] at inside
    -- The task that is on its way to a game is another one.
    rcases List.mem_append.mp inside with called | onWay
    · exact called
    · exact absurd (Option.mem_toList.mp (List.mem_filter.mp onWay).1) idle

/--
Over every interleaving in which all ids are different, a callback whose event is stopped is called
exactly if the scheduler's worker took the event's task before.

It is called then even though it was stopped, once the game has nothing left to call.
-/
theorem called_iff_fired_before_stop {inputs front back : List LuaEventStep} {task : Task} {game : Nat}
    (fresh : Runs.Along step Fresh initial inputs)
    (stops : inputs = front ++ .stopEvent game task.id :: back)
    (added : task ∈ (Runs.final step initial front).scheduler.added)
    (owner : (Runs.final step initial front).owner task.number = game)
    (drained : ((Runs.final step initial inputs).games game).tasks = [])
    (idle : (Runs.final step initial inputs).scheduler.running ≠ some task) :
    task ∈ ((Runs.final step initial inputs).games game).called ↔
      task ∈ (Runs.final step initial front).fired := by
  subst stops
  have soundFront := sound_kept.final front sound_initial
  have named : (Runs.final step initial front).scheduler.Named :=
    named_kept.final front (by simp [Scheduler.Named, initial, Scheduler.initial])
  have soundLast := sound_kept.final (front ++ .stopEvent game task.id :: back) sound_initial
  rcases fresh.back with stays | ⟨onward, goes⟩
  · -- The run does not get as far as the stop.
    rw [stays] at drained idle ⊢
    exact soundFront.called_iff owner drained idle
  · generalize Runs.final step initial front = s at *
    by_cases fired : task ∈ s.fired
    · -- What was taken before is called in the end.
      have kept := (firedFor_kept task game).final (.stopEvent game task.id :: back)
        ⟨soundFront, fired, owner⟩
      rw [← goes] at kept
      rw [soundLast.called_iff kept.owner drained idle]
      exact iff_of_true kept.fired fired
    · -- What was not taken before is dead from the stop on.
      refine iff_of_false ?_ fired
      intro called
      have inside : task ∈ (Runs.final step initial
          (front ++ .stopEvent game task.id :: back)).delivered game :=
        List.mem_append_left _ (List.mem_append_left _ called)
      rw [soundLast.delivered game, goes] at inside
      have later := (List.mem_filter.mp inside).1
      simp only [Runs.final] at later
      split at later
      · rename_i next taken
        have dead : Scheduler.Dead task next.scheduler := by
          cases moved_of_step taken with
          | stopped _ _ scheduler went =>
            exact Scheduler.dead_of_cancel added (named task added) fired went
        have gone : Scheduler.Dead task (Runs.final step next back).scheduler :=
          Runs.Along.final (fun s : LuaEvents => Scheduler.Dead task s.scheduler)
            (fun _ _ _ dead fresh taken => dead_kept dead fresh taken) dead (onward.2 next taken)
        exact gone.not_ran later
      · exact fired later

/-- An event that is stopped when its task has been taken is called all the same. -/
theorem called_iff_fired_before_stop_late :
    (⟨0, 1, 5⟩ : Task) ∈ ((Runs.final step initial
        [.addEvent 7 5 true, .scheduler .test, .scheduler .enter, .scheduler (.clock 5),
          .scheduler (.timeout 0), .stopEvent 7 1, .addServerTask, .call 7]).games 7).called ↔
      ⟨0, 1, 5⟩ ∈ (Runs.final step initial
        [.addEvent 7 5 true, .scheduler .test, .scheduler .enter, .scheduler (.clock 5),
          .scheduler (.timeout 0)]).fired :=
  called_iff_fired_before_stop
    (fresh_of_oneGame (Scheduler.numbered_initial 7) (by simp) (by decide) (by decide))
    rfl (by decide) (by decide) (by decide) (by decide)

end LuaEvents

end Recap.Game
