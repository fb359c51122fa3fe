import Recap.Game.Instance
import Recap.Game.LuaThreads

/-! The actions of objects, each on a thread that its object keeps a pointer to. -/

namespace Recap.Game

open Recap.Runs Recap.OrderedMap

namespace LuaThreads

variable {lua after : LuaThreads} {thread : ThreadPtr}

/-- A change after which nothing is started that was not started before. -/
def StartsNone (lua after : LuaThreads) : Prop :=
  ∀ (thread : ThreadPtr) (record : LuaThread), after.allocated[thread]? = some record →
    record.coroutine = .started → lua.allocated[thread]? = some record

theorem setCoroutine_startsNone {coroutine : Coroutine} (other : coroutine ≠ .started)
    (done : lua.setCoroutine thread coroutine = some after) : StartsNone lua after := by
  -- The one coroutine that is written is not started.
  obtain ⟨record, found, rfl⟩ := setCoroutine_eq_some done
  intro thread' record' found' started
  rw [lookup_insert] at found'
  split at found'
  · cases found'
    exact absurd started other
  · exact found'

theorem returnThreadToPool_startsNone (done : lua.returnThreadToPool thread = some after) :
    StartsNone lua after := by
  -- Threads may go, but none comes.
  obtain ⟨record, found, ⟨-, rfl⟩ | ⟨-, -, rfl⟩⟩ := returnThreadToPool_eq_some done
  · intro _ _ found' _
    exact found'
  · intro thread' record' found' _
    rw [lookup_erase] at found'
    split at found'
    · cases found'
    · exact found'

theorem release_startsNone {resumed : Bool} (done : lua.release thread resumed = some after) :
    StartsNone lua after := by
  -- Those that wait are no part of this.
  unfold release at done
  cases resumed with
  | true =>
    have nothing := returnThreadToPool_startsNone done
    exact nothing
  | false => exact returnThreadToPool_startsNone done

/-- Only a call starts a coroutine. A script goes on, or ends, or waits. -/
theorem stepScript_startsNone {event : ScriptEvent} (done : lua.stepScript event = some after) :
    StartsNone lua after := by
  -- Each event gives a thread back, or sets its state to another one than started.
  cases event with
  | yield listed =>
    obtain ⟨thread, resumed, rest, record, -, -, rfl⟩ := yield_eq_some done
    unfold yieldThread
    split
    · intro _ _ found _
      exact found
    · intro _ _ found _
      exact found
  | finish =>
    obtain ⟨thread, resumed, rest, mid, -, set, released⟩ := finish_eq_some done
    intro thread' record found started
    have before := release_startsNone released thread' record found started
    exact setCoroutine_startsNone (by simp) set thread' record before started
  | fail =>
    obtain ⟨thread, resumed, rest, -, set⟩ := fail_eq_some done
    have nothing := setCoroutine_startsNone (by simp) set
    exact nothing
  | resume thread =>
    obtain ⟨-, -, record, -, ⟨-, released⟩ | ⟨-, rfl⟩ | ⟨-, set⟩ | ⟨-, rfl⟩⟩ := resume_eq_some done
    · exact release_startsNone released
    · intro _ _ found _
      exact found
    · exact setCoroutine_startsNone (by simp) set
    · intro _ _ found _
      exact found

/-- To stop a thread changes nothing about any other one. -/
theorem stop_startsNone {luaState : StatePtr} (done : lua.stop thread luaState = some after) :
    StartsNone lua after ∧
      ∀ other : ThreadPtr, other ≠ thread → after.allocated[other]? = lua.allocated[other]? := by
  obtain ⟨-, -, record, found, rfl⟩ := stop_eq_some done
  constructor
  · intro thread' record' found' started
    rw [lookup_insert] at found'
    split at found'
    · cases found'
      cases started
    · exact found'
  · intro other different
    simp [Ne.symm different]

/-- The thread that a call would take. -/
def spawned (lua : LuaThreads) (thread : ThreadPtr) : ThreadPtr :=
  lua.mThreadPool.getLast?.getD thread

/-- A call starts the thread that it takes, and no other one. -/
theorem call_starts {luaState : StatePtr} (done : lua.call thread luaState = some after) :
    (∃ record, after.allocated[lua.spawned thread]? = some record ∧ record.coroutine = .started) ∧
      ∀ other : ThreadPtr, other ≠ lua.spawned thread →
        after.allocated[other]? = lua.allocated[other]? := by
  -- The thread comes from the pool or is new, and is started either way.
  obtain ⟨taken, mid, ready, spawn, set, rfl⟩ := call_eq_some done
  obtain ⟨record, found, rfl⟩ := setCoroutine_eq_some set
  obtain ⟨rest, pool, rfl⟩ | ⟨pool, rfl, -, -, rfl⟩ := spawnThread_eq_some spawn
  · have same : lua.spawned thread = taken := by simp [spawned, pool]
    rw [same]
    refine ⟨⟨_, lookup_insert _ _ _ _ |>.trans (if_pos rfl), rfl⟩, fun other different => ?_⟩
    simp [Ne.symm different]
  · have same : lua.spawned taken = taken := by simp [spawned, pool]
    rw [same]
    refine ⟨⟨_, lookup_insert _ _ _ _ |>.trans (if_pos rfl), rfl⟩, fun other different => ?_⟩
    simp [Ne.symm different]

end LuaThreads

/-- The threads, the pointers that objects keep to them, and whose action each was called for last. -/
structure LuaActions where
  lua : LuaThreads
  mLuaThread : ObjectPtr → Option ThreadPtr
  owner : ThreadPtr → Option ObjectPtr

/-- What happens to actions. One that is started for no object is of no concern to any. -/
inductive LuaActionEvent where
  | start (object : Option ObjectPtr) (thread : ThreadPtr) (luaState : StatePtr)
  | script (event : ScriptEvent)
  | cancel (object : ObjectPtr) (luaState : StatePtr)
  | destroy (object : ObjectPtr)
deriving DecidableEq

namespace LuaActions

def empty : LuaActions where
  lua := .empty
  mLuaThread := fun _ => none
  owner := fun _ => none

variable (actions : LuaActions)

/-- Whether an object may start an action. To ask a thread that was deleted is undefined. -/
def mayStart (object : Option ObjectPtr) : Option Bool :=
  match object.bind actions.mLuaThread with
  | none => some true
  | some thread => actions.lua.allocated[thread]?.map LuaThread.isDead

/-- The threads after a call, and the thread that it took, which an object keeps if there is one. -/
def keep (object : Option ObjectPtr) (lua : LuaThreads) (thread : ThreadPtr) : LuaActions :=
  match object with
  | none => { actions with lua, owner := Function.update actions.owner thread none }
  | some object =>
    { lua
      mLuaThread := Function.update actions.mLuaThread object (some thread)
      owner := Function.update actions.owner thread (some object) }

/-- `Ability::Tick` and `nThread.Create`, up to where the script starts. -/
def start (object : Option ObjectPtr) (thread : ThreadPtr) (luaState : StatePtr) :
    Option LuaActions := do
  if ← actions.mayStart object then
    let lua ← actions.lua.call thread luaState
    return actions.keep object lua (actions.lua.spawned thread)
  else return actions

/-- `Instance::CancelAction` -/
def cancelAction (object : ObjectPtr) (luaState : StatePtr) : Option LuaActions :=
  match actions.mLuaThread object with
  | none => some actions
  | some thread => (actions.lua.stop thread luaState).map fun lua => { actions with lua }

def destroy (object : ObjectPtr) : LuaActions where
  lua := actions.lua
  mLuaThread := Function.update actions.mLuaThread object none
  owner := fun thread => if actions.owner thread = some object then none else actions.owner thread

def step : LuaActionEvent → Option LuaActions
  | .start object thread luaState => actions.start object thread luaState
  | .script event => (actions.lua.stepScript event).map fun lua => { actions with lua }
  | .cancel object luaState => actions.cancelAction object luaState
  | .destroy object => some (actions.destroy object)

/-- No two objects keep a pointer to one thread that runs. -/
def NoneShared : Prop :=
  ∀ first second thread, actions.mLuaThread first = some thread →
    actions.mLuaThread second = some thread →
    ∀ record ∈ actions.lua.allocated[thread]?, record.coroutine = .started → first = second

/--
A step leaves no two objects with one thread that runs.

If it cancels the action of an object, its thread is still there, and the threads that run for
other objects stay as they are.
-/
structure Isolates (event : LuaActionEvent) : Prop where
  alone : ∀ after, actions.step event = some after → after.NoneShared
  there : ∀ object luaState, event = .cancel object luaState →
    ∀ thread ∈ actions.mLuaThread object, (actions.lua.allocated[thread]?).isSome
  others : ∀ object luaState, event = .cancel object luaState →
    ∀ after, actions.step event = some after → ∀ thread other, actions.owner thread = some other →
      other ≠ object → ∀ record ∈ actions.lua.allocated[thread]?, record.coroutine = .started →
        after.lua.allocated[thread]? = some record

/--
An action that starts takes no thread that another object keeps a pointer to, and an action that is
cancelled has not lost its thread.
-/
structure TakesUnshared (event : LuaActionEvent) : Prop where
  start : ∀ object thread luaState, event = .start (some object) thread luaState →
    actions.mayStart (some object) = some true → (actions.step event).isSome →
    ∀ other, other ≠ object → actions.mLuaThread other ≠ some (actions.lua.spawned thread)
  cancel : ∀ object luaState, event = .cancel object luaState →
    ∀ thread ∈ actions.mLuaThread object, (actions.lua.allocated[thread]?).isSome

/-- Each thread is kept by one object, and by the one that it runs for. -/
structure Kept (actions : LuaActions) : Prop where
  once : ∀ first second thread, actions.mLuaThread first = some thread →
    actions.mLuaThread second = some thread → first = second
  owned : ∀ thread object, actions.owner thread = some object →
    ∀ record ∈ actions.lua.allocated[thread]?, record.coroutine = .started →
      actions.mLuaThread object = some thread

variable {actions : LuaActions}

theorem Kept.noneShared (kept : actions.Kept) : actions.NoneShared :=
  fun first second thread one two _ _ _ => kept.once first second thread one two

/-- Threads that start nothing leave every thread with the object that it runs for. -/
theorem Kept.withLua (kept : actions.Kept) {after : LuaThreads}
    (nothing : LuaThreads.StartsNone actions.lua after) : { actions with lua := after }.Kept where
  once := kept.once
  owned := by
    intro thread object owner record found started
    exact kept.owned thread object owner record (nothing thread record found started) started

theorem Kept.destroy (kept : actions.Kept) (object : ObjectPtr) : (actions.destroy object).Kept where
  once := by
  -- Nothing points from the destroyed object, and nothing runs for it.
    intro first second thread one two
    simp only [LuaActions.destroy, Function.update_apply] at one two
    split at one
    · cases one
    · split at two
      · cases two
      · exact kept.once first second thread one two
  owned := by
    intro thread other owner record found started
    simp only [LuaActions.destroy] at owner
    split at owner
    · cases owner
    · -- What runs for another object than the destroyed one is not touched.
      rename_i different
      have away : other ≠ object := by
        rintro rfl
        exact different owner
      simpa [LuaActions.destroy, away] using kept.owned thread other owner record found started

/-- What a start does, once it is carried out. -/
theorem start_eq_some {object : Option ObjectPtr} {thread : ThreadPtr} {luaState : StatePtr}
    {after : LuaActions} (done : actions.start object thread luaState = some after) :
    (actions.mayStart object = some false ∧ after = actions) ∨
      (actions.mayStart object = some true ∧ ∃ lua, actions.lua.call thread luaState = some lua ∧
        after = actions.keep object lua (actions.lua.spawned thread)) := by
  unfold start at done
  cases may : actions.mayStart object with
  | none => simp [may] at done
  | some free =>
    cases free with
    | false => exact .inl ⟨rfl, by simpa [may] using done.symm⟩
    | true =>
      cases called : actions.lua.call thread luaState with
      | none => simp [may, called] at done
      | some lua =>
        refine .inr ⟨rfl, lua, rfl, ?_⟩
        simpa [may, called] using done.symm

/-- An object that may start an action has no thread that runs. -/
theorem mayStart_dead {object : ObjectPtr} (may : actions.mayStart (some object) = some true)
    {thread : ThreadPtr} (keeps : actions.mLuaThread object = some thread) {record : LuaThread}
    (found : actions.lua.allocated[thread]? = some record) : record.coroutine ≠ .started := by
  intro started
  simp [mayStart, keeps, found, LuaThread.isDead, started] at may

theorem Kept.start (kept : actions.Kept) {object : Option ObjectPtr} {thread : ThreadPtr}
    {luaState : StatePtr} (unshared : actions.TakesUnshared (.start object thread luaState))
    {after : LuaActions} (done : actions.start object thread luaState = some after) : after.Kept := by
  -- The thread that is taken changes its object, and was the thread of no other.
  obtain ⟨-, rfl⟩ | ⟨may, lua, called, rfl⟩ := start_eq_some done
  · exact kept
  · obtain ⟨-, others⟩ := LuaThreads.call_starts called
    unfold keep
    cases object with
    | none =>
      constructor
      · exact kept.once
      · intro thread' object' owner record found started
        simp only [Function.update_apply] at owner
        split at owner
        · cases owner
        · rename_i different
          rw [Option.mem_def, others thread' different] at found
          exact kept.owned thread' object' owner record found started
    | some object =>
      have alone := unshared.start object thread luaState rfl may (by simp [step, done])
      constructor
      · intro first second thread' one two
        simp only [Function.update_apply] at one two
        by_cases left : first = object
        · by_cases right : second = object
          · rw [left, right]
          · -- The other object would point to the thread that was taken.
            rw [if_pos left] at one
            rw [if_neg right, ← one] at two
            exact absurd two (alone second right)
        · rw [if_neg left] at one
          by_cases right : second = object
          · rw [if_pos right] at two
            rw [← two] at one
            exact absurd one (alone first left)
          · rw [if_neg right] at two
            exact kept.once first second thread' one two
      · intro thread' object' owner record found started
        simp only [Function.update_apply] at owner ⊢
        split at owner
        · rename_i same
          cases owner
          rw [if_pos rfl, same]
        · rename_i different
          rw [Option.mem_def, others thread' different] at found
          have keeps := kept.owned thread' object' owner record found started
          have away : object' ≠ object := by
            rintro rfl
            exact mayStart_dead may keeps found started
          rw [if_neg away]
          exact keeps

theorem Kept.step (kept : actions.Kept) {event : LuaActionEvent}
    (unshared : actions.TakesUnshared event) {after : LuaActions}
    (taken : actions.step event = some after) : after.Kept := by
  -- Only a start can give a thread to an object.
  cases event with
  | start object thread luaState => exact kept.start unshared taken
  | script event =>
    obtain ⟨lua, stepped, rfl⟩ := Option.map_eq_some_iff.mp taken
    exact kept.withLua (LuaThreads.stepScript_startsNone stepped)
  | destroy object =>
    cases taken
    exact kept.destroy object
  | cancel object luaState =>
    simp only [LuaActions.step, cancelAction] at taken
    split at taken
    · cases taken
      exact kept
    · obtain ⟨lua, stopped, rfl⟩ := Option.map_eq_some_iff.mp taken
      exact kept.withLua (LuaThreads.stop_startsNone stopped).1

/-- What is cancelled runs for no other object, because its object is the one that points to it. -/
theorem Kept.cancel_others (kept : actions.Kept) {object : ObjectPtr} {luaState : StatePtr}
    {after : LuaActions} (taken : actions.step (.cancel object luaState) = some after)
    {thread : ThreadPtr} {other : ObjectPtr} (owner : actions.owner thread = some other)
    (different : other ≠ object) {record : LuaThread}
    (found : actions.lua.allocated[thread]? = some record) (started : record.coroutine = .started) :
    after.lua.allocated[thread]? = some record := by
  -- The object that is cancelled is the only one that points to its thread.
  have keeps := kept.owned thread other owner record found started
  simp only [LuaActions.step, cancelAction] at taken
  split at taken
  · cases taken
    exact found
  · rename_i cancelled pointer
    obtain ⟨lua, stopped, rfl⟩ := Option.map_eq_some_iff.mp taken
    have away : thread ≠ cancelled := by
      rintro rfl
      exact different (kept.once other object thread keeps pointer)
    rw [(LuaThreads.stop_startsNone stopped).2 thread away]
    exact found

/-- A step isolates the actions exactly if it takes no thread that another object points to. -/
theorem takesUnshared_iff_isolates (kept : actions.Kept) (event : LuaActionEvent) :
    actions.TakesUnshared event ↔ actions.Isolates event := by
  constructor
  · intro unshared
    constructor
    · intro after taken
      exact (kept.step unshared taken).noneShared
    · exact unshared.cancel
    · rintro object luaState rfl after taken thread other owner different record found started
      exact kept.cancel_others taken owner different found started
  · intro isolates
    constructor
    · rintro object thread luaState rfl may possible other different pointer
      obtain ⟨after, taken⟩ := Option.isSome_iff_exists.mp possible
      obtain ⟨refused, -⟩ | ⟨-, lua, called, rfl⟩ := start_eq_some taken
      · rw [may] at refused
        cases refused
      · -- Both objects would point to the thread, which runs.
        obtain ⟨⟨record, found, started⟩, -⟩ := LuaThreads.call_starts called
        have same := isolates.alone _ taken object other (actions.lua.spawned thread)
          (by simp [keep]) (by simpa [keep, different] using pointer) record found started
        exact different same.symm
    · exact isolates.there

theorem kept_empty : empty.Kept where
  once := by
    intro _ _ _ one
    cases one
  owned := by
    intro _ _ owner
    cases owner

/-- Actions are isolated in exactly the runs in which none takes the thread of another object. -/
theorem isolates_iff_takesUnshared (events : List LuaActionEvent) :
    Along step Isolates empty events ↔ Along step TakesUnshared empty events := by
  symm
  apply @Along.congr _ _ step Kept TakesUnshared Isolates
  · intro actions event after kept unshared taken
    exact kept.step unshared taken
  · intro actions event kept
    exact takesUnshared_iff_isolates kept event
  · exact kept_empty

/-- The second object is given the thread that the first one has finished with, and still keeps. -/
theorem not_isolates : ¬ ∀ events : List LuaActionEvent, Along step Isolates empty events := by
  intro all
  have alone : (final step empty [.start (some 0) 0 0, .script .finish, .start (some 1) 2 2]).NoneShared :=
    (all _).final NoneShared (fun _ _ after _ isolates taken => isolates.alone after taken)
      kept_empty.noneShared
  have first : (final step empty [.start (some 0) 0 0, .script .finish,
      .start (some 1) 2 2]).mLuaThread 0 = some 0 := by decide
  have second : (final step empty [.start (some 0) 0 0, .script .finish,
      .start (some 1) 2 2]).mLuaThread 1 = some 0 := by decide
  have runs : (final step empty [.start (some 0) 0 0, .script .finish,
      .start (some 1) 2 2]).lua.allocated[0]? = some ⟨0, .started⟩ := by decide
  have same := alone 0 1 0 first second _ runs rfl
  cases same

end LuaActions

end Recap.Game
