import Recap.Lib.OrderedMap
import Recap.Lib.Runs

/-! The threads that the scripts of an instance run on, their registry, and their pool. -/

namespace Recap.Game

open Recap.Runs Recap.OrderedMap

/-- `lua_State *`, by the number of its address. -/
abbrev StatePtr := Nat

/-- `LuaThread *`, by the number of its address. -/
abbrev ThreadPtr := Nat

/-- What has become of the last function that a thread was called with. -/
inductive Coroutine where
  /-- There was none yet, or it was stopped. -/
  | none
  /-- It runs, or it has yielded. -/
  | started
  | finished
  | failed
deriving DecidableEq

/-- `LuaThread`: the state it owns, and its coroutine. -/
structure LuaThread where
  luaState : StatePtr
  coroutine : Coroutine
deriving DecidableEq

/-- `sol::thread_status::dead`, which a thread has that has nothing on its stack. -/
def LuaThread.isDead (thread : LuaThread) : Bool :=
  thread.coroutine = .none ∨ thread.coroutine = .finished

/--
`Lua`, by its threads: those that are allocated, the registry, the pool, and those that have yielded.

The running threads stand here with the innermost one first, and with whether they were resumed.
-/
structure LuaThreads where
  allocated : Std.TreeMap ThreadPtr LuaThread
  mThreads : Std.TreeMap StatePtr ThreadPtr
  mThreadPool : List ThreadPtr
  mYieldedThreads : Finset ThreadPtr
  running : List (ThreadPtr × Bool)

/-- What the script of the innermost running thread does, or the update of a yielded one. -/
inductive ScriptEvent where
  /-- Yields, by a function that looks the thread up or by a plain one. -/
  | yield (listed : Bool)
  | finish
  | fail
  | resume (thread : ThreadPtr)
deriving DecidableEq

/-- What happens to threads. New ones come with the addresses that they are allocated at. -/
inductive LuaEvent where
  | call (thread : ThreadPtr) (luaState : StatePtr)
  | script (event : ScriptEvent)
  | stop (thread : ThreadPtr) (luaState : StatePtr)
deriving DecidableEq

namespace LuaThreads

def empty : LuaThreads where
  allocated := ∅
  mThreads := ∅
  mThreadPool := []
  mYieldedThreads := ∅
  running := []

variable (lua : LuaThreads)

/-- A state is owned by a thread, so that nothing else is allocated there. -/
def owned (luaState : StatePtr) : Bool :=
  lua.allocated.toList.any fun entry => entry.2.luaState = luaState

def setCoroutine (thread : ThreadPtr) (coroutine : Coroutine) : Option LuaThreads := do
  let record ← lua.allocated[thread]?
  return { lua with allocated := lua.allocated.insert thread { record with coroutine } }

/-- `Lua::SpawnThread`, with the addresses of a new thread if the pool is empty. -/
def spawnThread (thread : ThreadPtr) (luaState : StatePtr) : Option (ThreadPtr × LuaThreads) :=
  match lua.mThreadPool.getLast? with
  | some pooled => some (pooled, { lua with mThreadPool := lua.mThreadPool.dropLast })
  | none =>
    if thread ∈ lua.allocated ∨ lua.owned luaState then none
    else
      some (thread, { lua with
        allocated := lua.allocated.insert thread ⟨luaState, .none⟩
        mThreads := lua.mThreads.insertIfNew luaState thread })

/-- `LuaThread::call` up to where the function starts. -/
def call (thread : ThreadPtr) (luaState : StatePtr) : Option LuaThreads := do
  let (thread, lua) ← lua.spawnThread thread luaState
  let lua ← lua.setCoroutine thread .started
  return { lua with running := (thread, false) :: lua.running }

def getThread (luaState : StatePtr) : Option ThreadPtr := lua.mThreads[luaState]?

/-- `Lua::YieldThread`, for a thread that was found or not. -/
def yieldThread (thread : Option ThreadPtr) : LuaThreads :=
  match thread with
  | none => lua
  | some thread => { lua with mYieldedThreads := insert thread lua.mYieldedThreads }

/-- `Lua::ReturnThreadToPool`. To erase what is not found is undefined. -/
def returnThreadToPool (thread : ThreadPtr) : Option LuaThreads := do
  let record ← lua.allocated[thread]?
  if lua.mThreads.size > 256 then
    let _ ← lua.mThreads[record.luaState]?
    return { lua with
      mThreads := lua.mThreads.erase record.luaState
      allocated := lua.allocated.erase thread }
  else return { lua with mThreadPool := lua.mThreadPool ++ [thread] }

/-- A thread that is done with leaves the yielded ones, if it was resumed, and returns to the pool. -/
def release (thread : ThreadPtr) (resumed : Bool) : Option LuaThreads :=
  (if resumed then { lua with mYieldedThreads := lua.mYieldedThreads.erase thread }
    else lua).returnThreadToPool thread

def stepScript : ScriptEvent → Option LuaThreads
  | .yield listed =>
    match lua.running with
    | [] => none
    | (thread, _) :: rest => do
      let record : LuaThread ← lua.allocated[thread]?
      return { lua with running := rest }.yieldThread
        (if listed then lua.getThread record.luaState else none)
  | .finish =>
    match lua.running with
    | [] => none
    | (thread, resumed) :: rest => do
      let lua ← { lua with running := rest }.setCoroutine thread .finished
      lua.release thread resumed
  | .fail =>
    match lua.running with
    | [] => none
    | (thread, _) :: rest => { lua with running := rest }.setCoroutine thread .failed
  | .resume thread =>
    if lua.running ≠ [] ∨ thread ∉ lua.mYieldedThreads then none
    else do
      let record ← lua.allocated[thread]?
      match record.coroutine with
      | .none => lua.release thread true
      | .started => return { lua with running := [(thread, true)] }
      -- What has finished cannot be resumed, which is an error.
      | .finished => lua.setCoroutine thread .failed
      | .failed => return lua

/-- `LuaThread::stop`, which lets a state go and owns a new one. No script runs then. -/
def stop (thread : ThreadPtr) (luaState : StatePtr) : Option LuaThreads :=
  if lua.running ≠ [] ∨ lua.owned luaState then none
  else
    lua.allocated[thread]?.map fun _ =>
      { lua with allocated := lua.allocated.insert thread ⟨luaState, .none⟩ }

def step : LuaEvent → Option LuaThreads
  | .call thread luaState => lua.call thread luaState
  | .script event => lua.stepScript event
  | .stop thread luaState => lua.stop thread luaState

/-- Every thread is found under the state that it owns, and nothing is found under any other. -/
def KeysOwned : Prop :=
  ∀ (luaState : StatePtr) (thread : ThreadPtr), lua.mThreads[luaState]? = some thread ↔
    ∃ record, lua.allocated[thread]? = some record ∧ record.luaState = luaState

variable {lua : LuaThreads}

theorem owned_iff {luaState : StatePtr} :
    lua.owned luaState = true ↔ ∃ (thread : ThreadPtr) (record : LuaThread),
      lua.allocated[thread]? = some record ∧ record.luaState = luaState := by
  -- The entries of the map and its lookups are the same thing.
  simp only [owned, List.any_eq_true, decide_eq_true_eq]
  constructor
  · rintro ⟨⟨thread, record⟩, member, same⟩
    exact ⟨thread, record, Std.TreeMap.mem_toList_iff_getElem?_eq_some.mp member, same⟩
  · rintro ⟨thread, record, found, same⟩
    exact ⟨⟨thread, record⟩, Std.TreeMap.mem_toList_iff_getElem?_eq_some.mpr found, same⟩

/-- A change that leaves the registry, and the state of every thread, as they are. -/
structure SameKeys (lua after : LuaThreads) : Prop where
  registry : after.mThreads = lua.mThreads
  states : ∀ thread : ThreadPtr, (after.allocated[thread]?).map LuaThread.luaState =
    (lua.allocated[thread]?).map LuaThread.luaState

theorem SameKeys.keysOwned {after : LuaThreads} (same : SameKeys lua after) (keys : lua.KeysOwned) :
    after.KeysOwned := by
  -- The registry reads nothing of a thread but the state it owns.
  intro luaState thread
  have found : ∀ lua : LuaThreads, (∃ record, lua.allocated[thread]? = some record ∧
      record.luaState = luaState) ↔ (lua.allocated[thread]?).map LuaThread.luaState = some luaState := by
    simp
  rw [found, same.states, ← found, same.registry]
  exact keys luaState thread

theorem setCoroutine_eq_some {thread : ThreadPtr} {coroutine : Coroutine} {after : LuaThreads}
    (done : lua.setCoroutine thread coroutine = some after) :
    ∃ record, lua.allocated[thread]? = some record ∧
      after = { lua with allocated := lua.allocated.insert thread { record with coroutine } } := by
  cases found : lua.allocated[thread]? with
  | none => simp [setCoroutine, found] at done
  | some record =>
    refine ⟨record, rfl, ?_⟩
    simpa [setCoroutine, found] using done.symm

theorem setCoroutine_sameKeys {thread : ThreadPtr} {coroutine : Coroutine} {after : LuaThreads}
    (done : lua.setCoroutine thread coroutine = some after) : SameKeys lua after := by
  -- Only the coroutine of one record is written.
  obtain ⟨record, found, rfl⟩ := setCoroutine_eq_some done
  constructor
  · rfl
  · intro other
    by_cases same : thread = other
    · subst same
      simp [found]
    · simp [same]

/-- What a return does: the thread is pooled, or it is deleted with the entry of its state. -/
theorem returnThreadToPool_eq_some {thread : ThreadPtr} {after : LuaThreads}
    (done : lua.returnThreadToPool thread = some after) :
    ∃ record, lua.allocated[thread]? = some record ∧
      ((lua.mThreads.size ≤ 256 ∧
          after = { lua with mThreadPool := lua.mThreadPool ++ [thread] }) ∨
        (lua.mThreads.size > 256 ∧ lua.mThreads[record.luaState]?.isSome ∧
          after = { lua with
            mThreads := lua.mThreads.erase record.luaState
            allocated := lua.allocated.erase thread })) := by
  -- The number of registered threads decides between the pool and the deletion.
  cases found : lua.allocated[thread]? with
  | none => simp [returnThreadToPool, found] at done
  | some record =>
    refine ⟨record, rfl, ?_⟩
    by_cases many : lua.mThreads.size > 256
    · cases keyed : lua.mThreads[record.luaState]? with
      | none => simp [returnThreadToPool, found, many, keyed] at done
      | some other =>
        refine .inr ⟨many, by simp, ?_⟩
        simpa [returnThreadToPool, found, many, keyed] using done.symm
    · refine .inl ⟨by omega, ?_⟩
      simpa [returnThreadToPool, found, many] using done.symm

theorem KeysOwned.returnThreadToPool (keys : lua.KeysOwned) {thread : ThreadPtr}
    {after : LuaThreads} (done : lua.returnThreadToPool thread = some after) : after.KeysOwned := by
  obtain ⟨record, found, ⟨-, rfl⟩ | ⟨-, -, rfl⟩⟩ := returnThreadToPool_eq_some done
  · exact keys
  · intro luaState other
    simp only [lookup_erase]
    by_cases own : record.luaState = luaState
    · -- The erased state is the one of the deleted thread, and of no other.
      rw [if_pos own]
      constructor
      · intro missing
        cases missing
      · rintro ⟨kept, present, same⟩
        split at present
        · cases present
        · rename_i different
          have first := (keys luaState thread).mpr ⟨record, found, own⟩
          have second := (keys luaState other).mpr ⟨kept, present, same⟩
          exact absurd (Option.some_inj.mp (first.symm.trans second)) different
    · rw [if_neg own, keys luaState other]
      by_cases same : thread = other
      · subst same
        simp [found, own]
      · simp [same]

theorem KeysOwned.release (keys : lua.KeysOwned) {thread : ThreadPtr} {resumed : Bool}
    {after : LuaThreads} (done : lua.release thread resumed = some after) : after.KeysOwned := by
  -- Those that wait are no part of the registry.
  unfold LuaThreads.release at done
  cases resumed with
  | true =>
    refine KeysOwned.returnThreadToPool ?_ done
    exact keys
  | false => exact keys.returnThreadToPool done

section Steps

/-! What each step does, once it is taken. -/

variable {after : LuaThreads}

theorem yield_eq_some {listed : Bool} (done : lua.stepScript (.yield listed) = some after) :
    ∃ thread resumed rest record, lua.running = (thread, resumed) :: rest ∧
      lua.allocated[thread]? = some record ∧
      after = { lua with running := rest }.yieldThread
        (if listed then lua.getThread record.luaState else none) := by
  cases active : lua.running with
  | nil => simp [stepScript, active] at done
  | cons innermost rest =>
    obtain ⟨thread, resumed⟩ := innermost
    cases found : lua.allocated[thread]? with
    | none => simp [stepScript, active, found] at done
    | some record =>
      refine ⟨thread, resumed, rest, record, rfl, found, ?_⟩
      simpa [stepScript, active, found] using done.symm

theorem finish_eq_some (done : lua.stepScript .finish = some after) :
    ∃ thread resumed rest mid, lua.running = (thread, resumed) :: rest ∧
      { lua with running := rest }.setCoroutine thread .finished = some mid ∧
      mid.release thread resumed = some after := by
  -- Only the innermost thread can finish.
  cases active : lua.running with
  | nil => simp [stepScript, active] at done
  | cons innermost rest =>
    obtain ⟨thread, resumed⟩ := innermost
    simp only [stepScript, active, Option.bind_eq_bind, Option.bind_eq_some_iff] at done
    obtain ⟨mid, set, released⟩ := done
    exact ⟨thread, resumed, rest, mid, rfl, set, released⟩

theorem fail_eq_some (done : lua.stepScript .fail = some after) :
    ∃ thread resumed rest, lua.running = (thread, resumed) :: rest ∧
      { lua with running := rest }.setCoroutine thread .failed = some after := by
  -- Only the innermost thread can fail.
  cases active : lua.running with
  | nil => simp [stepScript, active] at done
  | cons innermost rest =>
    obtain ⟨thread, resumed⟩ := innermost
    exact ⟨thread, resumed, rest, rfl, by simpa [stepScript, active] using done⟩

theorem resume_eq_some {thread : ThreadPtr} (done : lua.stepScript (.resume thread) = some after) :
    lua.running = [] ∧ thread ∈ lua.mYieldedThreads ∧ ∃ record,
      lua.allocated[thread]? = some record ∧
      ((record.coroutine = .none ∧ lua.release thread true = some after) ∨
        (record.coroutine = .started ∧ after = { lua with running := [(thread, true)] }) ∨
        (record.coroutine = .finished ∧ lua.setCoroutine thread .failed = some after) ∨
        (record.coroutine = .failed ∧ after = lua)) := by
  simp only [stepScript] at done
  split at done
  · cases done
  · rename_i idle
    rw [not_or, not_not, not_not] at idle
    refine ⟨idle.1, idle.2, ?_⟩
    cases found : lua.allocated[thread]? with
    | none => simp [found] at done
    | some record =>
      refine ⟨record, rfl, ?_⟩
      simp only [found, Option.bind_eq_bind, Option.bind_some] at done
      cases ended : record.coroutine with
      | none => exact .inl ⟨rfl, by simpa [ended] using done⟩
      | started => exact .inr (.inl ⟨rfl, by simpa [ended] using done.symm⟩)
      | finished => exact .inr (.inr (.inl ⟨rfl, by simpa [ended] using done⟩))
      | failed => exact .inr (.inr (.inr ⟨rfl, by simpa [ended] using done.symm⟩))

theorem stop_eq_some {thread : ThreadPtr} {luaState : StatePtr}
    (done : lua.stop thread luaState = some after) :
    lua.running = [] ∧ lua.owned luaState = false ∧ ∃ record,
      lua.allocated[thread]? = some record ∧
      after = { lua with allocated := lua.allocated.insert thread ⟨luaState, .none⟩ } := by
  -- No script runs, and nothing else owns the new state.
  unfold stop at done
  split at done
  · cases done
  · rename_i idle
    rw [not_or, not_not, Bool.not_eq_true] at idle
    obtain ⟨record, found, same⟩ := Option.map_eq_some_iff.mp done
    exact ⟨idle.1, idle.2, record, found, same.symm⟩

/-- A thread is taken from the end of the pool, or it is a new one. -/
theorem spawnThread_eq_some {thread spawned : ThreadPtr} {luaState : StatePtr}
    (done : lua.spawnThread thread luaState = some (spawned, after)) :
    (∃ rest, lua.mThreadPool = rest ++ [spawned] ∧ after = { lua with mThreadPool := rest }) ∨
      (lua.mThreadPool = [] ∧ spawned = thread ∧ lua.allocated[thread]? = none ∧
        lua.owned luaState = false ∧
        after = { lua with
          allocated := lua.allocated.insert thread ⟨luaState, .none⟩
          mThreads := lua.mThreads.insertIfNew luaState thread }) := by
  unfold spawnThread at done
  cases last : lua.mThreadPool.getLast? with
  | some pooled =>
    obtain ⟨rest, split⟩ := List.getLast?_eq_some_iff.mp last
    simp only [last, Option.some.injEq, Prod.mk.injEq] at done
    obtain ⟨rfl, rfl⟩ := done
    exact .inl ⟨rest, split, by simp [split]⟩
  | none =>
    simp only [last] at done
    split at done
    · cases done
    · rename_i free
      rw [not_or, Bool.not_eq_true] at free
      simp only [Option.some.injEq, Prod.mk.injEq] at done
      refine .inr ⟨List.getLast?_eq_none_iff.mp last, done.1.symm, ?_, free.2, done.2.symm⟩
      simpa using free.1

theorem call_eq_some {thread : ThreadPtr} {luaState : StatePtr}
    (done : lua.call thread luaState = some after) :
    ∃ spawned mid ready, lua.spawnThread thread luaState = some (spawned, mid) ∧
      mid.setCoroutine spawned .started = some ready ∧
      after = { ready with running := (spawned, false) :: ready.running } := by
  simp only [call, Option.bind_eq_bind, Option.bind_eq_some_iff] at done
  obtain ⟨⟨spawned, mid⟩, taken, ready, set, same⟩ := done
  exact ⟨spawned, mid, ready, taken, set, (Option.some_inj.mp same).symm⟩

end Steps

/-- What a script does leaves the registry in order. -/
theorem KeysOwned.stepScript (keys : lua.KeysOwned) {event : ScriptEvent} {after : LuaThreads}
    (done : lua.stepScript event = some after) : after.KeysOwned := by
  -- A script writes coroutines, and returns threads.
  cases event with
  | yield listed =>
    obtain ⟨thread, resumed, rest, record, -, -, rfl⟩ := yield_eq_some done
    unfold yieldThread
    split <;> exact keys
  | finish =>
    obtain ⟨thread, resumed, rest, mid, -, set, released⟩ := finish_eq_some done
    have kept : mid.KeysOwned := (setCoroutine_sameKeys set).keysOwned keys
    exact kept.release released
  | fail =>
    obtain ⟨thread, resumed, rest, -, set⟩ := fail_eq_some done
    exact (setCoroutine_sameKeys set).keysOwned keys
  | resume thread =>
    obtain ⟨-, -, record, -, ⟨-, released⟩ | ⟨-, rfl⟩ | ⟨-, set⟩ | ⟨-, rfl⟩⟩ := resume_eq_some done
    · exact keys.release released
    · exact keys
    · exact (setCoroutine_sameKeys set).keysOwned keys
    · exact keys

/-- A new thread is registered under its state, which was no key before. -/
theorem KeysOwned.insert (keys : lua.KeysOwned) {thread : ThreadPtr} {luaState : StatePtr}
    (new : lua.allocated[thread]? = none) (unused : lua.mThreads[luaState]? = none) :
    { lua with
      allocated := lua.allocated.insert thread ⟨luaState, .none⟩
      mThreads := lua.mThreads.insertIfNew luaState thread }.KeysOwned := by
  intro other found
  simp only [lookup_insertIfNew, lookup_insert]
  by_cases own : luaState = other
  · subst own
    rw [if_pos rfl, unused]
    by_cases same : thread = found
    · simp [same]
    · -- No other thread owns the state, as it is no key.
      have away := keys luaState found
      rw [unused] at away
      simpa [same] using away
  · rw [if_neg own, keys other found]
    by_cases same : thread = found
    · subst same
      simp [new, own]
    · simp [same]

theorem KeysOwned.call (keys : lua.KeysOwned) {thread : ThreadPtr} {luaState : StatePtr}
    {after : LuaThreads} (done : lua.call thread luaState = some after) : after.KeysOwned := by
  obtain ⟨spawned, mid, ready, taken, set, rfl⟩ := call_eq_some done
  have kept : mid.KeysOwned := by
    obtain ⟨rest, -, rfl⟩ | ⟨-, -, new, free, rfl⟩ := spawnThread_eq_some taken
    · exact keys
    · -- The new state is no key yet, because every key is owned.
      have unused : lua.mThreads[luaState]? = none := by
        by_contra used
        obtain ⟨other, registered⟩ := Option.ne_none_iff_exists'.mp used
        obtain ⟨record, found, same⟩ := (keys luaState other).mp registered
        have owner := owned_iff.mpr ⟨other, record, found, same⟩
        rw [free] at owner
        cases owner
      exact keys.insert new unused
  have prepared : ready.KeysOwned := (setCoroutine_sameKeys set).keysOwned kept
  exact prepared

/-- A thread that is stopped is still registered under the state that it has let go. -/
theorem KeysOwned.not_stop (keys : lua.KeysOwned) {thread : ThreadPtr} {luaState : StatePtr}
    {after : LuaThreads} (done : lua.stop thread luaState = some after) : ¬ after.KeysOwned := by
  obtain ⟨-, free, record, found, rfl⟩ := stop_eq_some done
  intro kept
  have registered := (keys record.luaState thread).mpr ⟨record, found, rfl⟩
  obtain ⟨now, present, same⟩ := (kept record.luaState thread).mp registered
  have owner : lua.owned luaState = true := by
    simp only [lookup_insert, if_pos, Option.some.injEq] at present
    rw [← present] at same
    exact owned_iff.mpr ⟨thread, record, found, same.symm⟩
  rw [free] at owner
  cases owner

theorem keysOwned_empty : empty.KeysOwned := by
  intro luaState thread
  simp [empty]

/-- A stop is carried out. -/
def Stops (lua : LuaThreads) (event : LuaEvent) : Prop :=
  (∃ thread luaState, event = .stop thread luaState) ∧ (lua.step event).isSome

/-- The registry stays in order through everything but a stop. -/
theorem keysOwned_step_iff (keys : lua.KeysOwned) {event : LuaEvent} {after : LuaThreads}
    (taken : lua.step event = some after) : after.KeysOwned ↔ ¬ lua.Stops event := by
  unfold Stops
  rw [taken]
  cases event with
  | call thread luaState => simpa using keys.call taken
  | script event => simpa using keys.stepScript taken
  | stop thread luaState => simpa using keys.not_stop taken

/-- Every thread is found under its own state as long as none is stopped, and no longer. -/
theorem keysOwned_iff_not_stops (events : List LuaEvent) :
    (∀ front, front <+: events → (final step empty front).KeysOwned) ↔
      Along step (fun lua event => ¬ lua.Stops event) empty events := by
  -- The registry in order needs nothing but itself to stay so.
  symm
  apply @Along.iff_final _ _ step (fun _ => True) KeysOwned fun lua event => ¬ lua.Stops event
  · intro _ _ _ _ _ _
    trivial
  · intro lua event refused stops
    have carried := stops.2
    rw [refused] at carried
    cases carried
  · intro lua event after _ keys taken
    exact keysOwned_step_iff keys taken
  · trivial
  · exact keysOwned_empty

/-- A thread that has returned to the pool is stopped, and is registered under a state that is gone. -/
theorem not_keysOwned : ¬ ∀ events, ∀ front, front <+: events →
    (final step empty front).KeysOwned := by
  intro all
  have keys := all [.call 0 0, .script .finish, .stop 0 1] _ List.prefix_rfl
  have registered : (final step empty [.call 0 0, .script .finish, .stop 0 1]).mThreads[0]? =
      some 0 := by decide
  obtain ⟨record, found, same⟩ := (keys 0 0).mp registered
  have moved : (final step empty [.call 0 0, .script .finish, .stop 0 1]).allocated[0]? =
      some ⟨1, .none⟩ := by decide
  rw [moved, Option.some.injEq] at found
  rw [← found] at same
  cases same

end LuaThreads

end Recap.Game
