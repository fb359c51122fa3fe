import Recap.Game.LuaThreads

/-! Every thread is in the pool or in the hands of one call, unless a script fails or a thread has
lost its key. -/

namespace Recap.Game.LuaThreads

open Recap.Runs Recap.OrderedMap

variable (lua : LuaThreads) (thread : ThreadPtr)

/-- The calls that hold a thread: those that run, and the one that has yielded unless it has failed. -/
def calls : Nat :=
  lua.running.count (thread, false) +
    if thread ∈ lua.mYieldedThreads ∧
      (lua.allocated[thread]?).any (fun record => record.coroutine ≠ .failed) then 1 else 0

/-- Each registered thread is in the pool once, or is held by one call, and never both. -/
def Conserved : Prop :=
  ∀ (luaState : StatePtr) (thread : ThreadPtr), lua.mThreads[luaState]? = some thread →
    lua.mThreadPool.count thread + lua.calls thread = 1

/-- The registry has the thread under the state that it owns. -/
def FindsItself : Prop :=
  ∀ record ∈ lua.allocated[thread]?, lua.mThreads[record.luaState]? = some thread

/--
Nothing fails, and a thread that is looked up is found.

A thread is looked up when it yields, and when it is deleted because there are too many.
-/
def InOrder : LuaEvent → Prop
  | .call _ _ => True
  | .stop _ _ => True
  | .script .fail => False
  | .script (.yield listed) => listed = true ∧ ∀ innermost ∈ lua.running.head?, lua.FindsItself innermost.1
  | .script .finish => ∀ innermost ∈ lua.running.head?,
      lua.mThreads.size > 256 → lua.FindsItself innermost.1
  | .script (.resume thread) => ∀ record ∈ lua.allocated[thread]?, record.coroutine = .none →
      lua.mThreads.size > 256 → lua.FindsItself thread

instance : Decidable (lua.FindsItself thread) :=
  inferInstanceAs (Decidable (∀ record ∈ lua.allocated[thread]?, _))

instance (event : LuaEvent) : Decidable (lua.InOrder event) :=
  match event with
  | .call _ _ => inferInstanceAs (Decidable True)
  | .stop _ _ => inferInstanceAs (Decidable True)
  | .script .fail => inferInstanceAs (Decidable False)
  | .script (.yield listed) => inferInstanceAs (Decidable (listed = true ∧ ∀ innermost ∈ lua.running.head?, _))
  | .script .finish => inferInstanceAs (Decidable (∀ innermost ∈ lua.running.head?, _))
  | .script (.resume thread) => inferInstanceAs (Decidable (∀ record ∈ lua.allocated[thread]?, _))

/-- All hands that a thread may be in. -/
def hands : Nat :=
  lua.mThreadPool.count thread + lua.running.count (thread, false) +
    if thread ∈ lua.mYieldedThreads then 1 else 0

/-- Every thread is in one pair of hands, but for one that may just be passed on. -/
structure Accounted (lua : LuaThreads) (passed : Option ThreadPtr) : Prop where
  once : ∀ thread : ThreadPtr, lua.hands thread =
    if (lua.allocated[thread]?).isSome ∧ passed ≠ some thread then 1 else 0
  active : ∀ (thread : ThreadPtr) resumed, (thread, resumed) ∈ lua.running →
    ∃ record : LuaThread, lua.allocated[thread]? = some record ∧ record.coroutine = .started
  waiting : ∀ thread ∈ lua.mYieldedThreads, ∀ record : LuaThread, lua.allocated[thread]? = some record →
    record.coroutine = .started ∨ record.coroutine = .none
  resumed : ∀ thread, (thread, true) ∈ lua.running → thread ∈ lua.mYieldedThreads
  distinct : (lua.running.map Prod.fst).Nodup
  registered : ∀ (luaState : StatePtr) (thread : ThreadPtr), lua.mThreads[luaState]? = some thread →
    (lua.allocated[thread]?).isSome
  single : ∀ (luaState other : StatePtr) (thread : ThreadPtr), lua.mThreads[luaState]? = some thread →
    lua.mThreads[other]? = some thread → luaState = other

variable {lua thread}

/-- A thread on the accounts is on the claim's accounts as well. -/
theorem Accounted.conserved (accounted : lua.Accounted none) : lua.Conserved := by
  intro luaState thread registered
  have present := accounted.registered luaState thread registered
  have once := accounted.once thread
  obtain ⟨record, found⟩ := Option.isSome_iff_exists.mp present
  have well : thread ∈ lua.mYieldedThreads → record.coroutine ≠ .failed := by
    intro yielded failed
    have waiting := accounted.waiting thread yielded record found
    rw [failed] at waiting
    simp at waiting
  simp only [present, ne_eq, reduceCtorEq, not_false_eq_true, and_self, if_true] at once
  rw [← once]
  unfold calls hands
  rw [found, Nat.add_assoc]
  by_cases yielded : thread ∈ lua.mYieldedThreads
  · simp [yielded, well yielded]
  · simp [yielded]

/-- A thread that is passed on is in no hands. -/
theorem Accounted.nowhere (accounted : lua.Accounted (some thread)) :
    thread ∉ lua.mThreadPool ∧ thread ∉ lua.mYieldedThreads ∧
      ∀ resumed, (thread, resumed) ∉ lua.running := by
  -- The sum of all hands is zero.
  have none := accounted.once thread
  simp only [ne_eq, not_true_eq_false, and_false, if_false, hands] at none
  have yielded : thread ∉ lua.mYieldedThreads := by
    intro member
    simp [member] at none
  refine ⟨List.count_eq_zero.mp (by omega), yielded, fun resumed member => ?_⟩
  cases resumed with
  | true => exact yielded (accounted.resumed thread member)
  | false =>
    have some := List.count_pos_iff.mpr member
    omega

/-- A thread that runs is another one than the one that is passed on. -/
theorem Accounted.ne_of_running (accounted : lua.Accounted (some thread)) {other : ThreadPtr}
    {resumed : Bool} (member : (other, resumed) ∈ lua.running) : thread ≠ other := by
  rintro rfl
  exact accounted.nowhere.2.2 resumed member

/-- A thread that waits is another one than the one that is passed on. -/
theorem Accounted.ne_of_yielded (accounted : lua.Accounted (some thread)) {other : ThreadPtr}
    (member : other ∈ lua.mYieldedThreads) : thread ≠ other := by
  rintro rfl
  exact accounted.nowhere.2.1 member

/-- A record that is replaced leaves the same threads allocated. -/
theorem isSome_replace {record : LuaThread} (found : lua.allocated[thread]? = some record)
    (record' : LuaThread) (other : ThreadPtr) :
    ((lua.allocated.insert thread record')[other]?).isSome = (lua.allocated[other]?).isSome := by
  by_cases same : thread = other
  · subst same
    simp [found]
  · simp [same]

/-- What becomes of the coroutine of a thread that is passed on is nobody else's business. -/
theorem Accounted.setCoroutine (accounted : lua.Accounted (some thread)) {coroutine : Coroutine}
    {after : LuaThreads} (done : lua.setCoroutine thread coroutine = some after) :
    after.Accounted (some thread) := by
  -- What is asked of coroutines is asked of threads that run or wait.
  obtain ⟨record, found, rfl⟩ := setCoroutine_eq_some done
  have there := isSome_replace found { record with coroutine }
  constructor
  · intro other
    rw [there]
    exact accounted.once other
  · intro other resumed member
    have different := accounted.ne_of_running member
    simpa [different] using accounted.active other resumed member
  · intro other member
    have different := accounted.ne_of_yielded member
    simpa [different] using accounted.waiting other member
  · exact accounted.resumed
  · exact accounted.distinct
  · intro luaState other keyed
    rw [there]
    exact accounted.registered luaState other keyed
  · exact accounted.single

/-- A thread that is passed on to the pool is there, or it is deleted along with its entry. -/
theorem Accounted.returnThreadToPool (accounted : lua.Accounted (some thread)) {after : LuaThreads}
    (finds : lua.mThreads.size > 256 → lua.FindsItself thread)
    (done : lua.returnThreadToPool thread = some after) : after.Accounted none := by
  -- The cases are those of the number of registered threads.
  obtain ⟨away, waits, runs⟩ := accounted.nowhere
  obtain ⟨record, found, ⟨-, rfl⟩ | ⟨many, -, rfl⟩⟩ := returnThreadToPool_eq_some done
  · constructor
    · intro other
      have once := accounted.once other
      simp only [hands, List.count_append, List.count_singleton] at once ⊢
      by_cases same : thread = other
      · subst same
        simp [found, waits, List.count_eq_zero.mpr away, List.count_eq_zero.mpr (runs false)]
      · simp only [same, Option.some.injEq, not_false_eq_true, and_true, ne_eq] at once
        simp [same, once]
    · exact accounted.active
    · exact accounted.waiting
    · exact accounted.resumed
    · exact accounted.distinct
    · exact accounted.registered
    · exact accounted.single
  · have own := finds many record found
    constructor
    · intro other
      have once := accounted.once other
      by_cases same : thread = other
      · subst same
        simpa [hands] using once
      · simpa [hands, same] using once
    · intro other resumed member
      have different := accounted.ne_of_running member
      simpa [different] using accounted.active other resumed member
    · intro other member
      have different := accounted.ne_of_yielded member
      simpa [different] using accounted.waiting other member
    · exact accounted.resumed
    · exact accounted.distinct
    · intro luaState other keyed
      simp only [lookup_erase] at keyed ⊢
      split at keyed
      · cases keyed
      · rename_i kept
        have different : thread ≠ other := by
          rintro rfl
          exact kept (accounted.single _ _ _ own keyed)
        rw [if_neg different]
        exact accounted.registered luaState other keyed
    · intro luaState other found first second
      simp only [lookup_erase] at first second
      split at first
      · cases first
      · split at second
        · cases second
        · exact accounted.single luaState other found first second

/-- The threads that run below the innermost one are other ones. -/
theorem Accounted.below (accounted : lua.Accounted none) {resumed : Bool}
    {rest : List (ThreadPtr × Bool)} (running : lua.running = (thread, resumed) :: rest) :
    (∀ other, (thread, other) ∉ rest) ∧ (rest.map Prod.fst).Nodup := by
  have distinct := accounted.distinct
  rw [running, List.map_cons, List.nodup_cons] at distinct
  exact ⟨fun other member => distinct.1 (List.mem_map.mpr ⟨_, member, rfl⟩), distinct.2⟩

/-- The innermost thread of a call is passed on when its function is left. -/
theorem Accounted.leaveCall (accounted : lua.Accounted none)
    {rest : List (ThreadPtr × Bool)} (running : lua.running = (thread, false) :: rest) :
    { lua with running := rest }.Accounted (some thread) := by
  -- One less runs, and no other count changes.
  obtain ⟨record, found, -⟩ := accounted.active thread false (by simp [running])
  constructor
  · intro other
    have once := accounted.once other
    simp only [hands, running, List.count_cons] at once ⊢
    by_cases same : thread = other
    · subst same
      have one : lua.mThreadPool.count thread + (rest.count (thread, false) + 1) +
          (if thread ∈ lua.mYieldedThreads then 1 else 0) = 1 := by
        simpa [found] using once
      have none : lua.mThreadPool.count thread + rest.count (thread, false) +
          (if thread ∈ lua.mYieldedThreads then 1 else 0) = 0 := by
        omega
      simpa using none
    · simpa [same] using once
  · intro other resumed member
    exact accounted.active other resumed (by simp [running, member])
  · exact accounted.waiting
  · intro other member
    exact accounted.resumed other (by simp [running, member])
  · exact (accounted.below running).2
  · exact accounted.registered
  · exact accounted.single

/-- A thread that was waiting is passed on if it waits no more, whether it runs or not. -/
theorem Accounted.leaveWaiting (accounted : lua.Accounted none) {rest : List (ThreadPtr × Bool)}
    (waits : thread ∈ lua.mYieldedThreads)
    (running : lua.running = (thread, true) :: rest ∨ (lua.running = [] ∧ rest = [])) :
    { lua with
      running := rest
      mYieldedThreads := lua.mYieldedThreads.erase thread }.Accounted (some thread) := by
  have part : ∀ entry ∈ rest, entry ∈ lua.running := by
    intro entry member
    obtain running | ⟨-, nothing⟩ := running
    · simp [running, member]
    · simp [nothing] at member
  -- A thread that waits runs at most because it was resumed.
  have others : ∀ other : ThreadPtr, thread ≠ other →
      rest.count (other, false) = lua.running.count (other, false) := by
    intro other different
    obtain running | ⟨idle, nothing⟩ := running
    · simp [running]
    · simp [idle, nothing]
  have away : ∀ resumed, (thread, resumed) ∉ rest := by
    obtain running | ⟨-, nothing⟩ := running
    · exact (accounted.below running).1
    · simp [nothing]
  constructor
  · intro other
    have once := accounted.once other
    simp only [hands, Finset.mem_erase] at once ⊢
    by_cases same : thread = other
    · subst same
      have present : (lua.allocated[thread]?).isSome := by
        by_contra missing
        rw [Option.not_isSome_iff_eq_none] at missing
        simp [missing, waits] at once
      have pooled : lua.mThreadPool.count thread = 0 := by
        simp only [waits, if_true, present] at once
        simp at once
        omega
      simp [pooled, List.count_eq_zero.mpr (away false)]
    · simpa [same, Ne.symm same, others other same] using once
  · intro other resumed member
    exact accounted.active other resumed (part _ member)
  · intro other member
    exact accounted.waiting other (Finset.mem_of_mem_erase member)
  · intro other member
    refine Finset.mem_erase.mpr ⟨fun same => ?_, accounted.resumed other (part _ member)⟩
    exact away true (same ▸ member)
  · obtain running | ⟨-, nothing⟩ := running
    · exact (accounted.below running).2
    · simp [nothing]
  · exact accounted.registered
  · exact accounted.single

/-- A call that yields stays with the thread, which waits from then on. -/
theorem Accounted.wait (accounted : lua.Accounted (some thread)) {record : LuaThread}
    (found : lua.allocated[thread]? = some record) (started : record.coroutine = .started) :
    { lua with mYieldedThreads := insert thread lua.mYieldedThreads }.Accounted none := by
  -- One more waits, and no other count changes.
  obtain ⟨away, waits, runs⟩ := accounted.nowhere
  constructor
  · intro other
    have once := accounted.once other
    simp only [hands, Finset.mem_insert] at once ⊢
    by_cases same : thread = other
    · subst same
      simp [found, List.count_eq_zero.mpr away, List.count_eq_zero.mpr (runs false)]
    · simpa [same, Ne.symm same] using once
  · exact accounted.active
  · intro other member record' found'
    obtain same | member := Finset.mem_insert.mp member
    · subst same
      rw [found, Option.some.injEq] at found'
      exact .inl (found' ▸ started)
    · exact accounted.waiting other member record' found'
  · intro other member
    exact Finset.mem_insert_of_mem (accounted.resumed other member)
  · exact accounted.distinct
  · exact accounted.registered
  · exact accounted.single

/-- A new thread is in no hands yet, because nobody has a thread that is not allocated. -/
theorem Accounted.register (accounted : lua.Accounted none) {luaState : StatePtr}
    (new : lua.allocated[thread]? = none) :
    { lua with
      allocated := lua.allocated.insert thread ⟨luaState, .none⟩
      mThreads := lua.mThreads.insertIfNew luaState thread }.Accounted (some thread) := by
  have nobody := accounted.once thread
  simp only [new, Option.isSome_none, Bool.false_eq_true, false_and, if_false, hands] at nobody
  have waits : thread ∉ lua.mYieldedThreads := by
    intro member
    simp [member] at nobody
  -- An entry that was there already stays the one of its thread.
  have entry : ∀ (key : StatePtr) (other : ThreadPtr),
      (lua.mThreads.insertIfNew luaState thread)[key]? = some other →
        lua.mThreads[key]? = some other ∨ (other = thread ∧ key = luaState) := by
    intro key other keyed
    rw [lookup_insertIfNew] at keyed
    split at keyed
    · rename_i same
      subst same
      cases old : lua.mThreads[luaState]? with
      | none => exact .inr ⟨by simpa [old] using keyed.symm, rfl⟩
      | some holder => exact .inl (by simpa [old] using keyed)
    · exact .inl keyed
  constructor
  · intro other
    have once := accounted.once other
    by_cases same : thread = other
    · subst same
      simpa [hands] using nobody
    · simpa [hands, same] using once
  · intro other resumed member
    obtain ⟨record, found, started⟩ := accounted.active other resumed member
    have different : thread ≠ other := by
      rintro rfl
      rw [new] at found
      cases found
    exact ⟨record, by simpa [different] using found, started⟩
  · intro other member
    have different : thread ≠ other := by
      rintro rfl
      exact waits member
    simpa [different] using accounted.waiting other member
  · exact accounted.resumed
  · exact accounted.distinct
  · intro key other keyed
    by_cases same : thread = other
    · simp [same]
    · obtain old | ⟨rfl, -⟩ := entry key other keyed
      · rw [lookup_insert, if_neg same]
        exact accounted.registered key other old
      · exact absurd rfl same
  · intro first second other left right
    -- No entry that was there already is the one of the new thread.
    have fresh : ∀ key : StatePtr, lua.mThreads[key]? ≠ some thread := by
      intro key keyed
      have present := accounted.registered key thread keyed
      rw [new] at present
      cases present
    obtain old | ⟨rfl, rfl⟩ := entry first other left
    · obtain old' | ⟨rfl, -⟩ := entry second other right
      · exact accounted.single first second other old old'
      · exact absurd old (fresh first)
    · obtain old' | ⟨-, rfl⟩ := entry second other right
      · exact absurd old' (fresh second)
      · rfl

theorem Accounted.spawnThread (accounted : lua.Accounted none) {spawned : ThreadPtr}
    {luaState : StatePtr} {after : LuaThreads}
    (done : lua.spawnThread thread luaState = some (spawned, after)) :
    after.Accounted (some spawned) := by
  -- The last thread of the pool is taken out of it, or a new one is made.
  obtain ⟨rest, pool, rfl⟩ | ⟨-, rfl, new, -, rfl⟩ := spawnThread_eq_some done
  · constructor
    · intro other
      have once := accounted.once other
      simp only [hands, pool, List.count_append, List.count_singleton] at once ⊢
      by_cases same : spawned = other
      · subst same
        have present : (lua.allocated[spawned]?).isSome := by
          by_contra missing
          rw [Option.not_isSome_iff_eq_none] at missing
          simp [missing] at once
        simp only [present, BEq.rfl, if_true, ne_eq, reduceCtorEq, not_false_eq_true, and_self,
          not_true_eq_false, and_false, if_false] at once ⊢
        omega
      · simpa [same] using once
    · exact accounted.active
    · exact accounted.waiting
    · exact accounted.resumed
    · exact accounted.distinct
    · exact accounted.registered
    · exact accounted.single
  · exact accounted.register new

/-- A thread that is passed on to a call runs from then on. -/
theorem Accounted.enter (accounted : lua.Accounted (some thread)) {record : LuaThread}
    (found : lua.allocated[thread]? = some record) (started : record.coroutine = .started) :
    { lua with running := (thread, false) :: lua.running }.Accounted none := by
  -- One more runs, and no other count changes.
  obtain ⟨away, waits, runs⟩ := accounted.nowhere
  constructor
  · intro other
    have once := accounted.once other
    simp only [hands, List.count_cons] at once ⊢
    by_cases same : thread = other
    · subst same
      simp [found, waits, List.count_eq_zero.mpr away, List.count_eq_zero.mpr (runs false)]
    · simpa [same] using once
  · intro other resumed member
    obtain same | member := List.mem_cons.mp member
    · cases same
      exact ⟨record, found, started⟩
    · exact accounted.active other resumed member
  · exact accounted.waiting
  · intro other member
    obtain same | member := List.mem_cons.mp member
    · cases same
    · exact accounted.resumed other member
  · rw [List.map_cons, List.nodup_cons]
    refine ⟨fun member => ?_, accounted.distinct⟩
    obtain ⟨⟨other, resumed⟩, inside, same⟩ := List.mem_map.mp member
    cases same
    exact runs resumed inside
  · exact accounted.registered
  · exact accounted.single

/-- A thread that is stopped stays in whose hands it is. Only its coroutine is gone, and its key. -/
theorem Accounted.stop (accounted : lua.Accounted none) {luaState : StatePtr} {after : LuaThreads}
    (done : lua.stop thread luaState = some after) : after.Accounted none := by
  -- The record of the thread is replaced, and everybody keeps what he has.
  obtain ⟨idle, -, record, found, rfl⟩ := stop_eq_some done
  have there := isSome_replace found ⟨luaState, .none⟩
  constructor
  · intro other
    rw [there]
    exact accounted.once other
  · intro other resumed member
    simp [idle] at member
  · intro other member record' found'
    rw [lookup_insert] at found'
    split at found'
    · cases found'
      exact .inr rfl
    · exact accounted.waiting other member record' found'
  · exact accounted.resumed
  · exact accounted.distinct
  · intro key other keyed
    rw [there]
    exact accounted.registered key other keyed
  · exact accounted.single

theorem FindsItself.setCoroutine (finds : lua.FindsItself thread) {coroutine : Coroutine}
    {after : LuaThreads} (done : lua.setCoroutine thread coroutine = some after) :
    after.FindsItself thread := by
  obtain ⟨record, found, rfl⟩ := setCoroutine_eq_some done
  intro record' found'
  simp only [lookup_insert, if_pos, Option.mem_def, Option.some.injEq] at found'
  rw [← found']
  exact finds record found

/-- A thread that is resumed runs, and waits all the while. -/
theorem Accounted.resume (accounted : lua.Accounted none) (waits : thread ∈ lua.mYieldedThreads)
    (idle : lua.running = []) {record : LuaThread} (found : lua.allocated[thread]? = some record)
    (started : record.coroutine = .started) :
    { lua with running := [(thread, true)] }.Accounted none := by
  -- A thread that is resumed counts as one that waits.
  constructor
  · intro other
    have once := accounted.once other
    simpa [hands, idle] using once
  · intro other resumed member
    cases List.mem_singleton.mp member
    exact ⟨record, found, started⟩
  · exact accounted.waiting
  · intro other member
    cases List.mem_singleton.mp member
    exact waits
  · exact List.nodup_singleton _
  · exact accounted.registered
  · exact accounted.single

/-- What a script does without failing leaves every thread in one pair of hands. -/
theorem Accounted.stepScript (accounted : lua.Accounted none) {event : ScriptEvent}
    (inOrder : lua.InOrder (.script event)) {after : LuaThreads}
    (done : lua.stepScript event = some after) : after.Accounted none := by
  -- Each event takes the innermost thread from one pair of hands to the next.
  cases event with
  | fail => cases inOrder
  | yield listed =>
    obtain ⟨thread, resumed, rest, record, running, found, rfl⟩ := yield_eq_some done
    obtain ⟨rfl, finds⟩ := inOrder
    have own : lua.getThread record.luaState = some thread :=
      finds (thread, resumed) (by simp [running]) record found
    obtain ⟨record', found', started⟩ := accounted.active thread resumed (by simp [running])
    rw [if_pos rfl, own]
    cases resumed with
    | false => exact (accounted.leaveCall running).wait found' started
    | true =>
      -- It waits already, as if it had been taken from those that wait and put back.
      have waits := accounted.resumed thread (by simp [running])
      have back := (accounted.leaveWaiting waits (.inl running)).wait found' started
      rw [Finset.insert_erase waits] at back
      have again : { lua with
          running := rest
          mYieldedThreads := insert thread lua.mYieldedThreads }.Accounted none := by
        rw [Finset.insert_eq_of_mem waits]
        exact back
      exact again
  | finish =>
    obtain ⟨thread, resumed, rest, mid, running, set, released⟩ := finish_eq_some done
    have finds : lua.mThreads.size > 256 → lua.FindsItself thread :=
      inOrder (thread, resumed) (by simp [running])
    obtain ⟨record, found, same⟩ := setCoroutine_eq_some set
    have keys : mid.mThreads = lua.mThreads := by rw [same]
    have still : mid.mThreads.size > 256 → mid.FindsItself thread := by
      intro many
      rw [keys] at many
      have before : { lua with running := rest }.FindsItself thread := finds many
      exact before.setCoroutine set
    cases resumed with
    | false => exact ((accounted.leaveCall running).setCoroutine set).returnThreadToPool still released
    | true =>
      have waits := accounted.resumed thread (by simp [running])
      have passed := accounted.leaveWaiting waits (.inl running)
      have ended : { lua with
          running := rest
          mYieldedThreads := lua.mYieldedThreads.erase thread }.setCoroutine thread .finished =
            some { mid with mYieldedThreads := mid.mYieldedThreads.erase thread } := by
        rw [same]
        simp [LuaThreads.setCoroutine, found]
      exact (passed.setCoroutine ended).returnThreadToPool still released
  | resume thread =>
    obtain ⟨idle, waits, record, found, cases⟩ := resume_eq_some done
    have passed := accounted.leaveWaiting waits (.inr ⟨idle, rfl⟩)
    rw [← idle] at passed
    obtain ⟨stopped, released⟩ | ⟨started, rfl⟩ | ⟨finished, -⟩ | ⟨failed, -⟩ := cases
    · exact passed.returnThreadToPool (inOrder record found stopped) released
    · exact accounted.resume waits idle found started
    · have waiting := accounted.waiting thread waits record found
      rw [finished] at waiting
      simp at waiting
    · have waiting := accounted.waiting thread waits record found
      rw [failed] at waiting
      simp at waiting

theorem Accounted.step (accounted : lua.Accounted none) {event : LuaEvent}
    (inOrder : lua.InOrder event) {after : LuaThreads} (done : lua.step event = some after) :
    after.Accounted none := by
  cases event with
  | call thread luaState =>
    obtain ⟨spawned, mid, ready, taken, set, rfl⟩ := call_eq_some done
    have passed := (accounted.spawnThread taken).setCoroutine set
    obtain ⟨record, found, same⟩ := setCoroutine_eq_some set
    have called : ready.allocated[spawned]? = some ⟨record.luaState, .started⟩ := by
      rw [same]
      simp
    exact passed.enter called rfl
  | script event => exact accounted.stepScript inOrder done
  | stop thread luaState => exact accounted.stop done

theorem accounted_empty : empty.Accounted none := by
  constructor <;> simp [empty, hands]

/--
In every run in which nothing fails and every thread that is looked up is found, each registered
thread is always in the pool once, or held by one call that runs or has yielded.
-/
theorem conserved_of_inOrder (events : List LuaEvent) (inOrder : Along step InOrder empty events)
    (front : List LuaEvent) (shorter : front <+: events) : (final step empty front).Conserved := by
  -- The accounts are kept by every step that meets the condition.
  obtain ⟨back, rfl⟩ := shorter
  apply Accounted.conserved
  exact inOrder.front.final (fun lua => lua.Accounted none)
    (fun lua event after accounted allowed taken => accounted.step allowed taken) accounted_empty

/-- A call, with a thread that is stopped in between, another that yields, and the pool used again. -/
theorem conserved_of_inOrder_reused :
    (final step empty [.call 0 0, .script (.yield true), .stop 0 1, .script (.resume 0), .call 1 0,
      .call 2 2, .script (.yield true), .script .finish, .script (.resume 2)]).Conserved :=
  conserved_of_inOrder _ (by decide) _ List.prefix_rfl

/-- A call that ends with an error keeps its thread for good. -/
theorem not_conserved_of_fail : ¬ ∀ events, ∀ front, front <+: events →
    (final step empty front).Conserved := by
  intro all
  have conserved := all [.call 0 0, .script .fail] _ List.prefix_rfl
  have registered : (final step empty [.call 0 0, .script .fail]).mThreads[0]? = some 0 := by
    decide
  have lost : (final step empty [.call 0 0, .script .fail]).mThreadPool.count 0 +
      (final step empty [.call 0 0, .script .fail]).calls 0 = 0 := by
    decide
  have once := conserved 0 0 registered
  omega

end Recap.Game.LuaThreads
