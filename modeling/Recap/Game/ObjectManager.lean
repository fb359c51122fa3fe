import Recap.Lib.OrderedMap
import Recap.Lib.Runs

/-! The object manager: ids that are handed out, kept while their objects live, and released again. -/

namespace Recap.Game

/-- `Object` or `TriggerVolume`, as far as its manager looks at it. -/
structure ManagedObject where
  id : Nat
  /-- The noun of a plain object, which a trigger volume does not have. -/
  noun : Option Nat
  /-- `Flags::MarkedForDeletion` -/
  marked : Bool
  deriving DecidableEq, Repr

/--
`ObjectManager`, with the objects that pointers may still lead to.

An object outlives its removal where it is shared, so every object ever made stays in the heap.
-/
structure ObjectManager where
  heap : List ManagedObject
  objects : Std.TreeMap Nat Nat
  activeObjects : Finset Nat
  markedObjects : List Nat
  openObjectIds : List Nat
  /-- The thread-local `sNextId`, which all managers of the thread share. -/
  nextId : Nat

namespace ObjectManager

/-- Ids have 32 bits. -/
abbrev idBound : Nat := 2 ^ 32

/-- A manager as it is constructed, wherever the counter of its thread stands. -/
def start (nextId : Nat) : ObjectManager := ⟨[], ∅, ∅, [], [], nextId⟩

/-- `GetNextObjectId` -/
def getNextObjectId (m : ObjectManager) : Nat × ObjectManager :=
  match m.openObjectIds.getLast? with
  | some id => (id, { m with openObjectIds := m.openObjectIds.dropLast })
  | none => (m.nextId, { m with nextId := (m.nextId + 1) % idBound })

/-- Put a new object where the manager keeps its objects. -/
def add (m : ObjectManager) (made : ManagedObject) : ObjectManager :=
  { m with
    heap := m.heap ++ [made]
    objects := m.objects.insert made.id m.heap.length
    activeObjects := insert m.heap.length m.activeObjects }

/-- What `Create` and `CreateTrigger` share: an id is taken, and an object is made where it is free. -/
def emplace (m : ObjectManager) (noun : Option Nat) : Option Nat × ObjectManager :=
  let (id, m) := m.getNextObjectId
  if id = 0 then (none, m)
  else match m.objects[id]? with
    | some _ => (none, m)
    | none => (some m.heap.length, m.add ⟨id, noun, false⟩)

/-- `Create` -/
def create (m : ObjectManager) (noun : Nat) : Option Nat × ObjectManager := m.emplace (some noun)

/-- `CreateTrigger` -/
def createTrigger (m : ObjectManager) : Option Nat × ObjectManager := m.emplace none

/-- `ObjectManager::MarkForDeletion`, which looks at the mark of the object first. -/
def noteMarked (m : ObjectManager) (object : Nat) : ObjectManager :=
  match m.heap[object]? with
  | some held =>
    if !held.marked then { m with markedObjects := m.markedObjects ++ [object] } else m
  | none => m

/-- `Object::MarkForDeletion` -/
def markForDeletion (m : ObjectManager) (object : Nat) : ObjectManager :=
  let m := m.noteMarked object
  { m with heap := m.heap.modify object fun held => { held with marked := true } }

/-- One round of the loop over the marked objects. -/
def release (m : ObjectManager) (object : Nat) : ObjectManager :=
  match m.heap[object]? with
  | some held => { m with
      activeObjects := m.activeObjects.erase object
      objects := m.objects.erase held.id
      openObjectIds := m.openObjectIds ++ [held.id] }
  | none => m

/-- `Update`. What scripts create and mark while their objects tick are acts of their own before it. -/
def update (m : ObjectManager) : ObjectManager :=
  { m.markedObjects.foldl release m with markedObjects := [] }

/-- One thing that is done with a manager. -/
inductive Act where
  | create (noun : Nat)
  | createTrigger
  /-- An object marks itself, whether it is live or has been removed. -/
  | markForDeletion (object : Nat)
  | update
  /-- Another manager of the thread has moved the counter. -/
  | elsewhere (nextId : Nat)
  deriving DecidableEq, Repr

/-- The manager after one act. -/
def act (m : ObjectManager) : Act → ObjectManager
  | .create noun => (m.create noun).2
  | .createTrigger => m.createTrigger.2
  | .markForDeletion object => m.markForDeletion object
  | .update => m.update
  | .elsewhere nextId => { m with nextId := nextId }

/-- The manager after some acts. -/
def run (m : ObjectManager) (acts : List Act) : ObjectManager :=
  Runs.final (fun m act => some (m.act act)) m acts

/-- The id that an object has, whether it is live or not. -/
def idOf (m : ObjectManager) (object : Nat) : Option Nat := m.heap[object]?.map ManagedObject.id

/-! ## What holds between acts -/

/-- The books of a manager agree with each other. -/
structure Sound (m : ObjectManager) : Prop where
  /-- An id is filed for an object exactly while the object is active. -/
  filed : ∀ id object, m.objects[id]? = some object ↔
    object ∈ m.activeObjects ∧ m.idOf object = some id
  /-- Only objects that have been made are active. -/
  made : ∀ object ∈ m.activeObjects, object < m.heap.length
  /-- No id is open twice, or while it is filed. -/
  nodup : m.openObjectIds.Nodup
  free : ∀ id ∈ m.openObjectIds, m.objects[id]? = none
  /-- No object waits for its removal twice. -/
  once : m.markedObjects.Nodup
  waiting : ∀ object ∈ m.markedObjects, object ∈ m.activeObjects
  /-- The mark is on the objects that wait for their removal and on those that are removed. -/
  flag : ∀ object held, m.heap[object]? = some held →
    (held.marked = true ↔ object ∈ m.markedObjects ∨ object ∉ m.activeObjects)

variable {m : ObjectManager}

theorem start_sound (nextId : Nat) : (start nextId).Sound where
  filed id object := by simp [start]
  made object member := absurd member (Finset.notMem_empty object)
  nodup := List.nodup_nil
  free id member := absurd member List.not_mem_nil
  once := List.nodup_nil
  waiting object member := absurd member List.not_mem_nil
  flag object held found := by simp [start] at found

/-- Two active objects never have the same id. -/
theorem Sound.distinct (sound : m.Sound) {first second id : Nat} (one : first ∈ m.activeObjects)
    (other : second ∈ m.activeObjects) (named : m.idOf first = some id)
    (alike : m.idOf second = some id) : first = second := by
  have filedFirst := (sound.filed id first).mpr ⟨one, named⟩
  have filedSecond := (sound.filed id second).mpr ⟨other, alike⟩
  rw [filedFirst] at filedSecond
  exact Option.some_inj.mp filedSecond

/-- The manager that is left when an id has been taken. -/
def Taken (m : ObjectManager) (id : Nat) (next : ObjectManager) : Prop :=
  next.Sound ∧ id ∉ next.openObjectIds ∧
    ∃ openObjectIds nextId, next = { m with openObjectIds := openObjectIds, nextId := nextId }

/-- The id that is taken is not open any more, and nothing else is touched. -/
theorem Sound.getNextObjectId (sound : m.Sound) :
    Taken m m.getNextObjectId.1 m.getNextObjectId.2 := by
  unfold ObjectManager.getNextObjectId
  cases last : m.openObjectIds.getLast? with
  | none =>
    -- The counter is only asked when no id is open.
    have vacant : m.openObjectIds = [] := List.getLast?_eq_none_iff.mp last
    refine ⟨{ sound with }, ?_, m.openObjectIds, _, rfl⟩
    dsimp only
    rw [vacant]
    exact List.not_mem_nil
  | some id =>
    obtain ⟨front, split⟩ := List.getLast?_eq_some_iff.mp last
    have nodup := sound.nodup
    rw [split, List.nodup_append] at nodup
    have shorter : m.openObjectIds.dropLast = front := by rw [split, List.dropLast_concat]
    refine ⟨{ sound with nodup := ?_, free := ?_ }, ?_, _, m.nextId, rfl⟩
    · dsimp only
      rw [shorter]
      exact nodup.1
    · intro other member
      exact sound.free other (List.dropLast_subset _ member)
    · dsimp only
      rw [shorter]
      exact fun member => nodup.2.2 id member id (List.mem_singleton_self id) rfl

/-- What becomes of a manager that is asked for an object. -/
theorem emplace_cases (m : ObjectManager) (noun : Option Nat) :
    m.emplace noun = (none, m.getNextObjectId.2) ∨
      m.getNextObjectId.2.objects[m.getNextObjectId.1]? = none ∧
        m.emplace noun = (some m.getNextObjectId.2.heap.length,
          m.getNextObjectId.2.add ⟨m.getNextObjectId.1, noun, false⟩) := by
  simp only [emplace]
  split
  · exact .inl rfl
  · cases free : m.getNextObjectId.2.objects[m.getNextObjectId.1]? with
    | some _ => exact .inl rfl
    | none => exact .inr ⟨rfl, rfl⟩

/-- What a new object changes about the heap: only its own place is new. -/
theorem add_heap (m : ObjectManager) (made : ManagedObject) (object : Nat) :
    (m.add made).heap[object]? = if object = m.heap.length then some made else m.heap[object]? := by
  simp only [add, List.getElem?_append, List.getElem?_singleton]
  split
  · rename_i below
    rw [if_neg (Nat.ne_of_lt below)]
  · rename_i past
    have beyond : m.heap[object]? = none := List.getElem?_eq_none (Nat.le_of_not_lt past)
    rw [beyond]
    have same : object - m.heap.length = 0 ↔ object = m.heap.length := by omega
    simp only [same]

theorem add_idOf (m : ObjectManager) (made : ManagedObject) (object : Nat) :
    (m.add made).idOf object = if object = m.heap.length then some made.id else m.idOf object := by
  rw [idOf, add_heap]
  split <;> rfl

/-- A new object with a free id that is not open goes into the books. -/
theorem Sound.add (sound : m.Sound) {made : ManagedObject} (free : m.objects[made.id]? = none)
    (closed : made.id ∉ m.openObjectIds) (unmarked : made.marked = false) : (m.add made).Sound := by
  -- The new object is not among the old ones, wherever they are named.
  have fresh : ∀ object ∈ m.activeObjects, object ≠ m.heap.length := fun object member =>
    Nat.ne_of_lt (sound.made object member)
  refine ⟨fun id object => ?_, fun object member => ?_, sound.nodup, fun id member => ?_,
    sound.once, fun object member => Finset.mem_insert_of_mem (sound.waiting object member),
    fun object held found => ?_⟩
  · rw [add_idOf]
    simp only [ObjectManager.add, OrderedMap.lookup_insert, Finset.mem_insert]
    by_cases same : made.id = id
    · rw [if_pos same]
      constructor
      · intro filed
        have here : object = m.heap.length := (Option.some_inj.mp filed).symm
        exact ⟨.inl here, by rw [if_pos here, same]⟩
      · -- An old object of that id would have been filed under it.
        intro ⟨member, named⟩
        by_cases here : object = m.heap.length
        · rw [here]
        · rw [if_neg here] at named
          have filed := (sound.filed id object).mpr ⟨member.resolve_left here, named⟩
          rw [← same, free] at filed
          exact absurd filed (by simp)
    · rw [if_neg same, sound.filed id object]
      constructor
      · intro ⟨member, named⟩
        exact ⟨.inr member, by rw [if_neg (fresh object member), named]⟩
      · intro ⟨member, named⟩
        by_cases here : object = m.heap.length
        · rw [if_pos here] at named
          exact absurd (Option.some_inj.mp named) same
        · rw [if_neg here] at named
          exact ⟨member.resolve_left here, named⟩
  · rw [ObjectManager.add, List.length_append, List.length_singleton]
    rcases Finset.mem_insert.mp member with here | old
    · omega
    · have := sound.made object old
      omega
  · simp only [ObjectManager.add, OrderedMap.lookup_insert]
    rw [if_neg fun same : made.id = id => closed (same ▸ member)]
    exact sound.free id member
  · rw [add_heap] at found
    simp only [ObjectManager.add, Finset.mem_insert, not_or]
    by_cases here : object = m.heap.length
    · rw [if_pos here] at found
      cases found
      rw [unmarked]
      refine ⟨fun marked => absurd marked Bool.false_ne_true, ?_⟩
      rintro (waits | ⟨elsewhere, -⟩)
      · exact absurd here (fresh object (sound.waiting object waits))
      · exact absurd here elsewhere
    · rw [if_neg here] at found
      rw [sound.flag object held found]
      exact or_congr_right ⟨fun gone => ⟨here, gone⟩, fun gone => gone.2⟩

theorem Sound.emplace (sound : m.Sound) (noun : Option Nat) : (m.emplace noun).2.Sound := by
  obtain ⟨taken, closed, -⟩ := sound.getNextObjectId
  rcases m.emplace_cases noun with refused | ⟨free, made⟩
  · rw [refused]
    exact taken
  · rw [made]
    exact taken.add free closed rfl

/-! ## Marks -/

/-- The manager after an object has been marked that was not marked before. -/
def mark (m : ObjectManager) (object : Nat) : ObjectManager :=
  { m with
    heap := m.heap.modify object fun held => { held with marked := true }
    markedObjects := m.markedObjects ++ [object] }

/-- An object that marks itself waits for its removal, and one that has the mark changes nothing. -/
theorem markForDeletion_cases (m : ObjectManager) (object : Nat) :
    (∃ held, m.heap[object]? = some held ∧ held.marked = false ∧
      m.markForDeletion object = m.mark object) ∨ m.markForDeletion object = m := by
  unfold markForDeletion noteMarked
  cases found : m.heap[object]? with
  | none =>
    refine .inr ?_
    have same : m.heap.modify object (fun held => { held with marked := true }) = m.heap :=
      List.modify_eq_self (List.getElem?_eq_none_iff.mp found)
    simp only [same]
  | some held =>
    cases marked : held.marked with
    | false => exact .inl ⟨held, rfl, marked, by simp [mark, marked]⟩
    | true =>
      refine .inr ?_
      -- Setting a mark that is set leaves the object as it is.
      have same : m.heap.modify object (fun held => { held with marked := true }) = m.heap := by
        apply List.ext_getElem?
        intro other
        rw [List.getElem?_modify]
        split
        · rename_i here
          rw [← here, found]
          cases held
          cases marked
          rfl
        · simp
      simp [marked, same]

theorem mark_heap (m : ObjectManager) (object other : Nat) :
    (m.mark object).heap[other]? = if object = other then
      m.heap[other]?.map fun held => { held with marked := true } else m.heap[other]? := by
  rw [mark, List.getElem?_modify]
  split
  · rfl
  · simp

theorem mark_idOf (m : ObjectManager) (object other : Nat) :
    (m.mark object).idOf other = m.idOf other := by
  rw [idOf, idOf, mark_heap]
  split <;> cases m.heap[other]? <;> rfl

/-- An object that has no mark is live and does not wait, so that it may wait from now on. -/
theorem Sound.mark (sound : m.Sound) {object : Nat} {held : ManagedObject}
    (found : m.heap[object]? = some held) (unmarked : held.marked = false) :
    (m.mark object).Sound := by
  -- The mark says that an object waits or is not active, so that here it does not wait, and is
  -- active.
  have neither : ¬ (object ∈ m.markedObjects ∨ object ∉ m.activeObjects) := by
    rw [← sound.flag object held found, unmarked]
    exact Bool.false_ne_true
  obtain ⟨fresh, live⟩ := not_or.mp neither
  refine ⟨fun id other => ?_, fun other member => ?_, sound.nodup, sound.free, ?_,
    fun other member => ?_, fun other held found => ?_⟩
  · rw [mark_idOf]
    exact sound.filed id other
  · rw [ObjectManager.mark, List.length_modify]
    exact sound.made other member
  · refine List.nodup_append.mpr ⟨sound.once, List.nodup_singleton object, ?_⟩
    intro one member other same
    rw [List.mem_singleton.mp same]
    exact fun here => fresh (here ▸ member)
  · rcases List.mem_append.mp member with old | new
    · exact sound.waiting other old
    · rw [List.mem_singleton.mp new]
      exact not_not.mp live
  · rw [mark_heap] at found
    simp only [ObjectManager.mark, List.mem_append, List.mem_singleton]
    by_cases here : object = other
    · rw [if_pos here] at found
      obtain ⟨before, -, rfl⟩ := Option.map_eq_some_iff.mp found
      exact iff_of_true rfl (.inl (.inr here.symm))
    · rw [if_neg here] at found
      rw [sound.flag other held found]
      exact or_congr_left ⟨.inl, fun waits => waits.resolve_right (Ne.symm here)⟩

theorem Sound.markForDeletion (sound : m.Sound) (object : Nat) : (m.markForDeletion object).Sound := by
  rcases m.markForDeletion_cases object with ⟨held, found, unmarked, marked⟩ | same
  · rw [marked]
    exact sound.mark found unmarked
  · rw [same]
    exact sound

/-! ## Removals -/

theorem release_idOf (m : ObjectManager) (object other : Nat) :
    (m.release object).idOf other = m.idOf other := by
  unfold release
  split <;> rfl

/-- Removing the first object that waits opens its id, which is filed for nothing else. -/
theorem Sound.release {object : Nat} {rest : List Nat}
    (sound : ({ m with markedObjects := object :: rest } : ObjectManager).Sound) :
    ({ m.release object with markedObjects := rest } : ObjectManager).Sound := by
  have live : object ∈ m.activeObjects := sound.waiting object List.mem_cons_self
  have below : object < m.heap.length := sound.made object live
  obtain ⟨alone, once⟩ := List.nodup_cons.mp sound.once
  have found : m.heap[object]? = some (m.heap[object]) := List.getElem?_eq_getElem below
  have named : m.idOf object = some (m.heap[object]).id := by rw [idOf, found, Option.map_some]
  have filed : m.objects[(m.heap[object]).id]? = some object :=
    (sound.filed _ _).mpr ⟨live, named⟩
  generalize m.heap[object] = held at found named filed
  simp only [ObjectManager.release, found]
  refine ⟨fun id other => ?_, fun other member => sound.made other (Finset.mem_of_mem_erase member),
    ?_, fun id member => ?_, once, fun other member => ?_, fun other other_held other_found => ?_⟩
  · change (m.objects.erase held.id)[id]? = some other ↔
      other ∈ m.activeObjects.erase object ∧ m.idOf other = some id
    rw [OrderedMap.lookup_erase, Finset.mem_erase]
    by_cases same : held.id = id
    · -- Only the removed object had the id.
      rw [if_pos same]
      refine ⟨fun gone => absurd gone (by simp), fun ⟨⟨different, member⟩, alike⟩ => ?_⟩
      have again := (sound.filed id other).mpr ⟨member, alike⟩
      change m.objects[id]? = some other at again
      rw [← same, filed] at again
      exact absurd (Option.some_inj.mp again).symm different
    · rw [if_neg same]
      refine (sound.filed id other).trans ⟨fun ⟨member, alike⟩ => ⟨⟨?_, member⟩, alike⟩,
        fun ⟨⟨_, member⟩, alike⟩ => ⟨member, alike⟩⟩
      rintro rfl
      change m.idOf other = some id at alike
      rw [named] at alike
      exact same (Option.some_inj.mp alike)
  · -- The id was filed until now, so it was not open.
    refine List.nodup_append.mpr ⟨sound.nodup, List.nodup_singleton _, ?_⟩
    intro id member other same here
    have free : m.objects[id]? = none := sound.free id member
    rw [here, List.mem_singleton.mp same, filed] at free
    exact absurd free (by simp)
  · change (m.objects.erase held.id)[id]? = none
    rw [OrderedMap.lookup_erase]
    split
    · rfl
    · rename_i different
      rcases List.mem_append.mp member with old | new
      · exact sound.free id old
      · exact absurd (List.mem_singleton.mp new).symm different
  · have waits := sound.waiting other (List.mem_cons_of_mem _ member)
    exact Finset.mem_erase.mpr ⟨fun same => alone (same ▸ member), waits⟩
  · rw [sound.flag other other_held other_found]
    simp only [List.mem_cons, Finset.mem_erase, not_and_or, not_not]
    tauto

/-- Removing all that wait, in order, leaves none that wait. -/
theorem Sound.foldl_release {waiting : List Nat}
    (sound : ({ m with markedObjects := waiting } : ObjectManager).Sound) :
    ({ waiting.foldl ObjectManager.release m with markedObjects := [] } : ObjectManager).Sound := by
  -- The induction follows the loop, and those behind the removed one still wait.
  induction waiting generalizing m with
  | nil => exact sound
  | cons object rest ih => exact ih sound.release

theorem Sound.update (sound : m.Sound) : m.update.Sound := sound.foldl_release

/-- Every act keeps the books in order. -/
theorem Sound.act (sound : m.Sound) (act : Act) : (m.act act).Sound := by
  cases act with
  | create noun => exact sound.emplace (some noun)
  | createTrigger => exact sound.emplace none
  | markForDeletion object => exact sound.markForDeletion object
  | update => exact sound.update
  | elsewhere nextId => exact { sound with }

/-- The books are in order after any acts. -/
theorem Sound.run (sound : m.Sound) (acts : List Act) : (m.run acts).Sound :=
  Runs.Kept.final (fun _ act _ kept moved => Option.some_inj.mp moved ▸ kept.act act) acts sound

/-! ## When an id is handed out again -/

theorem getNextObjectId_eq (m : ObjectManager) : ∃ openObjectIds nextId,
    m.getNextObjectId.2 = { m with openObjectIds := openObjectIds, nextId := nextId } := by
  unfold getNextObjectId
  split
  · exact ⟨_, m.nextId, rfl⟩
  · exact ⟨m.openObjectIds, _, rfl⟩

theorem foldl_release_idOf (m : ObjectManager) (waiting : List Nat) (object : Nat) :
    (waiting.foldl release m).idOf object = m.idOf object := by
  induction waiting generalizing m with
  | nil => rfl
  | cons first rest ih => exact (ih (m.release first)).trans (m.release_idOf first object)

/-- What one act does to the ids that objects have and to which objects are active. -/
theorem act_cases (m : ObjectManager) (act : Act) :
    (∀ object, (m.act act).idOf object = m.idOf object) ∧
        ((m.act act).activeObjects = m.activeObjects ∨ act = .update) ∨
      ∃ id, (∀ object, (m.act act).idOf object =
          if object = m.heap.length then some id else m.idOf object) ∧
        (m.act act).activeObjects = insert m.heap.length m.activeObjects := by
  -- Objects and triggers are emplaced in the same way, so that one fact serves both.
  have emplaced : ∀ noun,
      (∀ object, (m.emplace noun).2.idOf object = m.idOf object) ∧
          (m.emplace noun).2.activeObjects = m.activeObjects ∨
        ∃ id, (∀ object, (m.emplace noun).2.idOf object =
            if object = m.heap.length then some id else m.idOf object) ∧
          (m.emplace noun).2.activeObjects = insert m.heap.length m.activeObjects := by
    intro noun
    obtain ⟨openObjectIds, nextId, taken⟩ := m.getNextObjectId_eq
    rcases m.emplace_cases noun with refused | ⟨-, made⟩
    · rw [refused, taken]
      exact .inl ⟨fun object => rfl, rfl⟩
    · rw [made, taken]
      exact .inr ⟨_, fun object => add_idOf _ _ object, rfl⟩
  cases act with
  | create noun => exact (emplaced (some noun)).imp_left fun same => ⟨same.1, .inl same.2⟩
  | createTrigger => exact (emplaced none).imp_left fun same => ⟨same.1, .inl same.2⟩
  | markForDeletion object =>
    refine .inl ?_
    rcases m.markForDeletion_cases object with ⟨held, -, -, marked⟩ | same
    · rw [act, marked]
      exact ⟨m.mark_idOf object, .inl rfl⟩
    · rw [act, same]
      exact ⟨fun _ => rfl, .inl rfl⟩
  | update => exact .inl ⟨foldl_release_idOf m m.markedObjects, .inr rfl⟩
  | elsewhere nextId => exact .inl ⟨fun _ => rfl, .inl rfl⟩

/-- Only updates take an object from the active ones. -/
theorem act_active {m : ObjectManager} {object : Nat} (live : object ∈ m.activeObjects) {act : Act}
    (other : act ≠ .update) : object ∈ (m.act act).activeObjects := by
  rcases m.act_cases act with ⟨-, same⟩ | ⟨id, -, more⟩
  · rw [same.resolve_right other]
    exact live
  · rw [more]
    exact Finset.mem_insert_of_mem live

/-- What an act makes is active afterwards. -/
theorem act_made {m : ObjectManager} {object : Nat} (act : Act) (before : m.idOf object = none)
    (after : (m.act act).idOf object ≠ none) : object ∈ (m.act act).activeObjects := by
  rcases m.act_cases act with ⟨same, -⟩ | ⟨id, named, more⟩
  · exact absurd ((same object).trans before) after
  · -- Only the object at the end of the heap is new.
    rw [named] at after
    by_cases new : object = m.heap.length
    · rw [more, new]
      exact Finset.mem_insert_self _ _
    · rw [if_neg new] at after
      exact absurd before after

/-- An object that is not active any more was taken away by one of the updates. -/
theorem removed_by_update {m : ObjectManager} (acts : List Act) {object : Nat}
    (made : (m.run acts).idOf object ≠ none) (gone : object ∉ (m.run acts).activeObjects)
    (fresh : m.idOf object = none) :
    ∃ before after, acts = before ++ .update :: after ∧ object ∈ (m.run before).activeObjects ∧
      object ∉ (m.run (before ++ [.update])).activeObjects := by
  induction acts using List.reverseRecOn with
  | nil => exact absurd fresh made
  | append_singleton acts last ih =>
    have stepped : m.run (acts ++ [last]) = (m.run acts).act last := Runs.final_concat _ _ _ _
    by_cases earlier : (m.run acts).idOf object = none
    · -- The last act made the object, so it is active.
      rw [stepped] at made gone
      exact absurd (act_made last earlier made) gone
    by_cases live : object ∈ (m.run acts).activeObjects
    · -- The last act took it away.
      have update : last = .update := by
        by_contra other
        rw [stepped] at gone
        exact gone (act_active live other)
      rw [update] at gone
      exact ⟨acts, [], by rw [update], live, gone⟩
    · obtain ⟨before, after, split, present, absent⟩ := ih earlier live
      exact ⟨before, after ++ [last], by rw [split, List.append_assoc, List.cons_append],
        present, absent⟩

/--
Ids are unique among live objects, open once, and open only while they belong to no live object.

An id that is handed out belonged before only to objects that an update has removed in between.
-/
theorem ids_unique (nextId : Nat) (acts : List Act) :
    let m := (start nextId).run acts
    (∀ first ∈ m.activeObjects, ∀ second ∈ m.activeObjects, m.idOf first = m.idOf second →
      first = second) ∧
    m.openObjectIds.Nodup ∧
    (∀ object ∈ m.activeObjects, ∀ id ∈ m.openObjectIds, m.idOf object ≠ some id) ∧
    ∀ (noun : Option Nat) (made id : Nat), (m.emplace noun).1 = some made →
      (m.emplace noun).2.idOf made = some id → ∀ object, m.idOf object = some id →
        ∃ before after, acts = before ++ .update :: after ∧
          object ∈ ((start nextId).run before).activeObjects ∧
          object ∉ ((start nextId).run (before ++ [.update])).activeObjects := by
  have sound := (start_sound nextId).run acts
  refine ⟨fun first one second other alike => ?_, sound.nodup, fun object live id opened named => ?_,
    fun noun made id given named object alike => ?_⟩
  · obtain ⟨held, found⟩ : ∃ held, ((start nextId).run acts).heap[first]? = some held :=
      ⟨_, List.getElem?_eq_getElem (sound.made first one)⟩
    have named : ((start nextId).run acts).idOf first = some held.id := by
      rw [idOf, found, Option.map_some]
    exact sound.distinct one other named (alike ▸ named)
  · have filed := (sound.filed id object).mpr ⟨live, named⟩
    rw [sound.free id opened] at filed
    exact absurd filed (by simp)
  · -- The id was free when it was handed out, so whoever had it is not active any more.
    generalize managed : (start nextId).run acts = m at *
    have gone : object ∉ m.activeObjects := by
      intro live
      obtain ⟨openObjectIds, next, taken⟩ := m.getNextObjectId_eq
      rcases m.emplace_cases noun with refused | ⟨free, created⟩
      · rw [refused] at given
        exact absurd given (by simp)
      · rw [created] at given named
        cases given
        rw [add_idOf, if_pos rfl] at named
        have same : m.getNextObjectId.1 = id := Option.some_inj.mp named
        rw [same, taken] at free
        have filed := (sound.filed id object).mpr ⟨live, alike⟩
        change m.objects[id]? = none at free
        rw [free] at filed
        exact absurd filed (by simp)
    subst managed
    exact removed_by_update acts (by rw [alike]; simp) gone rfl

end ObjectManager
end Recap.Game
