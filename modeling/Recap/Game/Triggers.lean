import Recap.Game.Instance
import Recap.Lib.OrderedMap
import Recap.Lib.Runs

/-! The volumes that call back when objects enter them, stay in them, and leave them. -/

namespace Recap.Game

inductive TriggerCallback where
  | enter | stay | exit
deriving DecidableEq

/-- `TriggerVolume`: the object it is attached to, and whether each object it tracks has entered. -/
structure TriggerVolume where
  ownerObject : Option ObjectPtr
  objectStates : Std.TreeMap ObjectPtr UInt8

/-- A tick on its way through the objects, with what has been done to each. -/
structure TriggerTick (World : Type) where
  states : Std.TreeMap ObjectPtr UInt8
  world : World
  visits : List (ObjectPtr × Option TriggerCallback)

namespace TriggerTick

variable {World : Type} (callback : TriggerCallback → ObjectPtr → World → World)
  (tick : TriggerTick World)

/-- An object is called back for, which may change anything but the states. -/
def call (kind : TriggerCallback) (object : ObjectPtr) (states : Std.TreeMap ObjectPtr UInt8) :
    TriggerTick World :=
  ⟨states, callback kind object tick.world, tick.visits ++ [(object, some kind)]⟩

/-- An object outside that has not entered is passed by. -/
def pass (object : ObjectPtr) : TriggerTick World :=
  { tick with visits := tick.visits ++ [(object, none)] }

@[simp] theorem call_states (kind : TriggerCallback) (object : ObjectPtr)
    (states : Std.TreeMap ObjectPtr UInt8) : (tick.call callback kind object states).states = states := rfl

@[simp] theorem call_visits (kind : TriggerCallback) (object : ObjectPtr)
    (states : Std.TreeMap ObjectPtr UInt8) :
    (tick.call callback kind object states).visits = tick.visits ++ [(object, some kind)] := rfl

@[simp] theorem pass_visits (object : ObjectPtr) :
    (tick.pass object).visits = tick.visits ++ [(object, none)] := rfl

end TriggerTick

namespace TriggerVolume

def empty : TriggerVolume := ⟨none, ∅⟩

section Tick

variable {World : Type} (isInRadius : World → ObjectPtr → Bool)
  (callback : TriggerCallback → ObjectPtr → World → World)

/--
The loop of `OnTick`, from an object on.

Nothing but the loop itself changes the states, and it changes none of an object ahead.
To move the iterator on from the end is undefined.
-/
def onTickFrom (tick : TriggerTick World) : List (ObjectPtr × UInt8) → Option (TriggerTick World)
  | [] => some tick
  | (object, state) :: rest =>
    let inside := isInRadius tick.world object
    if state = 0 then
      if inside then
        onTickFrom (tick.call callback .enter object (tick.states.insert object 1)) rest
      else onTickFrom (tick.pass object) rest
    else if inside then onTickFrom (tick.call callback .stay object tick.states) rest
    else
      -- The erasing leaves the iterator at the next object, and the loop moves it on once more.
      match rest with
      | [] => none
      | _ :: rest =>
        onTickFrom (tick.call callback .exit object (tick.states.erase object)) rest

/-- A tick, in the world as the tick of the object itself has left it. -/
def onTick (volume : TriggerVolume) (world : World) : Option (TriggerTick World) :=
  onTickFrom isInRadius callback ⟨volume.objectStates, world, []⟩ volume.objectStates.toList

end Tick

variable (volume : TriggerVolume)

def attach (object : ObjectPtr) : TriggerVolume := { volume with ownerObject := some object }

def detach (object : ObjectPtr) : TriggerVolume :=
  if volume.ownerObject = some object then { volume with ownerObject := none } else volume

def addObject (object : ObjectPtr) : TriggerVolume :=
  if volume.ownerObject = some object then volume
  else { volume with objectStates := volume.objectStates.insertIfNew object 0 }

end TriggerVolume

/-- What happens to a trigger. Between two ticks, the world may change in any way. -/
inductive TriggerEvent (World : Type) where
  | attach (object : ObjectPtr)
  | detach (object : ObjectPtr)
  | addObject (object : ObjectPtr)
  | onTick (world : World)

/-- A trigger with the callbacks that there have been. -/
structure TriggerWatch where
  volume : TriggerVolume
  visits : List (ObjectPtr × Option TriggerCallback)

namespace TriggerWatch

def empty : TriggerWatch := ⟨TriggerVolume.empty, []⟩

/-- The callbacks that an object has seen. -/
def callsOf (visits : List (ObjectPtr × Option TriggerCallback)) (object : ObjectPtr) :
    List TriggerCallback :=
  visits.filterMap fun visit => if visit.1 = object then visit.2 else none

section Step

variable {World : Type} (isInRadius : World → ObjectPtr → Bool)
  (callback : TriggerCallback → ObjectPtr → World → World) (watch : TriggerWatch)

def step : TriggerEvent World → Option TriggerWatch
  | .attach object => some { watch with volume := watch.volume.attach object }
  | .detach object => some { watch with volume := watch.volume.detach object }
  | .addObject object => some { watch with volume := watch.volume.addObject object }
  | .onTick world =>
    (watch.volume.onTick isInRadius callback world).map fun tick =>
      ⟨{ watch.volume with objectStates := tick.states }, watch.visits ++ tick.visits⟩

/-- A tick visits every object that is tracked once, and never leaves the map. -/
def VisitsEachOnce (event : TriggerEvent World) : Prop :=
  ∀ world, event = .onTick world → ∃ tick, watch.volume.onTick isInRadius callback world = some tick ∧
    (tick.visits.map Prod.fst).Perm watch.volume.objectStates.keys

/-- Every object that has entered is inside when the tick comes to it. -/
def StaysFrom (isInRadius : World → ObjectPtr → Bool)
    (callback : TriggerCallback → ObjectPtr → World → World) :
    World → List (ObjectPtr × UInt8) → Prop
  | _, [] => True
  | world, (object, state) :: rest =>
    if state = 0 then
      StaysFrom isInRadius callback
        (if isInRadius world object then callback .enter object world else world) rest
    else
      isInRadius world object = true ∧ StaysFrom isInRadius callback (callback .stay object world) rest

/-- No object leaves at a tick. -/
def NoneLeaves (event : TriggerEvent World) : Prop :=
  ∀ world, event = .onTick world →
    StaysFrom isInRadius callback world watch.volume.objectStates.toList

end Step

/-! ## The callbacks of one object -/

/-- `Enter Stay* Exit` -/
def passage : Language TriggerCallback :=
  {[.enter]} * KStar.kstar {[.stay]} * {[.exit]}

/-- A prefix of `(Enter Stay* Exit)*`. -/
def Orderly (calls : List TriggerCallback) : Prop :=
  ∃ whole ∈ KStar.kstar passage, calls <+: whole

/-- The callbacks of an object that is not inside: it has left as often as it has entered. -/
def Outside (calls : List TriggerCallback) : Prop := calls ∈ KStar.kstar passage

/-- The callbacks of an object that is inside: it has entered once more than it has left. -/
def Inside (calls : List TriggerCallback) : Prop :=
  ∃ front stays, Outside front ∧ calls = front ++ .enter :: List.replicate stays .stay

theorem outside_nil : Outside [] := Language.nil_mem_kstar passage

theorem Outside.enter {calls : List TriggerCallback} (outside : Outside calls) :
    Inside (calls ++ [.enter]) := ⟨calls, 0, outside, rfl⟩

theorem Inside.stay {calls : List TriggerCallback} (inside : Inside calls) :
    Inside (calls ++ [.stay]) := by
  obtain ⟨front, stays, outside, rfl⟩ := inside
  refine ⟨front, stays + 1, outside, ?_⟩
  rw [List.replicate_succ', List.append_assoc, List.cons_append]

theorem passage_mem (stays : Nat) :
    TriggerCallback.enter :: List.replicate stays .stay ++ [.exit] ∈ passage := by
  have stayed : List.replicate stays TriggerCallback.stay ∈
      KStar.kstar ({[TriggerCallback.stay]} : Language TriggerCallback) :=
    Language.mem_kstar.mpr ⟨List.replicate stays [.stay], by simp, fun part member =>
      (List.mem_replicate.mp member).2⟩
  have entered : [TriggerCallback.enter] ∈ ({[.enter]} : Language TriggerCallback) := rfl
  have left : [TriggerCallback.exit] ∈ ({[.exit]} : Language TriggerCallback) := rfl
  exact Language.append_mem_mul (Language.append_mem_mul entered stayed) left

theorem Inside.exit {calls : List TriggerCallback} (inside : Inside calls) :
    Outside (calls ++ [.exit]) := by
  obtain ⟨front, stays, outside, rfl⟩ := inside
  obtain ⟨passages, rfl, each⟩ := Language.mem_kstar.mp outside
  refine Language.mem_kstar.mpr
    ⟨passages ++ [.enter :: List.replicate stays .stay ++ [.exit]], by simp, ?_⟩
  intro part member
  rcases List.mem_append.mp member with before | last
  · exact each part before
  · rw [List.mem_singleton.mp last]
    exact passage_mem stays

theorem Outside.orderly {calls : List TriggerCallback} (outside : Outside calls) : Orderly calls :=
  ⟨calls, outside, List.prefix_refl calls⟩

theorem Inside.orderly {calls : List TriggerCallback} (inside : Inside calls) : Orderly calls :=
  ⟨calls ++ [.exit], inside.exit, List.prefix_append calls _⟩

/-- The states tell of every object whether it has entered and not left. -/
def Consistent (states : Std.TreeMap ObjectPtr UInt8)
    (visits : List (ObjectPtr × Option TriggerCallback)) : Prop :=
  ∀ object, if (states[object]?).getD 0 = 0 then Outside (callsOf visits object)
    else Inside (callsOf visits object)

theorem callsOf_concat (visits : List (ObjectPtr × Option TriggerCallback)) (object other : ObjectPtr)
    (call : Option TriggerCallback) :
    callsOf (visits ++ [(object, call)]) other =
      callsOf visits other ++ if object = other then call.toList else [] := by
  rw [callsOf, List.filterMap_append, callsOf]
  congr 1
  by_cases same : object = other
  · cases call <;> simp [same]
  · simp [same]

section Loop

variable {World : Type} {isInRadius : World → ObjectPtr → Bool}
  {callback : TriggerCallback → ObjectPtr → World → World} {tick after : TriggerTick World}
  {entries : List (ObjectPtr × UInt8)}

open TriggerVolume (onTickFrom)

/-- Where no object leaves, the loop visits them all in their order. -/
theorem onTickFrom_of_stays (stays : StaysFrom isInRadius callback tick.world entries) :
    ∃ after, onTickFrom isInRadius callback tick entries = some after ∧
      after.visits.map Prod.fst = tick.visits.map Prod.fst ++ entries.map Prod.fst := by
  induction entries generalizing tick with
  | nil => exact ⟨tick, rfl, by simp⟩
  | cons entry rest ih =>
    obtain ⟨object, state⟩ := entry
    -- Whatever is done to the object, it is the next one that is visited.
    have next : ∀ between : TriggerTick World, StaysFrom isInRadius callback between.world rest →
        (∃ call, between.visits = tick.visits ++ [(object, call)]) →
        ∃ after, onTickFrom isInRadius callback between rest = some after ∧
          after.visits.map Prod.fst =
            tick.visits.map Prod.fst ++ ((object, state) :: rest).map Prod.fst := by
      intro between later visited
      obtain ⟨call, visited⟩ := visited
      obtain ⟨after, ran, visits⟩ := ih later
      refine ⟨after, ran, ?_⟩
      rw [visits, visited]
      simp
    unfold onTickFrom
    unfold StaysFrom at stays
    by_cases outside : state = 0
    · simp only [if_pos outside] at stays ⊢
      cases inside : isInRadius tick.world object with
      | true =>
        simp only [inside, if_true] at stays ⊢
        exact next _ stays ⟨_, rfl⟩
      | false =>
        simp only [inside, Bool.false_eq_true, if_false] at stays ⊢
        exact next _ stays ⟨_, rfl⟩
    · rw [if_neg outside] at stays
      simp only [if_neg outside, stays.1, if_true]
      exact next _ stays.2 ⟨_, rfl⟩

/-- One more visit than the rest of the loop makes. -/
theorem visits_cons {visits added others : List (ObjectPtr × Option TriggerCallback)}
    {visit : ObjectPtr × Option TriggerCallback} (same : others = visits ++ [visit] ++ added) :
    others = visits ++ visit :: added := by
  rw [same, List.append_assoc, List.singleton_append]

/-- The loop visits no more objects than there are, and fewer if one of them leaves. -/
theorem stays_of_onTickFrom (ran : onTickFrom isInRadius callback tick entries = some after) :
    ∃ added, after.visits = tick.visits ++ added ∧ added.length ≤ entries.length ∧
      (added.length = entries.length → StaysFrom isInRadius callback tick.world entries) := by
  fun_induction onTickFrom isInRadius callback tick entries with
  | case1 tick =>
    cases ran
    exact ⟨[], by simp, Nat.le_refl _, fun _ => trivial⟩
  | case2 tick object rest inside entered ih =>
    obtain ⟨added, same, few, stays⟩ := ih ran
    refine ⟨_, visits_cons same, Nat.succ_le_succ few, fun all => ?_⟩
    rw [StaysFrom, if_pos rfl, if_pos entered]
    exact stays (Nat.succ.inj all)
  | case3 tick object rest inside away ih =>
    obtain ⟨added, same, few, stays⟩ := ih ran
    refine ⟨_, visits_cons same, Nat.succ_le_succ few, fun all => ?_⟩
    rw [StaysFrom, if_pos rfl, if_neg away]
    exact stays (Nat.succ.inj all)
  | case4 tick object state rest inside known stayed ih =>
    obtain ⟨added, same, few, stays⟩ := ih ran
    refine ⟨_, visits_cons same, Nat.succ_le_succ few, fun all => ?_⟩
    rw [StaysFrom, if_neg known]
    exact ⟨stayed, stays (Nat.succ.inj all)⟩
  | case5 => cases ran
  | case6 tick object state inside known left next rest ih =>
    -- One object leaves, and the next one is not visited.
    obtain ⟨added, same, few, -⟩ := ih ran
    refine ⟨_, visits_cons same, Nat.le_succ_of_le (Nat.succ_le_succ few), fun all => ?_⟩
    simp only [List.length_cons] at all
    omega

/-- A visit concerns the callbacks of no other object. -/
theorem Consistent.visit {states others : Std.TreeMap ObjectPtr UInt8}
    {visits : List (ObjectPtr × Option TriggerCallback)} {object : ObjectPtr}
    {call : Option TriggerCallback} (consistent : Consistent states visits)
    (same : ∀ other, object ≠ other → others[other]? = states[other]?)
    (own : if (others[object]?).getD 0 = 0 then Outside (callsOf visits object ++ call.toList)
      else Inside (callsOf visits object ++ call.toList)) :
    Consistent others (visits ++ [(object, call)]) := by
  intro other
  rw [callsOf_concat]
  by_cases here : object = other
  · subst here
    rw [if_pos rfl]
    exact own
  · rw [if_neg here, List.append_nil, same other here]
    exact consistent other

/-- The objects ahead still have the states that the loop has found. -/
theorem agree_rest {states others : Std.TreeMap ObjectPtr UInt8} {object : ObjectPtr} {state : UInt8}
    {rest : List (ObjectPtr × UInt8)} (distinct : (((object, state) :: rest).map Prod.fst).Nodup)
    (agree : ∀ entry ∈ (object, state) :: rest, states[entry.1]? = some entry.2)
    (same : ∀ other, object ≠ other → others[other]? = states[other]?) :
    ∀ entry ∈ rest, others[entry.1]? = some entry.2 := by
  intro entry member
  rw [List.map_cons, List.nodup_cons] at distinct
  have different : object ≠ entry.1 := by
    intro here
    have also : entry.1 ∈ rest.map Prod.fst := List.mem_map_of_mem member
    exact distinct.1 (here ▸ also)
  rw [same entry.1 different]
  exact agree entry (List.mem_cons_of_mem _ member)

theorem consistent_of_onTickFrom {before : List (ObjectPtr × Option TriggerCallback)}
    (ran : onTickFrom isInRadius callback tick entries = some after)
    (distinct : (entries.map Prod.fst).Nodup)
    (agree : ∀ entry ∈ entries, tick.states[entry.1]? = some entry.2)
    (consistent : Consistent tick.states (before ++ tick.visits)) :
    Consistent after.states (before ++ after.visits) := by
  -- By induction on the objects ahead, whose states the loop has not touched so far.
  fun_induction onTickFrom isInRadius callback tick entries with
  | case1 tick =>
    cases ran
    exact consistent
  | case2 tick object rest inside entered ih =>
    have old := consistent object
    rw [agree _ List.mem_cons_self, Option.getD_some, if_pos rfl] at old
    have same : ∀ other, object ≠ other →
        (tick.states.insert object 1)[other]? = tick.states[other]? := by
      intro other different
      rw [OrderedMap.lookup_insert, if_neg different]
    refine ih ran (List.nodup_cons.mp distinct).2 (agree_rest distinct agree same) ?_
    rw [TriggerTick.call_states, TriggerTick.call_visits, ← List.append_assoc]
    refine consistent.visit same ?_
    rw [OrderedMap.lookup_insert, if_pos rfl, Option.getD_some, if_neg (by decide)]
    exact old.enter
  | case3 tick object rest inside away ih =>
    have old := consistent object
    refine ih ran (List.nodup_cons.mp distinct).2 (agree_rest distinct agree fun _ _ => rfl) ?_
    rw [TriggerTick.pass_visits, ← List.append_assoc]
    refine consistent.visit (fun _ _ => rfl) ?_
    rw [Option.toList_none, List.append_nil]
    exact old
  | case4 tick object state rest inside known stayed ih =>
    have found : tick.states[object]? = some state := agree _ List.mem_cons_self
    have old := consistent object
    rw [found, Option.getD_some, if_neg known] at old
    refine ih ran (List.nodup_cons.mp distinct).2 (agree_rest distinct agree fun _ _ => rfl) ?_
    rw [TriggerTick.call_states, TriggerTick.call_visits, ← List.append_assoc]
    refine consistent.visit (fun _ _ => rfl) ?_
    rw [found, Option.getD_some, if_neg known]
    exact old.stay
  | case5 => cases ran
  | case6 tick object state inside known left next rest ih =>
    have old := consistent object
    rw [agree _ List.mem_cons_self, Option.getD_some, if_neg known] at old
    have same : ∀ other, object ≠ other →
        (tick.states.erase object)[other]? = tick.states[other]? := by
      intro other different
      rw [OrderedMap.lookup_erase, if_neg different]
    have behind := agree_rest distinct agree same
    refine ih ran (List.nodup_cons.mp (List.nodup_cons.mp distinct).2).2
      (fun entry member => behind entry (List.mem_cons_of_mem _ member)) ?_
    rw [TriggerTick.call_states, TriggerTick.call_visits, ← List.append_assoc]
    refine consistent.visit same ?_
    rw [OrderedMap.lookup_erase, if_pos rfl, Option.getD_none, if_pos rfl]
    exact old.exit

end Loop

section Runs

variable {World : Type} {isInRadius : World → ObjectPtr → Bool}
  {callback : TriggerCallback → ObjectPtr → World → World} {watch next : TriggerWatch}

/-- A tick visits every object once exactly if none leaves. -/
theorem visitsEachOnce_iff (event : TriggerEvent World) :
    watch.VisitsEachOnce isInRadius callback event ↔ watch.NoneLeaves isInRadius callback event := by
  constructor
  · intro once world ticked
    obtain ⟨tick, ran, perm⟩ := once world ticked
    obtain ⟨added, same, -, stays⟩ := stays_of_onTickFrom ran
    apply stays
    have lengths := perm.length_eq
    rw [same, List.nil_append, List.length_map, Std.TreeMap.length_keys,
      ← Std.TreeMap.length_toList] at lengths
    exact lengths
  · intro stays world ticked
    obtain ⟨tick, ran, visits⟩ := @onTickFrom_of_stays World isInRadius callback
      ⟨watch.volume.objectStates, world, []⟩ _ (stays world ticked)
    refine ⟨tick, ran, ?_⟩
    rw [visits, List.map_nil, List.nil_append, Std.TreeMap.map_fst_toList_eq_keys]

/-- The states go on to tell of every object whether it is inside. -/
theorem consistent_step {event : TriggerEvent World}
    (consistent : Consistent watch.volume.objectStates watch.visits)
    (taken : watch.step isInRadius callback event = some next) :
    Consistent next.volume.objectStates next.visits := by
  cases event with
  | attach object =>
    cases taken
    exact consistent
  | detach object =>
    cases taken
    unfold TriggerVolume.detach
    split
    · exact consistent
    · exact consistent
  | addObject object =>
    cases taken
    unfold TriggerVolume.addObject
    split
    · exact consistent
    · -- A new object starts outside, as one that is not tracked is.
      intro other
      have old := consistent other
      rw [OrderedMap.lookup_insertIfNew]
      split
      · rename_i same
        subst same
        rwa [Option.getD_some]
      · exact old
  | onTick world =>
    obtain ⟨tick, ran, rfl⟩ := Option.map_eq_some_iff.mp taken
    refine consistent_of_onTickFrom ran ?_ ?_ (by rwa [List.append_nil])
    · rw [Std.TreeMap.map_fst_toList_eq_keys]
      exact Std.TreeMap.nodup_keys
    · intro entry member
      exact Std.TreeMap.mem_toList_iff_getElem?_eq_some.mp member

theorem consistent_empty : Consistent empty.volume.objectStates empty.visits := fun _ => outside_nil

theorem Consistent.orderly {states : Std.TreeMap ObjectPtr UInt8}
    {visits : List (ObjectPtr × Option TriggerCallback)} (consistent : Consistent states visits)
    (object : ObjectPtr) : Orderly (callsOf visits object) := by
  have known := consistent object
  split at known
  · exact known.orderly
  · exact known.orderly

/--
Every tick of a run visits each object once, and every object sees its callbacks in order, exactly
if no object leaves at any tick.
-/
theorem orderly_iff_noneLeaves (isInRadius : World → ObjectPtr → Bool)
    (callback : TriggerCallback → ObjectPtr → World → World) (events : List (TriggerEvent World)) :
    (Runs.Along (step isInRadius callback) (VisitsEachOnce isInRadius callback) empty events ∧
      ∀ front, front <+: events → ∀ object,
        Orderly (callsOf (Runs.final (step isInRadius callback) empty front).visits object)) ↔
      Runs.Along (step isInRadius callback) (NoneLeaves isInRadius callback) empty events := by
  have kept : Runs.Kept (step isInRadius callback)
      fun watch => Consistent watch.volume.objectStates watch.visits :=
    fun watch event next consistent taken => consistent_step consistent taken
  have agree := kept.along_congr (fun watch event _ => @visitsEachOnce_iff World isInRadius callback
    watch event) events consistent_empty
  rw [agree]
  -- The callbacks are in order at whatever state of a run, and so only the visits matter.
  refine and_iff_left_of_imp fun _ front _ object => ?_
  exact (kept.final front consistent_empty).orderly object

end Runs

/-- The only object of a volume enters at one tick, and leaves at the next one. -/
def passing : List (TriggerEvent Bool) := [.addObject 1, .onTick true, .onTick false]

/-- When the only object leaves, the loop moves its iterator on from the end. -/
theorem not_orderly :
    ¬ ∀ (isInRadius : Bool → ObjectPtr → Bool) (callback : TriggerCallback → ObjectPtr → Bool → Bool)
      (events : List (TriggerEvent Bool)),
        Runs.Along (step isInRadius callback) (VisitsEachOnce isInRadius callback) empty events ∧
          ∀ front, front <+: events → ∀ object,
            Orderly (callsOf (Runs.final (step isInRadius callback) empty front).visits object) := by
  intro always
  have along := (always (fun early _ => early) (fun _ _ early => early) passing).1
  have entered := along.2 _ rfl
  have left := entered.2 _ rfl
  obtain ⟨tick, ran, -⟩ := left.1 false rfl
  cases ran

end TriggerWatch
end Recap.Game
