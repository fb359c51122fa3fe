import Recap.RakNet.ActionCommands
import Recap.Lib.Runs

/-! Which handlers the messages about actions run, and whose objects they let act. -/

namespace Recap.RakNet

open Recap.Runs

/-- A message about an action, or anything else that changes the instance in the meantime. -/
inductive ActionInput (Address : Type) where
  | message (client : Address) (message : List UInt8)
  | elsewhere (change : Scene Address → Scene Address)

namespace Scene

variable {Address : Type} (scene : Scene Address) (quat : Vec3f → Quatf)

def actionStep (scene : Scene Address) : ActionInput Address → Option (Scene Address)
  | .message client message => some (scene.onActionCommandMsgs quat client message).2
  | .elsewhere change => some (change scene)

/-! ## Dispatch -/

/-- What a message is to do: the handler of its type, once, on the payload behind its header. -/
def ownHandler (client : Address) (message : List UInt8) :
    List ActionCommandType × Scene Address :=
  match scene.receive client message with
  | none => ([], scene)
  | some turn =>
    match ActionCommandType.ofByte turn.command.common.type with
    | none => ([], turn.scene)
    | some type => ([type], (turn.handle quat type).scene)

/-- A message does what it is to do. -/
def Dispatched (scene : Scene Address) : ActionInput Address → Prop
  | .message client message =>
    scene.onActionCommandMsgs quat client message = scene.ownHandler quat client message
  | .elsewhere _ => True

/-- A message gets to the switch with the type of the squad abilities. -/
def UsesSquadAbility (scene : Scene Address) : ActionInput Address → Prop
  | .message client message =>
    ∃ turn, scene.receive client message = some turn ∧
      ActionCommandType.ofByte turn.command.common.type = some .useSquadAbility
  | .elsewhere _ => False

/-- The switch runs one case for each type but one. -/
theorem cases_eq_iff (type : ActionCommandType) :
    type.cases = [type] ↔ type ≠ .useSquadAbility := by
  cases type <;> simp [ActionCommandType.cases]

/-- One message does what it is to do unless it runs on into the next case. -/
theorem dispatched_message_iff (client : Address) (message : List UInt8) :
    scene.Dispatched quat (.message client message) ↔
      ¬ scene.UsesSquadAbility (.message client message) := by
  simp only [Dispatched, UsesSquadAbility, onActionCommandMsgs, ownHandler]
  cases scene.receive client message with
  | none => simp
  | some turn =>
    cases named : ActionCommandType.ofByte turn.command.common.type with
    | none => simp [named]
    | some type =>
      have only : ¬ (∃ turn', some turn = some turn' ∧
          ActionCommandType.ofByte turn'.command.common.type = some .useSquadAbility) ↔
          type.cases = [type] := by
        simp [named, cases_eq_iff]
      rw [only]
      simp only [named, Prod.mk.injEq]
      constructor
      · exact fun same => same.1
      · -- With one case there is one handler, and what it leaves behind is left behind.
        intro one
        simp [one]

/--
The messages of a run each do what they are to do exactly when none of them uses a squad ability.
-/
theorem dispatched_iff (inputs : List (ActionInput Address)) :
    Along (actionStep quat) (Dispatched quat) scene inputs ↔
      Along (actionStep quat) (fun scene input => ¬ scene.UsesSquadAbility input) scene inputs := by
  -- Each step is looked at by itself, from whatever state the instance is in.
  have agree : ∀ (scene : Scene Address) (input : ActionInput Address), True →
      (scene.Dispatched quat input ↔ ¬ scene.UsesSquadAbility input) := by
    intro scene input _
    cases input with
    | message client message => exact scene.dispatched_message_iff quat client message
    | elsewhere change => simp [Dispatched, UsesSquadAbility]
  exact Along.congr (fun _ _ _ _ _ _ => trivial) agree inputs trivial

/-- A player in the dungeon with a hero, the object 1, and with a loot object beside it. -/
def besideLoot : Scene Nat where
  players := fun _ => some 0
  heroes := fun _ => ⟨0, fun _ _ => 5, fun _ _ => 0, [some 1], [0]⟩
  objects := fun object =>
    if object = 1 then
      some ⟨Game.GameObject.new false ∅, .zero, ⟨0, 0, 0, 0⟩, none, none, fun _ => none, none,
        some .other, none, none, 0, 0⟩
    else if object = 7 then
      some ⟨Game.GameObject.new false ∅, .zero, ⟨0, 0, 0, 0⟩, none, none, fun _ => none, none,
        some .loot, none, some 9, 0, 0⟩
    else none
  abilities := fun _ => false
  time := 0
  teleportMovement := true
  events := []

/-- The object 1 uses the squad ability 6 on the object 7. Nothing stands behind the payload. -/
def squadAbilityMessage : List UInt8 :=
  [8, 0, 0, 0] ++ [0, 0, 0, 0] ++ [1, 0, 0, 0] ++ List.replicate 28 0 ++
    ([7, 0, 0, 0] ++ List.replicate 24 0 ++ [6, 0, 0, 0] ++ List.replicate 12 0)

/-- The target of a squad ability is picked up as if it were a catalyst. -/
theorem not_dispatched :
    ¬ Along (actionStep fun _ => ⟨0, 0, 0, 0⟩) (Dispatched fun _ => ⟨0, 0, 0, 0⟩) besideLoot
        [.message 3 squadAbilityMessage] ∧
      (besideLoot.onActionCommandMsgs (fun _ => ⟨0, 0, 0, 0⟩) 3 squadAbilityMessage).2.events =
        [.lootPickup 0 7, .actionCommandResponse 3 5 2000 0x4321] := by
  constructor
  · intro along
    have same : [ActionCommandType.useSquadAbility, .catalystPickup] = [.useSquadAbility] :=
      congrArg Prod.fst along.1
    exact absurd same (by decide)
  · rfl

end Scene

/-! ## Authority -/

/-- What an object has that a command changes when the object acts. -/
structure ActingState where
  locomotion : Option Locomotion
  luaThread : Option (Option Nat)
  cooldowns : Game.Cooldowns
  ownerObject : Option UInt32

def Actor.acting (actor : Actor) : ActingState :=
  ⟨actor.locomotion, actor.luaThread, actor.cooldowns, actor.ownerObject⟩

namespace Scene

variable {Address : Type} (scene : Scene Address) (quat : Vec3f → Quatf)

def acting (object : UInt32) : Option ActingState := (scene.objects object).map Actor.acting

end Scene

namespace Turn

variable {Address : Type} (turn : Turn Address) (quat : Vec3f → Quatf)

/-- The payload is read over the union, so the header stays what it is. -/
@[simp] theorem readPayload_objectId (size : Nat) :
    (turn.readPayload size).objectId = turn.objectId := rfl

@[simp] theorem readPayload_scene (size : Nat) : (turn.readPayload size).scene = turn.scene := rfl

end Turn

namespace Scene

variable {Address : Type} (scene : Scene Address) (quat : Vec3f → Quatf)

end Scene
end Recap.RakNet
