import Recap.RakNet.Reflection

/-! The fields of an object that its clients are told, and the packets that tell the changed ones. -/

namespace Recap.Game

open Recap.RakNet

/-- A field of an object, by its number in the reflection. -/
abbrev ObjectDataBits := Fin 23

namespace ObjectDataBits

def team : ObjectDataBits := 0
def playerControlled : ObjectDataBits := 1
def inputSyncStamp : ObjectDataBits := 2
def playerIndex : ObjectDataBits := 3
def linearVelocity : ObjectDataBits := 4
def angularVelocity : ObjectDataBits := 5
def position : ObjectDataBits := 6
def orientation : ObjectDataBits := 7
def scale : ObjectDataBits := 8
def lastAnimationState : ObjectDataBits := 10
def lastAnimationPlayTime : ObjectDataBits := 11
def graphicsState : ObjectDataBits := 13
def graphicsStateStartTime : ObjectDataBits := 14
def visible : ObjectDataBits := 16
def hasCollision : ObjectDataBits := 17
def ownerId : ObjectDataBits := 18
def movementType : ObjectDataBits := 19
def interactableState : ObjectDataBits := 21
def markerId : ObjectDataBits := 22

/-- How many bits the value of a field has, where a truth value has eight. -/
def width : ObjectDataBits → Nat :=
  ![8, 8, 32, 8, 96, 96, 96, 128, 32, 32, 32, 64, 32, 32, 64, 64, 8, 8, 32, 8, 8, 32, 32]

end ObjectDataBits

open ObjectDataBits

/-- The bits of a field's value. -/
abbrev FieldValue (field : ObjectDataBits) := BitVec field.width

/-- The fields of an object, and the ones that were set since they were last sent. -/
structure ObjectData where
  value : ∀ field, FieldValue field
  mDataBits : Finset ObjectDataBits

namespace ObjectData

variable (object : ObjectData)

/-- A change that is not marked. -/
def slip (field : ObjectDataBits) (value : FieldValue field) : ObjectData :=
  { object with value := Function.update object.value field value }

/-- A change that is marked, which most setters come to. -/
def setField (field : ObjectDataBits) (value : FieldValue field) : ObjectData where
  value := Function.update object.value field value
  mDataBits := insert field object.mDataBits

def setPositionSimulated (value : FieldValue position) : ObjectData := object.slip position value

def setPosition (value : FieldValue position) : ObjectData :=
  let object := object.setPositionSimulated value
  { object with mDataBits := insert position object.mDataBits }

def setOrientation (value : FieldValue orientation) : ObjectData := object.setField orientation value
def setLinearVelocity (value : FieldValue linearVelocity) : ObjectData :=
  object.setField linearVelocity value
def setAngularVelocity (value : FieldValue angularVelocity) : ObjectData :=
  object.setField angularVelocity value
def setOwnerObject (value : FieldValue ownerId) : ObjectData := object.setField ownerId value
def setInputSyncStamp (value : FieldValue inputSyncStamp) : ObjectData :=
  object.setField inputSyncStamp value
def setInteractableState (value : FieldValue interactableState) : ObjectData :=
  object.setField interactableState value
def setMarkerId (value : FieldValue markerId) : ObjectData := object.setField markerId value
def setScale (value : FieldValue scale) : ObjectData := object.setField scale value
def setTeam (value : FieldValue team) : ObjectData := object.setField team value
def setMovementType (value : FieldValue movementType) : ObjectData :=
  object.setField movementType value
def setHasCollision (value : FieldValue hasCollision) : ObjectData :=
  object.setField hasCollision value
def setVisible (value : FieldValue visible) : ObjectData := object.setField visible value

/-- A player's number below the largest one also makes the object one that the player controls. -/
def setPlayerIndex (value : FieldValue playerIndex) : ObjectData :=
  (object.setField playerIndex value).setField playerControlled
    (BitVec.ofNat _ (if value.toNat < 0xFF then 1 else 0))

/-- What `Instance::SendAnimationState` does to the object itself. -/
def sendAnimationState (state : FieldValue lastAnimationState)
    (timestamp : FieldValue lastAnimationPlayTime) (overlay : Bool) : ObjectData :=
  if overlay then object
  else (object.slip lastAnimationState state).slip lastAnimationPlayTime timestamp

/-- What `Instance::SendObjectGfxState` does to the object itself. -/
def sendObjectGfxState (state : FieldValue graphicsState)
    (timestamp : FieldValue graphicsStateStartTime) : ObjectData :=
  (object.slip graphicsState state).slip graphicsStateStartTime timestamp

/-- The owner, of which the object keeps a weak pointer, is gone, and its number is read as zero. -/
def ownerExpired : ObjectData := object.slip ownerId 0

def resetUpdateBits : ObjectData := { object with mDataBits := ∅ }

end ObjectData

/-- The calls that change an object's fields. -/
inductive ObjectCall where
  | setPosition (value : FieldValue position)
  | setPositionSimulated (value : FieldValue position)
  | setOrientation (value : FieldValue orientation)
  | setLinearVelocity (value : FieldValue linearVelocity)
  | setAngularVelocity (value : FieldValue angularVelocity)
  | setOwnerObject (value : FieldValue ownerId)
  | setInputSyncStamp (value : FieldValue inputSyncStamp)
  | setInteractableState (value : FieldValue interactableState)
  | setMarkerId (value : FieldValue markerId)
  | setScale (value : FieldValue scale)
  | setTeam (value : FieldValue team)
  | setMovementType (value : FieldValue movementType)
  | setPlayerIndex (value : FieldValue playerIndex)
  | setHasCollision (value : FieldValue hasCollision)
  | setVisible (value : FieldValue visible)
  | sendAnimationState (state : FieldValue lastAnimationState)
      (timestamp : FieldValue lastAnimationPlayTime) (overlay : Bool)
  | sendObjectGfxState (state : FieldValue graphicsState)
      (timestamp : FieldValue graphicsStateStartTime)
  | ownerExpired

namespace ObjectCall

def apply (object : ObjectData) : ObjectCall → ObjectData
  | setPosition value => object.setPosition value
  | setPositionSimulated value => object.setPositionSimulated value
  | setOrientation value => object.setOrientation value
  | setLinearVelocity value => object.setLinearVelocity value
  | setAngularVelocity value => object.setAngularVelocity value
  | setOwnerObject value => object.setOwnerObject value
  | setInputSyncStamp value => object.setInputSyncStamp value
  | setInteractableState value => object.setInteractableState value
  | setMarkerId value => object.setMarkerId value
  | setScale value => object.setScale value
  | setTeam value => object.setTeam value
  | setMovementType value => object.setMovementType value
  | setPlayerIndex value => object.setPlayerIndex value
  | setHasCollision value => object.setHasCollision value
  | setVisible value => object.setVisible value
  | sendAnimationState state timestamp overlay => object.sendAnimationState state timestamp overlay
  | sendObjectGfxState state timestamp => object.sendObjectGfxState state timestamp
  | ownerExpired => object.ownerExpired

end ObjectCall

/-! ### Reflections of an object -/

/-- How the values of the fields lie in a stream, and what a packet has in front of the reflection. -/
structure ObjectWire where
  byte : BitLayout 8
  word : BitLayout 16
  layout : ∀ field, BitLayout (width field)
  front : BitStream

/-- What a client knows of the fields of an object. -/
abbrev ObjectCopy := ∀ field, Option (FieldValue field)

namespace ObjectWire

variable (wire : ObjectWire)

/-- A field and its bits. -/
def reflected (object : ObjectData) (field : ObjectDataBits) : ReflectedField :=
  (field.val, (wire.layout field).bits (object.value field))

/-- `Object::WriteReflection` behind what the packet starts with. -/
def writeReflection (object : ObjectData) : BitStream :=
  ReflectionSerializer.serialize wire.byte wire.word 23
    (((List.finRange 23).filter fun field => field ∈ object.mDataBits).map (wire.reflected object))
    wire.front

/-- The bits of a packet that the reflection of an object takes. -/
def packet (object : ObjectData) : List Bool :=
  let written := wire.writeReflection object
  written.slice wire.front.writeOffset (written.writeOffset - wire.front.writeOffset)

/-- The width of the field with a number. -/
def fieldWidth (field : Nat) : Nat := if below : field < 23 then width ⟨field, below⟩ else 0

/-- A client takes over the value of a field. -/
def receiveField (copy : ObjectCopy) (field : ReflectedField) : ObjectCopy :=
  if below : field.1 < 23 then
    Function.update copy ⟨field.1, below⟩ (some ((wire.layout ⟨field.1, below⟩).value field.2))
  else copy

/-- A client takes over the fields of a reflection. -/
def receive (copy : ObjectCopy) (bits : List Bool) : ObjectCopy :=
  match Reflection.decode wire.byte wire.word fieldWidth 23 bits with
  | none => copy
  | some (fields, _) => fields.foldl wire.receiveField copy

end ObjectWire

/-! ### An object and a client of its game -/

/-- An object, with what one client knows of it and which fields were set since that one joined. -/
structure ObjectSession where
  object : ObjectData
  mGameStarted : Bool
  created : Bool
  client : ObjectCopy
  since : Finset ObjectDataBits

/-- The fields that a call marks. -/
def ObjectCall.marks : ObjectCall → Finset ObjectDataBits
  | setPosition _ => {position}
  | setOrientation _ => {orientation}
  | setLinearVelocity _ => {linearVelocity}
  | setAngularVelocity _ => {angularVelocity}
  | setOwnerObject _ => {ownerId}
  | setInputSyncStamp _ => {inputSyncStamp}
  | setInteractableState _ => {interactableState}
  | setMarkerId _ => {markerId}
  | setScale _ => {scale}
  | setTeam _ => {team}
  | setMovementType _ => {movementType}
  | setPlayerIndex _ => {playerIndex, playerControlled}
  | setHasCollision _ => {hasCollision}
  | setVisible _ => {visible}
  | setPositionSimulated _ | sendAnimationState _ _ _ | sendObjectGfxState _ _ | ownerExpired => ∅

inductive ObjectInput where
  | call (call : ObjectCall)
  | onPlayerStart (loaded : Bool)
  | sendObjectCreate
  | sendObjectUpdate
  /-- The client leaves, or another one takes its place, which knows nothing. -/
  | join

namespace ObjectSession

variable (wire : ObjectWire)

/-- An object whose fields have the values that its noun gives them. -/
def initial (value : ∀ field, FieldValue field) : ObjectSession where
  object := ⟨value, ∅⟩
  mGameStarted := false
  created := false
  client := fun _ => none
  since := ∅

/-- A packet with the reflection of the object, and the reset of the bits behind it. -/
def send (session : ObjectSession) : ObjectSession :=
  { session with
    object := session.object.resetUpdateBits
    client := wire.receive session.client (wire.packet session.object) }

/-- `Instance::SendObjectCreate`, and whether the object is there for the clients. -/
def sendObjectCreate (session : ObjectSession) : ObjectSession × Bool :=
  if !session.mGameStarted then (session, false)
  else if session.created then (session, true)
  else (send wire { session with created := true }, true)

/-- `Instance::SendObjectUpdate` -/
def sendObjectUpdate (session : ObjectSession) : ObjectSession :=
  match session.sendObjectCreate wire with
  | (session, false) => session
  | (session, true) => if session.object.mDataBits = ∅ then session else session.send wire

def next (session : ObjectSession) : ObjectInput → ObjectSession
  | .call call =>
    { session with
      object := call.apply session.object
      since := session.since ∪ call.marks }
  | .onPlayerStart loaded => { session with mGameStarted := loaded }
  | .sendObjectCreate => (session.sendObjectCreate wire).1
  | .sendObjectUpdate => session.sendObjectUpdate wire
  | .join => { session with client := fun _ => none, since := ∅ }

/-- Nothing that happens to the object is refused. -/
def step (session : ObjectSession) (input : ObjectInput) : Option ObjectSession :=
  some (session.next wire input)

end ObjectSession
end Recap.Game
