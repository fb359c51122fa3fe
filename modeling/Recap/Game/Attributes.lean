import Mathlib

/-! The attributes of an object, and the changes to them that are still to be sent. -/

namespace Recap.Game

/-- `AttributeType::ClientCount`: the attributes from here on are never sent as attributes. -/
def clientCount : UInt8 := 111

/-- The fields behind the attributes, which carry the weapon damage. -/
def minWeaponDamageField : UInt8 := 111

def maxWeaponDamageField : UInt8 := 112

/-- The byte that ends a reflection. -/
def reflectionEnd : UInt8 := 0xFF

/-- What stands in a stream: the byte of a field, or a value. -/
inductive Token (Value : Type) where
  | field (idx : UInt8)
  | value (value : Value)
  deriving DecidableEq, Repr

/-- `reflection_serializer::write`, for a serializer of more than sixteen fields. -/
def writeField {Value : Type} (idx : UInt8) (value : Value) : List (Token Value) :=
  [.field idx, .value value]

/-- `Attributes` -/
structure Attributes (Value : Type) where
  /-- The attributes that are not zero, in the order of their indices. -/
  data : List (UInt8 × Value)
  /-- The attributes that became zero since the last reflection. -/
  erasedData : List UInt8
  /-- The attributes that were set since the last reflection. -/
  dataBits : UInt8 → Bool
  minWeaponDamage : Value
  maxWeaponDamage : Value

namespace Attributes

variable {Value : Type} [Zero Value]

/-- Attributes as they are constructed. -/
def empty : Attributes Value := ⟨[], [], fun _ => false, 0, 0⟩

/-- The stored entry of an attribute. -/
def find (a : Attributes Value) (idx : UInt8) : Option (UInt8 × Value) :=
  a.data.find? fun entry => entry.1 == idx

/-- `GetValue` -/
def getValue (a : Attributes Value) (idx : UInt8) : Value :=
  match a.find idx with
  | some entry => entry.2
  | none => 0

/-- Append an entry and sort by index. -/
def pushSorted (data : List (UInt8 × Value)) (entry : UInt8 × Value) : List (UInt8 × Value) :=
  (data ++ [entry]).insertionSort fun left right => left.1 ≤ right.1

/-- `SetValue`, or nothing where it erases the end iterator. -/
def setValue [DecidableEq Value] (a : Attributes Value) (idx : UInt8) (value : Value) :
    Option (Attributes Value) :=
  if idx < clientCount then do
    let changed ←
      match a.find idx with
      | some _ =>
        if value = 0 then
          some { a with
            data := a.data.eraseP fun entry => entry.1 == idx
            erasedData := a.erasedData ++ [idx] }
        else
          some { a with
            data := a.data.map fun entry => if entry.1 == idx then (entry.1, value) else entry }
      | none =>
        if value ≠ 0 then do
          let erasedData ←
            if a.dataBits idx then
              -- An attribute set to zero while it was absent is not among the erased ones.
              if idx ∈ a.erasedData then some (a.erasedData.erase idx) else none
            else some a.erasedData
          some { a with data := pushSorted a.data (idx, value), erasedData := erasedData }
        else some a
    some { changed with dataBits := Function.update changed.dataBits idx true }
  else some a

/-- `WriteReflection` -/
def writeReflection (a : Attributes Value) : List (Token Value) :=
  (a.data.filter fun entry => a.dataBits entry.1).flatMap (fun entry => writeField entry.1 entry.2) ++
    a.erasedData.flatMap (fun idx => writeField idx 0) ++
    writeField minWeaponDamageField a.minWeaponDamage ++
    writeField maxWeaponDamageField a.maxWeaponDamage ++ [.field reflectionEnd]

/-- `ResetReflectionBits` -/
def resetReflectionBits (a : Attributes Value) : Attributes Value :=
  { a with dataBits := fun _ => false, erasedData := [] }

end Attributes

/-- What a client knows of an object's fields. -/
abbrev Mirror (Value : Type) := UInt8 → Value

/-- A client reads fields and their values, one after another, up to the byte that ends them. -/
def Mirror.apply {Value : Type} : List (Token Value) → Mirror Value → Mirror Value
  | .field idx :: .value value :: rest, mirror =>
    if idx = reflectionEnd then mirror else apply rest (Function.update mirror idx value)
  | _, mirror => mirror

end Recap.Game
