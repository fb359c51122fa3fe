import Recap.Blaze.PacketBytes

/-! The document nodes that accounts are kept in, and the numbers that are written to them as text. -/

namespace Recap.SporeNet

open Recap.Blaze

/--
A node of the document library, as far as it is used here.

A node has children under names, of which the first one of a name is found, and maybe a text.
-/
class XmlNode (Node : Type) where
  /-- An element without children. -/
  element : Node
  /-- A node that holds a text. -/
  pcdata : Bytes → Node
  appendChild : Node → String → Node → Node
  child : Node → String → Option Node
  text : Node → Bytes
  child_element : ∀ name, child element name = none
  child_append : ∀ node name added other,
    child (appendChild node name added) other =
      (child node other).or (if other = name then some added else none)
  text_pcdata : ∀ value, text (pcdata value) = value

export XmlNode (element pcdata appendChild child text)

section Nodes

variable {Node : Type} [XmlNode Node]

def xmlAddTextNode (node : Node) (name : String) (value : Bytes) : Node :=
  appendChild node name (pcdata value)

/-- The text of a child, which is empty for a child that is not there. -/
def xmlGetTextNode (node : Node) (name : String) : Bytes :=
  ((child node name).map text).getD []

/-- Adds the texts of a list in turn. -/
def xmlAddTextNodes (node : Node) (texts : List (String × Bytes)) : Node :=
  texts.foldl (fun node entry => xmlAddTextNode node entry.1 entry.2) node

/-- What was there already comes before what is added. -/
theorem child_addAll (node : Node) (texts : List (String × Bytes)) (name : String) :
    (child (xmlAddTextNodes node texts) name).map text =
      ((child node name).map text).or (texts.lookup name) := by
  induction texts generalizing node with
  | nil => simp [xmlAddTextNodes]
  | cons entry rest ih =>
    have later := ih (xmlAddTextNode node entry.1 entry.2)
    change Option.map text (child (xmlAddTextNodes (xmlAddTextNode node entry.1 entry.2) rest) name)
      = _
    rw [later, xmlAddTextNode, XmlNode.child_append, List.lookup_cons]
    by_cases same : name = entry.1
    · rw [if_pos same, same, beq_self_eq_true]
      cases child node entry.1 <;> simp [XmlNode.text_pcdata]
    · rw [if_neg same, beq_eq_false_iff_ne.mpr same, Option.or_none]

/-- A text is read back from the first child of its name. -/
theorem xmlGetTextNode_addAll_bare (node : Node) (texts : List (String × Bytes)) (name : String)
    (bare : child node name = none) :
    xmlGetTextNode (xmlAddTextNodes node texts) name = (texts.lookup name).getD [] := by
  unfold xmlGetTextNode
  rw [child_addAll, bare]
  rfl

theorem xmlGetTextNode_addAll (texts : List (String × Bytes)) (name : String) :
    xmlGetTextNode (xmlAddTextNodes (element : Node) texts) name = (texts.lookup name).getD [] :=
  xmlGetTextNode_addAll_bare element texts name (XmlNode.child_element name)

/-- No child comes from texts of other names. -/
theorem child_addAll_none {node : Node} {texts : List (String × Bytes)} {name : String}
    (bare : child node name = none) (other : texts.lookup name = none) :
    child (xmlAddTextNodes node texts) name = none := by
  have nothing := child_addAll node texts name
  rw [bare, other] at nothing
  exact Option.map_eq_none_iff.mp nothing

end Nodes

section Numbers

/-- The sign and the value of the decimal number that a text starts with. -/
def numberOf (value : Bytes) : Bool × Nat :=
  match value.dropWhile isSpace with
  | 45 :: rest => (true, digitsValue 10 (leadingDigits 10 rest))
  | 43 :: rest => (false, digitsValue 10 (leadingDigits 10 rest))
  | rest => (false, digitsValue 10 (leadingDigits 10 rest))

/-- `std::strtoul`, for a `long` of 64 bits: too large a number becomes the largest one. -/
def strtoul (value : Bytes) : Nat :=
  let (negative, number) := numberOf value
  if 2 ^ 64 ≤ number then 2 ^ 64 - 1 else if negative then (2 ^ 64 - number) % 2 ^ 64 else number

/-- `std::strtoll`, which stays within its type. -/
def strtoll (value : Bytes) : Int :=
  let (negative, number) := numberOf value
  if negative then max (-number) (-2 ^ 63) else min number (2 ^ 63 - 1)

/-- `to_number<uint32_t>` -/
def toUint32 (value : Bytes) : UInt32 := UInt32.ofNat (strtoul value)

/-- `to_number<int64_t>` -/
def toInt64 (value : Bytes) : Int64 := Int64.ofInt (strtoll value)

/-- `std::to_string` of an unsigned number. -/
def ofUint32 (value : UInt32) : Bytes := toDecimal value.toNat

/-- `std::to_string` of a signed number. -/
def ofInt64 (value : Int64) : Bytes :=
  if value.toInt < 0 then 45 :: toDecimal value.toInt.natAbs else toDecimal value.toInt.natAbs

/-- Every character of a number in decimal is a digit, and there is at least one. -/
private theorem toDecimal_digits (value : Nat) :
    ∃ character rest, toDecimal value = character :: rest ∧ 48 ≤ character.toNat ∧
      character.toNat ≤ 57 := by
  have nonempty : toDecimal value ≠ [] := by
    unfold toDecimal
    split
    · exact List.cons_ne_nil _ _
    · rename_i positive
      simpa using Nat.digits_ne_nil_iff_ne_zero.mpr positive
  obtain ⟨character, rest, split⟩ := List.exists_cons_of_ne_nil nonempty
  exact ⟨character, rest, split, digit_of_mem_toDecimal (split ▸ List.mem_cons_self)⟩

/-- A text that starts with a digit is a number without a sign. -/
private theorem numberOf_digits {character : UInt8} {rest : Bytes} (least : 48 ≤ character.toNat)
    (most : character.toNat ≤ 57) :
    numberOf (character :: rest) = (false, digitsValue 10 (leadingDigits 10 (character :: rest))) := by
  have read : digitValue character = some (character.toNat - 48) := if_pos ⟨least, most⟩
  obtain ⟨solid, notMinus, notPlus⟩ := not_space_of_digit read
  unfold numberOf
  rw [List.dropWhile_cons, solid]
  simp only [Bool.false_eq_true, if_false]
  split
  · rename_i same
    exact absurd (List.cons.inj same).1 notMinus
  · rename_i same
    exact absurd (List.cons.inj same).1 notPlus
  · rfl

theorem numberOf_toDecimal (value : Nat) : numberOf (toDecimal value) = (false, value) := by
  -- What is written has only digits, which are read up to the end.
  have read := digitsValue_toDecimal value
  obtain ⟨character, rest, split, least, most⟩ := toDecimal_digits value
  rw [split] at read ⊢
  rw [numberOf_digits least most, read]

theorem numberOf_negative (value : Nat) : numberOf (45 :: toDecimal value) = (true, value) := by
  have unfolded : numberOf (45 :: toDecimal value) =
      (true, digitsValue 10 (leadingDigits 10 (toDecimal value))) := rfl
  rw [unfolded, digitsValue_toDecimal]

/-- A number of at most 64 bits is read back as it was written. -/
theorem strtoul_toDecimal {value : Nat} (small : value < 2 ^ 64) :
    strtoul (toDecimal value) = value := by
  unfold strtoul
  rw [numberOf_toDecimal]
  simp only [Bool.false_eq_true, if_false]
  rw [if_neg (by omega)]

/-- An unsigned number is read back as it was written, also where it would not fit a signed one. -/
@[simp] theorem toUint32_ofUint32 (value : UInt32) : toUint32 (ofUint32 value) = value := by
  have small := value.toNat_lt
  unfold toUint32 ofUint32
  rw [strtoul_toDecimal (by omega)]
  exact UInt32.ofNat_toNat

/-- `to_number<uint64_t>` -/
def toUint64 (value : Bytes) : UInt64 := UInt64.ofNat (strtoul value)

/-- `to_number<uint16_t>` -/
def toUint16 (value : Bytes) : UInt16 := UInt16.ofNat (strtoul value)

/-- `to_number<uint8_t>` -/
def toUint8 (value : Bytes) : UInt8 := UInt8.ofNat (strtoul value)

/-- `to_number<bool>`, for which a text may also be the word itself in any letters. -/
def toBool (value : Bytes) : Bool :=
  value.map (fun byte => if 0x41 ≤ byte ∧ byte ≤ 0x5A then byte + 0x20 else byte) = ascii "true" ∨
    0 < strtoul value

@[simp] theorem toUint64_toDecimal (value : UInt64) : toUint64 (toDecimal value.toNat) = value := by
  unfold toUint64
  rw [strtoul_toDecimal value.toNat_lt]
  exact UInt64.ofNat_toNat

@[simp] theorem toUint16_toDecimal (value : UInt16) : toUint16 (toDecimal value.toNat) = value := by
  have small := value.toNat_lt
  unfold toUint16
  rw [strtoul_toDecimal (by omega)]
  exact UInt16.ofNat_toNat

@[simp] theorem toUint8_toDecimal (value : UInt8) : toUint8 (toDecimal value.toNat) = value := by
  have small := value.toNat_lt
  unfold toUint8
  rw [strtoul_toDecimal (by omega)]
  exact UInt8.ofNat_toNat

/-- A number that fits less is read back from more bits, and cut to what it was. -/
theorem toUInt16_toUint32_toDecimal (value : UInt16) :
    (toUint32 (toDecimal value.toNat)).toUInt16 = value := by
  -- Neither the reading in 32 bits nor the cut changes a number of 16 bits.
  have small := value.toNat_lt
  unfold toUint32
  rw [strtoul_toDecimal (by omega), ← UInt16.toNat_inj, UInt32.toNat_toUInt16,
    UInt32.toNat_ofNat_of_lt' (by simp only [UInt32.size]; omega)]
  exact Nat.mod_eq_of_lt small

@[simp] theorem toBool_toDecimal (value : Bool) : toBool (toDecimal value.toNat) = value := by
  cases value <;> decide

/-- A signed number is read back as it was written, also the least one. -/
@[simp] theorem toInt64_ofInt64 (value : Int64) : toInt64 (ofInt64 value) = value := by
  have least := value.le_toInt
  have most := value.toInt_lt
  have read : strtoll (ofInt64 value) = value.toInt := by
    unfold strtoll ofInt64
    by_cases negative : value.toInt < 0
    · rw [if_pos negative, numberOf_negative]
      simp only [if_true]
      omega
    · rw [if_neg negative, numberOf_toDecimal]
      simp only [Bool.false_eq_true, if_false]
      omega
  unfold toInt64
  rw [read]
  exact Int64.ofInt_toInt value

end Numbers

/--
A node of the document library that may be walked through child by child, and that has attributes.

The library has its own way to read an attribute as a number.
-/
class XmlElement (Node : Type) extends XmlNode Node where
  /-- The children in order, with their names. -/
  children : Node → List (String × Node)
  attributeOf : Node → String → Option Bytes
  appendAttribute : Node → String → Bytes → Node
  asUint : Bytes → UInt32
  children_element : children XmlNode.element = []
  children_append : ∀ node name added,
    children (XmlNode.appendChild node name added) = children node ++ [(name, added)]
  attribute_element : ∀ name, attributeOf XmlNode.element name = none
  attribute_append : ∀ node name value other,
    attributeOf (appendAttribute node name value) other =
      (attributeOf node other).or (if other = name then some value else none)
  child_attribute : ∀ node name value other,
    XmlNode.child (appendAttribute node name value) other = XmlNode.child node other
  asUint_ofUint32 : ∀ value, asUint (ofUint32 value) = value

export XmlElement (children attributeOf appendAttribute asUint)

section Lists

variable {Node : Type} [XmlElement Node]

/-- Appends nodes under one name. -/
def appendAll (name : String) (nodes : List Node) : Node :=
  nodes.foldl (fun node added => appendChild node name added) element

/-- Nodes are walked through in the order in which they were appended. -/
theorem children_appendAll (name : String) (nodes : List Node) :
    children (appendAll name nodes) = nodes.map fun node => (name, node) := by
  -- The nodes are appended one by one, behind what is there already.
  have general : ∀ front : Node,
      children (nodes.foldl (fun node added => appendChild node name added) front) =
        children front ++ nodes.map fun node => (name, node) := by
    induction nodes with
    | nil => simp
    | cons first rest ih =>
      intro front
      rw [List.foldl_cons, ih, XmlElement.children_append, List.map_cons, List.append_assoc]
      rfl
  unfold appendAll
  rw [general, XmlElement.children_element, List.nil_append]

end Lists

end Recap.SporeNet
