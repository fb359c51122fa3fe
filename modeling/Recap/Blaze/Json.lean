import Recap.Core.DataBuffer

/-! The documents that packets are built into and parsed into. -/

namespace Recap.Blaze

/-- The errors that stop the reader or the writer of packets. -/
inductive Fault where
  /-- An accessor of the document is used on a value of another kind, or names an absent member. -/
  | assertion
  /-- A string is asked to grow beyond what can be allocated. -/
  | length
  /-- No number starts where one is expected. -/
  | invalidArgument
  /-- A number does not fit in its 64 bits. -/
  | outOfRange
  deriving DecidableEq, Repr

/-- Sizes of strings are kept in 32 bits in a document. -/
abbrev sizeBound : Nat := 2 ^ 32

/-- `std::to_string`, in decimal digits from the highest to the lowest. -/
def toDecimal (value : Nat) : Bytes :=
  if value = 0 then ascii "0" else (Nat.digits 10 value).reverse.map fun digit => UInt8.ofNat (48 + digit)

/-- A document, whose objects keep their members in the order they were added. -/
inductive Json where
  | null
  | bool (value : Bool)
  | number (value : Nat)
  | string (text : Bytes)
  | array (items : List Json)
  | object (members : List (Bytes × Json))
  deriving Repr

namespace Json

/-- A value made of a `std::string`, of which it keeps as many characters as its cut size says. -/
def ofText (text : Bytes) : Json := string (text.take (text.length % sizeBound))

/-- A text whose size fits is kept whole. -/
theorem ofText_eq {text : Bytes} (short : text.length < sizeBound) : ofText text = string text := by
  rw [ofText, Nat.mod_eq_of_lt short, List.take_length]

/-- Add a member at the end, without looking for one of the same name. -/
def addMember (parent : Json) (name : Bytes) (value : Json) : Json :=
  match parent with
  | object members => object (members ++ [(name, value)])
  | other => other

/-- Add an item at the end. -/
def pushBack (parent value : Json) : Json :=
  match parent with
  | array items => array (items ++ [value])
  | other => other

/-- Replace the value of the first member of a name. -/
def replaceFirst (name : Bytes) (value : Json) : List (Bytes × Json) → List (Bytes × Json)
  | [] => []
  | (key, held) :: rest =>
    if key = name then (key, value) :: rest else (key, held) :: replaceFirst name value rest

/-- The value of the first member of a name. -/
def find (name : Bytes) : List (Bytes × Json) → Option Json
  | [] => none
  | (key, held) :: rest => if key = name then some held else find name rest

/-- `value[name]`, which asserts that the member is there. -/
def member (value : Json) (name : Bytes) : Except Fault Json :=
  match value with
  | object members => (find name members).elim (.error .assertion) .ok
  | _ => .error .assertion

/-- `GetUint()` -/
def getUint : Json → Except Fault Nat
  | number value => if value < 2 ^ 32 then .ok value else .error .assertion
  | _ => .error .assertion

/-- `GetUint64()` -/
def getUint64 : Json → Except Fault Nat
  | number value => .ok value
  | _ => .error .assertion

/-- `GetBool()` -/
def getBool : Json → Except Fault Bool
  | bool value => .ok value
  | _ => .error .assertion

/-- The characters before the first NUL, which is where a C string ends. -/
def cString (text : Bytes) : Bytes := text.takeWhile (· ≠ 0)

/-- `GetString()`, read as a C string as every caller reads it. -/
def getString : Json → Except Fault Bytes
  | string text => .ok (cString text)
  | _ => .error .assertion

/-- `GetArray()` -/
def getArray : Json → Except Fault (List Json)
  | array items => .ok items
  | _ => .error .assertion

/-- `GetObject()` -/
def getObject : Json → Except Fault (List (Bytes × Json))
  | object members => .ok members
  | _ => .error .assertion

/-- What was returned without an error is handed on. -/
@[simp] theorem ok_bind {α β : Type} (value : α) (next : α → Except Fault β) :
    ((Except.ok value : Except Fault α) >>= next) = next value := rfl

/-- What a sequence of two parts returned without an error, its second part returned. -/
theorem bind_eq_ok {α β : Type} {first : Except Fault α} {next : α → Except Fault β} {result : β}
    (returned : (first >>= next) = .ok result) :
    ∃ value, first = .ok value ∧ next value = .ok result := by
  cases first with
  | error fault => cases returned
  | ok value => exact ⟨value, rfl, returned⟩

/-- A C string without a NUL is all of its characters. -/
theorem cString_eq {text : Bytes} (plain : (0 : UInt8) ∉ text) : cString text = text := by
  -- Every character passes the test, so none is cut off.
  apply List.takeWhile_eq_self_iff.mpr
  intro character member
  simp only [ne_eq, decide_not, Bool.not_eq_eq_eq_not, Bool.not_true, decide_eq_false_iff_not]
  rintro rfl
  exact plain member

/-- A name that no member has is not found. -/
theorem find_none {name : Bytes} {members : List (Bytes × Json)}
    (absent : name ∉ members.map Prod.fst) : find name members = none := by
  induction members with
  | nil => rfl
  | cons member rest ih =>
    obtain ⟨key, held⟩ := member
    simp only [List.map_cons, List.mem_cons, not_or] at absent
    rw [find, if_neg (Ne.symm absent.1), ih absent.2]

end Json
end Recap.Blaze
