import Recap.Blaze.ParserFrame
import Recap.Core.TdfInteger
import Recap.Lib.Logged

/-! The lengths that the parser resizes strings and blobs to, beside what is left of the buffer. -/

namespace Recap.Blaze

open Logged (Agree)

/-- What happens at a string or a blob: it declares a length, and it is resized. -/
inductive TextEvent where
  | declared (string : Bool) (length remaining : Nat)
  | resized (length remaining : Nat)
  deriving DecidableEq, Repr

namespace TextEvent

/-- Nothing is resized to more than what remains. -/
def Bounded : TextEvent → Prop
  | declared _ _ _ => True
  | resized length remaining => length ≤ remaining

/-- A text ends inside the buffer, and a string declares at least the zero byte behind its text. -/
def Inside : TextEvent → Prop
  | declared true length remaining => 0 < length ∧ length - 1 ≤ remaining
  | declared false length remaining => length ≤ remaining
  | resized _ _ => True

variable (string : Bool) (length remaining : Nat)

@[simp] theorem bounded_declared : (declared string length remaining).Bounded := trivial

@[simp] theorem bounded_resized : (resized length remaining).Bounded ↔ length ≤ remaining := Iff.rfl

@[simp] theorem inside_resized : (resized length remaining).Inside := trivial

end TextEvent

/-! ## The parser with a log -/

namespace Watched

open Recap.Blaze.Parser (Parse)

/-- A part of the parser that logs what happens at strings and blobs. -/
abbrev Watch (α : Type) := Logged Reader TextEvent α

/-- The bytes of the content that have not been read yet. -/
def remaining (r : Reader) : Nat := r.buffer.size - r.buffer.position

/-- A part of the parser that meets no text. -/
def silent {α : Type} (part : Parse α) : Watch α := fun r =>
  match part r with
  | .done (value, next) => ⟨.done value, next, []⟩
  | .thrown _ => ⟨.thrown, r, []⟩
  | .stuck | .spent => ⟨.overflow, r, []⟩

/-- A string is resized first, and only then are its characters read. -/
def readChars (env : Env) (length : Nat) : Watch Bytes := do
  let r ← Logged.get
  Logged.log (.resized length (remaining r))
  silent (Parser.readChars env length)

def readSized (env : Env) (length : Nat) : Watch Bytes :=
  if 0 < length then readChars env length else pure []

/-- What follows the length that a text declares. -/
def readDeclared (env : Env) (string : Bool) (decoded length : Nat) : Watch Bytes := do
  let r ← Logged.get
  Logged.log (.declared string decoded (remaining r))
  readSized env length

/-- `read_string` -/
def readText (env : Env) : Watch Bytes := do
  let decoded ← silent Parser.readU64
  let text ← readDeclared env true decoded ((decoded + (wordBound - 1)) % wordBound)
  silent Parser.skipU8
  return text

/-- `ReadString` -/
def readString (env : Env) : Watch Json := do
  let text ← readText env
  return .ofText text

/-- `ReadBlob` -/
def readBlob (env : Env) : Watch Json := do
  let length ← silent Parser.readU64
  let text ← readDeclared env false length length
  return .ofText text

/-- A loop of the parser, as the source has it. -/
def loop (test : Parse Bool) (body : Json → Watch Json) : (fuel : Nat) → Json → Watch Json
  | 0, _ => Logged.overflow
  | fuel + 1, value => do
    if ← silent test then
      let value ← body value
      loop test body fuel value
    else return value

def readFields (readValue : Json → Watch Json) (fuel : Nat) (parent : Json) : Watch Json := do
  let parent ← loop Parser.moreFields readValue fuel parent
  silent Parser.skipU8
  return parent

/-- `ReadStruct` -/
def readStruct (readValue : Json → Watch Json) (fuel : Nat) : Watch Json :=
  readFields readValue fuel (.object [(ascii "_Type", .number Kind.struct.toNat)])

/-- `ReadUnion` -/
def readUnion (readValue : Json → Watch Json) : Watch Json := do
  let addressMember ← silent Parser.readU8
  let value : Json := .object [(ascii "_Type", .number Kind.union.toNat),
    (ascii "_AddressMember", .number addressMember)]
  if addressMember ≠ addressUnset then readValue value else return value

def readItem (env : Env) (readValue : Json → Watch Json) (fuel : Nat) : Kind → Option (Watch Json)
  | .integer => some (silent Parser.readInteger)
  | .string => some (readString env)
  | .struct => some (readStruct readValue fuel)
  | _ => none

def readListContent (env : Env) (readValue : Json → Watch Json) (fuel : Nat) (type : Kind)
    (listSize : Nat) (stub : Bool) : Watch Json :=
  if stub then do
    silent Parser.skipU8
    readFields readValue fuel (.array [])
  else
    match readItem env readValue fuel type with
    | some item =>
      Logged.rounds (fun _ content => do return Json.pushBack content (← item)) listSize 0 (.array [])
    | none => pure (.array [])

/-- `ReadList` -/
def readList (env : Env) (readValue : Json → Watch Json) (fuel : Nat) : Watch Json := do
  let listType ← silent Parser.readU8
  let listSize ← silent Parser.readU8
  let ahead ← silent Parser.peekU8
  let stub := decide (ahead = 0x02 ∧ Kind.ofNat listType = .struct)
  let listContent ← readListContent env readValue fuel (.ofNat listType) listSize stub
  return .object [(ascii "_Type", .number Kind.list.toNat), (ascii "_ListType", .number listType),
    (ascii "_ListSize", .number listSize), (ascii "_Stub", .bool stub),
    (ascii "_Content", listContent)]

def readEntry (env : Env) (readValue : Json → Watch Json) (fuel : Nat) (keyType valueType : Kind)
    (content : Json) : Watch Json := do
  let key ← (readItem env readValue fuel keyType).getD (pure .null)
  let value ← (readItem env readValue fuel valueType).getD (pure .null)
  match Parser.mapKey keyType key with
  | .ok name => return content.addMember name value
  | .error _ => Logged.throw

/-- `ReadMap` -/
def readMap (env : Env) (readValue : Json → Watch Json) (fuel : Nat) : Watch Json := do
  let keyType ← silent Parser.readU8
  let valueType ← silent Parser.readU8
  let mapSize ← silent Parser.readU8
  let mapContent ← Logged.rounds
    (fun _ => readEntry env readValue fuel (.ofNat keyType) (.ofNat valueType)) mapSize 0 (.object [])
  return .object [(ascii "_Type", .number Kind.map.toNat), (ascii "_KeyType", .number keyType),
    (ascii "_ValueType", .number valueType), (ascii "_MapSize", .number mapSize),
    (ascii "_Content", mapContent)]

def readTyped (env : Env) (readValue : Json → Watch Json) (fuel : Nat) :
    Kind → Option (Watch Json)
  | .integer => some (silent Parser.readInteger)
  | .string => some (readString env)
  | .binary => some (readBlob env)
  | .struct => some (readStruct readValue fuel)
  | .union => some (readUnion readValue)
  | .list => some (readList env readValue fuel)
  | .map => some (readMap env readValue fuel)
  | .integerList => some (silent Parser.readIntegerList)
  | .objectType => some (silent Parser.readObjectType)
  | .objectId => some (silent Parser.readObjectId)
  | _ => none

/-- `ReadValue`, for a given number of nested calls. -/
def readValue (env : Env) : (fuel : Nat) → Json → Watch Json
  | 0, _ => Logged.overflow
  | fuel + 1, parent => do
    let header ← silent Parser.readHeader
    if ← silent Parser.eof then return parent
    match readTyped env (readValue env fuel) fuel header.type with
    | some typed => return Parser.addObject header (← typed) parent
    | none => return parent

/-- `Parser::Read` -/
def read (env : Env) (fuel : Nat) : Watch Json :=
  loop Parser.moreContent (readValue env fuel) fuel (.object [])

/-! ## What the log says -/

/-- A run with a log ends as the run of the parser does. -/
def Shadows {α : Type} (result : Logged.Result Reader TextEvent α) :
    Outcome Fault (α × Reader) → Prop
  | .done (value, next) => result.ending = .done value ∧ result.state = next
  | .thrown _ => result.ending = .thrown
  | .stuck | .spent => result.ending = .overflow

/-- What a run has logged does not matter for how it ends. -/
theorem Shadows.relog {α : Type} {result : Logged.Result Reader TextEvent α}
    {outcome : Outcome Fault (α × Reader)} (shadows : Shadows result outcome) (log : List TextEvent) :
    Shadows { result with log := log } outcome := by
  cases outcome <;> exact shadows

/-- A part with a log does what the part does. -/
def Shadowed {α : Type} (watch : Watch α) (part : Parse α) : Prop :=
  ∀ r, Shadows (watch r) (part r)

theorem Shadowed.bind {α β : Type} {watch : Watch α} {part : Parse α} {next : α → Watch β}
    {later : α → Parse β} (before : Shadowed watch part)
    (after : ∀ value, Shadowed (next value) (later value)) :
    Shadowed (watch >>= next) (part >>= later) := by
  intro r
  have first := before r
  change Shadows (Logged.bind watch next r) (Program.bind part later r)
  unfold Logged.bind Program.bind
  -- The second part is run on either side only after a first one that has returned.
  generalize watch r = result at first
  obtain ⟨ending, state, log⟩ := result
  cases ran : part r with
  | done pair =>
    obtain ⟨value, last⟩ := pair
    rw [ran] at first
    obtain ⟨rfl, rfl⟩ : ending = .done value ∧ state = last := first
    exact (after value state).relog _
  | thrown fault =>
    rw [ran] at first
    obtain rfl : ending = .thrown := first
    rfl
  | stuck =>
    rw [ran] at first
    obtain rfl : ending = .overflow := first
    rfl
  | spent =>
    rw [ran] at first
    obtain rfl : ending = .overflow := first
    rfl

theorem Shadowed.silent {α : Type} (part : Parse α) : Shadowed (Watched.silent part) part := by
  intro r
  unfold Watched.silent
  cases part r with
  | done pair => exact ⟨rfl, rfl⟩
  | thrown fault => rfl
  | stuck => rfl
  | spent => rfl

/-- The content is as small as a vector can be. -/
def Small (r : Reader) : Prop := r.buffer.size < maxCapacity

/-- Every resizing is bounded exactly when every text is inside. -/
abbrev Judged {α : Type} (returned : α → Reader → Prop) (result : Logged.Result Reader TextEvent α) :
    Prop :=
  Agree TextEvent.Bounded TextEvent.Inside returned (fun _ => True) result

/-- A part with a log does what the part does, and its log can be judged either way. -/
structure Watches {α : Type} (watch : Watch α) (part : Parse α) : Prop where
  shadows : Shadowed watch part
  judged : ∀ r, Small r → Judged (fun _ => Small) (watch r)

namespace Watches

variable {α β : Type}

theorem pure (value : α) : Watches (Pure.pure value) (Pure.pure value) where
  shadows _ := ⟨rfl, rfl⟩
  judged _ small := Agree.silent small

theorem bind {watch : Watch α} {part : Parse α} {next : α → Watch β} {later : α → Parse β}
    (before : Watches watch part) (after : ∀ value, Watches (next value) (later value)) :
    Watches (watch >>= next) (part >>= later) where
  shadows := before.shadows.bind fun value => (after value).shadows
  judged r small := Agree.bind (before.judged r small) fun value last kept =>
    (after value).judged last kept

theorem map {watch : Watch α} {part : Parse α} (change : α → β) (watches : Watches watch part) :
    Watches (do return change (← watch)) (do return change (← part)) :=
  watches.bind fun value => .pure (change value)

/-- What meets no text logs nothing, and keeps the content of the buffer. -/
theorem silent {part : Parse α} (keeps : Program.Keeps Reader.SameContent part) :
    Watches (Watched.silent part) part where
  shadows := Shadowed.silent part
  judged := by
    intro r small
    unfold Watched.silent
    cases ran : part r with
    | done pair =>
      have kept : Small pair.2 := by
        unfold Small
        rw [(keeps r pair.1 pair.2 ran).size]
        exact small
      exact Agree.silent kept
    | thrown fault => exact Agree.throw trivial
    | stuck => exact Agree.overflow
    | spent => exact Agree.overflow

theorem throw (fault : Fault) :
    Watches (Logged.throw : Watch α) (Program.throw fault) where
  shadows _ := rfl
  judged _ _ := Agree.throw trivial

theorem repeated {body : Json → Watch Json} {round : Json → Parse Json}
    (watches : ∀ value, Watches (body value) (round value)) (count index : Nat) (value : Json) :
    Watches (Logged.rounds (fun _ => body) count index value) (Program.repeated round count value) := by
  induction count generalizing index value with
  | zero => exact .pure value
  | succ count ih => exact (watches value).bind fun value => ih (index + 1) value

/-- A loop that the source has no way out of but its test. -/
theorem loop {env : Env} (source : env.strict = false) {test : Parse Bool} {body : Json → Watch Json}
    {round : Json → Parse Json} (tested : Program.Keeps Reader.SameContent test)
    (watches : ∀ value, Watches (body value) (round value)) (fuel : Nat) (value : Json) :
    Watches (Watched.loop test body fuel value)
      (Program.loop (Parser.starving env) test round fuel value) := by
  induction fuel generalizing value with
  | zero => exact ⟨fun _ => rfl, fun _ _ => Agree.overflow⟩
  | succ fuel ih =>
    have free : ∀ part : Parse Json, Program.guarded (Parser.starving env) part = part := by
      intro part
      funext r
      simp [Program.guarded, Parser.starving, source]
    rw [Program.loop_succ]
    simp only [free]
    refine (Watches.silent tested).bind fun passed => ?_
    cases passed with
    | false => exact .pure value
    | true => exact (watches value).bind ih

end Watches

/-! ## Texts -/

/-- All that is resized is what follows the declared length, unless that is nothing. -/
theorem readDeclared_log (env : Env) (string : Bool) (decoded length : Nat) (r : Reader) :
    (readDeclared env string decoded length r).log =
      .declared string decoded (remaining r) ::
        if 0 < length then [.resized length (remaining r)] else [] := by
  change .declared string decoded (remaining r) :: (readSized env length r).log = _
  unfold readSized
  split
  · change _ :: .resized length (remaining r) :: (silent (Parser.readChars env length) r).log = _
    unfold silent
    split <;> rfl
  · rfl

theorem readDeclared_shadowed (env : Env) (string : Bool) (decoded length : Nat) :
    Shadowed (readDeclared env string decoded length) (Parser.readSized env length) := by
  intro r
  have sized : Shadows (readSized env length r) (Parser.readSized env length r) := by
    unfold readSized Parser.readSized
    split
    · exact (Shadowed.silent (Parser.readChars env length) r).relog _
    · exact ⟨rfl, rfl⟩
  exact sized.relog _

/-- A text is resized within bounds exactly when it is inside. -/
theorem readDeclared_judged (env : Env) (string : Bool) {decoded length : Nat} {r : Reader}
    (small : Small r)
    (means : length ≤ remaining r ↔ (TextEvent.declared string decoded (remaining r)).Inside) :
    Judged (fun _ => Small) (readDeclared env string decoded length r) where
  log := by
    rw [readDeclared_log]
    split
    · simp [← means]
    · -- What is not resized at all is within any bounds.
      simp [← means]
      omega
  done := by
    intro _ value ended
    have kept := (Parser.framed env 0).readSized length r
    have same := readDeclared_shadowed env string decoded length r
    cases ran : Parser.readSized env length r with
    | done pair =>
      rw [ran] at same
      obtain ⟨-, state⟩ := same
      unfold Small
      rw [state, (kept pair.1 pair.2 ran).size]
      exact small
    | thrown fault =>
      rw [ran] at same
      exact absurd (same.symm.trans ended) (by simp)
    | stuck =>
      rw [ran] at same
      exact absurd (same.symm.trans ended) (by simp)
    | spent =>
      rw [ran] at same
      exact absurd (same.symm.trans ended) (by simp)
  thrown _ _ := trivial

/-- The decoded length, which is far below the bound of the subtraction. -/
theorem decoded_judged {r : Reader} (small : Small r) :
    Judged (fun decoded last => decoded < 2 ^ 55 ∧ Small last) (silent Parser.readU64 r) := by
  have kept := ((Parser.framed ⟨0, false⟩ 0).integer r) _ _ rfl
  apply Agree.silent
  constructor
  · exact Reader.decodeTdfInteger_lt r
  · unfold Small
    rw [kept.size]
    exact small

/-- An unsigned decrement wraps around for nothing, and then exceeds whatever is left. -/
theorem decrement_le_iff {word bound decoded rest : Nat} (far : bound + bound ≤ word)
    (few : decoded < bound) (small : rest < bound) :
    (decoded + (word - 1)) % word ≤ rest ↔ 0 < decoded ∧ decoded - 1 ≤ rest := by
  by_cases nothing : decoded = 0
  · have wrapped : (decoded + (word - 1)) % word = word - 1 := by
      rw [nothing, Nat.zero_add, Nat.mod_eq_of_lt (by omega)]
    omega
  · have less : (decoded + (word - 1)) % word = decoded - 1 := by
      rw [show decoded + (word - 1) = decoded - 1 + word by omega, Nat.add_mod_right,
        Nat.mod_eq_of_lt (by omega)]
    omega

theorem remaining_lt {r : Reader} (small : Small r) : remaining r < maxCapacity :=
  Nat.lt_of_le_of_lt (Nat.sub_le _ _) small

theorem text_inside_iff {decoded rest : Nat} (few : decoded < 2 ^ 55) (small : rest < maxCapacity) :
    (decoded + (wordBound - 1)) % wordBound ≤ rest ↔
      (TextEvent.declared true decoded rest).Inside := by
  have far : maxCapacity + maxCapacity ≤ wordBound := by decide
  have near : 2 ^ 55 ≤ maxCapacity := by decide
  exact decrement_le_iff far (Nat.lt_of_lt_of_le few near) small

/-- A string, for any length that is made of the declared one. -/
theorem watches_sized (env : Env) (length : Nat → Nat)
    (means : ∀ {decoded rest}, decoded < 2 ^ 55 → rest < maxCapacity →
      (length decoded ≤ rest ↔ (TextEvent.declared true decoded rest).Inside)) :
    Watches
      (do
        let decoded ← silent Parser.readU64
        let text ← readDeclared env true decoded (length decoded)
        silent Parser.skipU8
        return text)
      (do
        let decoded ← Parser.readU64
        let text ← Parser.readSized env (length decoded)
        Parser.skipU8
        return text) where
  shadows := by
    refine (Shadowed.silent _).bind fun decoded => ?_
    refine (readDeclared_shadowed env true decoded _).bind fun text => ?_
    exact (Shadowed.silent _).bind fun _ => (Watches.pure text).shadows
  judged := by
    intro r small
    refine Agree.bind (decoded_judged small) fun decoded last met => ?_
    obtain ⟨few, small⟩ := met
    have inside := means few (remaining_lt small)
    refine Agree.bind (readDeclared_judged env true small inside) fun text after small => ?_
    exact ((Watches.silent (Parser.framed env 0).skip).bind fun _ => .pure text).judged after small

theorem watches_text (env : Env) : Watches (readText env) (Parser.readText env) :=
  watches_sized env _ text_inside_iff

theorem watches_string (env : Env) : Watches (readString env) (Parser.readString env) :=
  (watches_text env).map _

theorem watches_blob (env : Env) : Watches (readBlob env) (Parser.readBlob env) where
  shadows := (Shadowed.silent _).bind fun length => (readDeclared_shadowed env false length _).bind
    fun _ => (Watches.pure _).shadows
  judged := by
    intro r small
    refine Agree.bind (decoded_judged small) fun length last met => ?_
    refine Agree.bind (readDeclared_judged env false met.2 Iff.rfl) fun text after small => ?_
    exact (Watches.pure _).judged after small

/-! ## The whole parser -/

section Nested

variable {env : Env} (source : env.strict = false) (fuel : Nat) {watch : Json → Watch Json}
variable {value : Json → Parse Json} (nested : ∀ parent, Watches (watch parent) (value parent))

include source nested

theorem watches_fields (parent : Json) :
    Watches (readFields watch fuel parent) (Parser.readFields env value fuel parent) := by
  have more : Program.Keeps Reader.SameContent Parser.moreFields :=
    (Parser.framed env 0).map _ (Parser.framed env 0).peek
  exact (Watches.loop source more nested fuel parent).bind fun content =>
    (Watches.silent (Parser.framed env 0).skip).bind fun _ => .pure content

theorem watches_struct : Watches (readStruct watch fuel) (Parser.readStruct env value fuel) :=
  watches_fields source fuel nested _

omit source in
theorem watches_union : Watches (readUnion watch) (Parser.readUnion value) := by
  refine (Watches.silent ((Parser.framed ⟨0, false⟩ 0).read 1)).bind fun addressMember => ?_
  dsimp only
  split
  · exact nested _
  · exact .pure _

/-- What stands in a list or a map is read with a log and without one, or in neither way. -/
theorem watches_item (kind : Kind) :
    (∃ item part, readItem env watch fuel kind = some item ∧
      Parser.readItem env value fuel kind = some part ∧ Watches item part) ∨
    (readItem env watch fuel kind = none ∧ Parser.readItem env value fuel kind = none) := by
  cases kind with
  | integer => exact .inl ⟨_, _, rfl, rfl, .silent (Parser.framed env 0).readInteger⟩
  | string => exact .inl ⟨_, _, rfl, rfl, watches_string env⟩
  | struct => exact .inl ⟨_, _, rfl, rfl, watches_struct source fuel nested⟩
  | _ => exact .inr ⟨rfl, rfl⟩

theorem watches_listContent (kind : Kind) (listSize : Nat) (stub : Bool) :
    Watches (readListContent env watch fuel kind listSize stub)
      (Parser.readListContent env value fuel kind listSize stub) := by
  unfold readListContent Parser.readListContent
  cases stub with
  | true =>
    exact (Watches.silent (Parser.framed env 0).skip).bind fun _ => watches_fields source fuel nested _
  | false =>
    rcases watches_item source fuel nested kind with ⟨item, part, left, right, watches⟩ | ⟨left, right⟩
    · simp only [Bool.false_eq_true, if_false, left, right]
      exact .repeated (fun content => watches.map _) listSize 0 _
    · simp only [Bool.false_eq_true, if_false, left, right]
      exact .pure _

theorem watches_list : Watches (readList env watch fuel) (Parser.readList env value fuel) := by
  have byte := Watches.silent ((Parser.framed env 0).read 1)
  exact byte.bind fun _ => byte.bind fun _ => (Watches.silent (Parser.framed env 0).peek).bind
    fun _ => (watches_listContent source fuel nested _ _ _).map _

theorem watches_entryItem (kind : Kind) :
    Watches ((readItem env watch fuel kind).getD (pure .null))
      ((Parser.readItem env value fuel kind).getD (pure .null)) := by
  rcases watches_item source fuel nested kind with ⟨item, part, left, right, watches⟩ | ⟨left, right⟩
  · rw [left, right]
    exact watches
  · rw [left, right]
    exact .pure _

theorem watches_entry (keyType valueType : Kind) (content : Json) :
    Watches (readEntry env watch fuel keyType valueType content)
      (Parser.readEntry env value fuel keyType valueType content) := by
  refine (watches_entryItem source fuel nested keyType).bind fun key =>
    (watches_entryItem source fuel nested valueType).bind fun item => ?_
  -- Whether the key can be a name is told by the key alone.
  cases Parser.mapKey keyType key with
  | ok name => exact .pure _
  | error fault => exact .throw fault

theorem watches_map : Watches (readMap env watch fuel) (Parser.readMap env value fuel) := by
  have byte := Watches.silent ((Parser.framed env 0).read 1)
  exact byte.bind fun _ => byte.bind fun _ => byte.bind fun _ =>
    (Watches.repeated (watches_entry source fuel nested _ _) _ 0 _).map _

/-- What follows a header is read with a log and without one, or in neither way. -/
theorem watches_typed (kind : Kind) :
    (∃ typed part, readTyped env watch fuel kind = some typed ∧
      Parser.readTyped env value fuel kind = some part ∧ Watches typed part) ∨
    (readTyped env watch fuel kind = none ∧ Parser.readTyped env value fuel kind = none) := by
  -- One case for each type that has a reader.
  cases kind with
  | integer => exact .inl ⟨_, _, rfl, rfl, .silent (Parser.framed env 0).readInteger⟩
  | string => exact .inl ⟨_, _, rfl, rfl, watches_string env⟩
  | binary => exact .inl ⟨_, _, rfl, rfl, watches_blob env⟩
  | struct => exact .inl ⟨_, _, rfl, rfl, watches_struct source fuel nested⟩
  | list => exact .inl ⟨_, _, rfl, rfl, watches_list source fuel nested⟩
  | map => exact .inl ⟨_, _, rfl, rfl, watches_map source fuel nested⟩
  | union => exact .inl ⟨_, _, rfl, rfl, watches_union nested⟩
  | integerList => exact .inl ⟨_, _, rfl, rfl, .silent (Parser.framed env 0).readIntegerList⟩
  | objectType => exact .inl ⟨_, _, rfl, rfl, .silent (Parser.framed env 0).readObjectType⟩
  | objectId => exact .inl ⟨_, _, rfl, rfl, .silent (Parser.framed env 0).readObjectId⟩
  | _ => exact .inr ⟨rfl, rfl⟩

end Nested

theorem watches_value {env : Env} (source : env.strict = false) (fuel : Nat) (parent : Json) :
    Watches (readValue env fuel parent) (Parser.readValue env fuel parent) := by
  -- The induction follows the nesting of values.
  induction fuel generalizing parent with
  | zero => exact ⟨fun _ => rfl, fun _ _ => Agree.overflow⟩
  | succ fuel ih =>
    refine (Watches.silent (Parser.framed env 0).readHeader).bind fun header =>
      (Watches.silent (Parser.framed env 0).atEnd).bind fun ended => ?_
    cases ended with
    | true => exact .pure _
    | false =>
      rcases watches_typed source fuel ih header.type with ⟨typed, part, left, right, watches⟩ | ⟨left, right⟩
      · simp only [Bool.false_eq_true, if_false, left, right]
        exact watches.map _
      · simp only [Bool.false_eq_true, if_false, left, right]
        exact .pure _

/-- The parser with a log does what the parser does, and its log can be judged either way. -/
theorem watches_read {env : Env} (source : env.strict = false) (fuel : Nat) :
    Watches (read env fuel) (Parser.read env fuel) := by
  have more : Program.Keeps Reader.SameContent Parser.moreContent :=
    (Parser.framed env 0).map _ (Parser.framed env 0).atEnd
  exact .loop source more (watches_value source fuel) fuel _

/--
The parser, whose texts the log tells of, resizes none of them to more than what remains exactly
when all of them are inside the buffer.
-/
theorem bounded_iff_inside (maxSize fuel : Nat) (r : Reader) (small : Small r) :
    Shadows (read ⟨maxSize, false⟩ fuel r) (Parser.read ⟨maxSize, false⟩ fuel r) ∧
      ((∀ event ∈ (read ⟨maxSize, false⟩ fuel r).log, event.Bounded) ↔
        ∀ event ∈ (read ⟨maxSize, false⟩ fuel r).log, event.Inside) := by
  have watches : Watches (read ⟨maxSize, false⟩ fuel) (Parser.read ⟨maxSize, false⟩ fuel) :=
    watches_read rfl fuel
  exact ⟨watches.shadows r, (watches.judged r small).log⟩

/-- A body as it is received. -/
def received (body : Bytes) : Reader := ⟨⟨body, body.length, 0⟩, fun _ => 0⟩

/-- A string of two characters. -/
theorem bounded_iff_inside_name :
    Shadows (read ⟨2 ^ 62, false⟩ 2 (received [0xBA, 0x1B, 0x65, 1, 3, 0x68, 0x69, 0]))
        (Parser.read ⟨2 ^ 62, false⟩ 2 (received [0xBA, 0x1B, 0x65, 1, 3, 0x68, 0x69, 0])) ∧
      ((∀ event ∈ (read ⟨2 ^ 62, false⟩ 2
          (received [0xBA, 0x1B, 0x65, 1, 3, 0x68, 0x69, 0])).log, event.Bounded) ↔
        ∀ event ∈ (read ⟨2 ^ 62, false⟩ 2
          (received [0xBA, 0x1B, 0x65, 1, 3, 0x68, 0x69, 0])).log, event.Inside) :=
  bounded_iff_inside (2 ^ 62) 2 (received [0xBA, 0x1B, 0x65, 1, 3, 0x68, 0x69, 0])
    (by unfold Small; decide)

/-- A string that declares no byte at all is resized to the largest length that there is. -/
theorem not_bounded :
    ¬ ∀ event ∈ (read ⟨2 ^ 62, false⟩ 2 (received [0xBA, 0x1B, 0x65, 1, 0])).log,
      event.Bounded := by
  intro bounded
  have wrapped : TextEvent.resized (2 ^ 64 - 1) 0 ∈
      (read ⟨2 ^ 62, false⟩ 2 (received [0xBA, 0x1B, 0x65, 1, 0])).log := by decide
  exact absurd (bounded _ wrapped) (by simp)

end Watched
end Recap.Blaze
