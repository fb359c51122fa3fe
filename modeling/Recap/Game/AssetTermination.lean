import Recap.Game.AssetReading
import Recap.Lib.Acyclic

/-! The parser comes to an end on every asset, and reads nothing outside of it. -/

namespace Recap.Game

open Logged

namespace AssetCatalog

/-- A structure holds another structure of the catalog inside of it. -/
def Contains {Offset : Type} (catalog : AssetCatalog Offset) (outer inner : String) : Prop :=
  ∃ structDef, catalog.getStruct outer = some structDef ∧
    ∃ member ∈ structDef.members, member.typeName ≠ "array" ∧
      ∃ typeDef, catalog.getType member.typeName = some typeDef ∧ typeDef.type = .struct ∧
        typeDef.targetType = inner ∧ catalog.getStruct inner ≠ none

/-- No type of this name holds others. -/
def Scalar {Offset : Type} (catalog : AssetCatalog Offset) (name : String) : Prop :=
  name ≠ "array" ∧ ∀ typeDef, catalog.getType name = some typeDef →
    typeDef.type ≠ .nullable ∧ typeDef.type ≠ .array ∧ typeDef.type ≠ .struct

/-- What keeps the parser from going on forever, as the offsets are exact. -/
structure WellFounded (catalog : AssetCatalog Nat) : Prop where
  finite : {name | catalog.getStruct name ≠ none}.Finite
  acyclic : ∀ name, ¬ Relation.TransGen catalog.Contains name name
  nullable : ∀ name typeDef targetStruct, catalog.getType name = some typeDef →
    typeDef.type = .nullable → catalog.getStruct typeDef.targetType = some targetStruct →
      0 < targetStruct.fixedSize
  element : ∀ name structDef, catalog.getStruct name = some structDef →
    ∀ member ∈ structDef.members, member.typeName = "array" →
      (∃ elementDef, catalog.getStruct member.elementType = some elementDef ∧ 0 < elementDef.fixedSize) ∨
        catalog.getStruct member.elementType = none ∧ catalog.Scalar member.elementType

end AssetCatalog

/-- Every byte that was read lies inside of a buffer of the given size. -/
def Inside (size : Nat) (log : List (Visit Nat)) : Prop :=
  ∀ offset width, .read offset width ∈ log → offset + width ≤ size

theorem Inside.nil (size : Nat) : Inside size [] :=
  fun _ _ impossible => absurd impossible List.not_mem_nil

theorem Inside.append {size : Nat} {log more : List (Visit Nat)} (front : Inside size log)
    (back : Inside size more) : Inside size (log ++ more) := by
  intro offset width member
  rcases List.mem_append.mp member with first | last
  · exact front offset width first
  · exact back offset width last

theorem Inside.cons {size : Nat} {visit : Visit Nat} {log : List (Visit Nat)}
    (back : Inside size log)
    (here : ∀ offset width, visit = .read offset width → offset + width ≤ size) : Inside size (visit :: log) := by
  intro offset width member
  rcases List.mem_cons.mp member with first | last
  · exact here offset width first.symm
  · exact back offset width last

@[simp] theorem ofNat_nat (number : Nat) : (OffsetNumber.ofNat number : Nat) = number := rfl

@[simp] theorem toNat_nat (number : Nat) : OffsetNumber.toNat number = number := rfl

namespace Parser

/-! ### Parts that come to an end -/

section Goes

variable {α β : Type} {size : Nat} {met : Parser Nat → Prop} {parser : Parser Nat}

/-- A part that comes to an end, or throws, and has read nothing outside of the buffer. -/
abbrev Goes (size : Nat) (returned : α → Parser Nat → Prop) (met : Parser Nat → Prop)
    (result : Logged.Result (Parser Nat) (Visit Nat) α) : Prop :=
  Meets (fun value log after => Inside size log ∧ returned value after)
    (fun log after => Inside size log ∧ met after) False result

theorem Goes.silent {returned : α → Parser Nat → Prop} {value : α} (same : returned value parser) :
    Goes size returned met ⟨.done value, parser, []⟩ :=
  Meets.silent ⟨Inside.nil size, same⟩

theorem Goes.bind {first : Parse Nat α} {next : α → Parse Nat β} {middle : α → Parser Nat → Prop}
    {returned : β → Parser Nat → Prop} (before : Goes size middle met (first parser))
    (after : ∀ value last, middle value last → Goes size returned met (next value last)) :
    Goes size returned met ((first >>= next) parser) := by
  refine Meets.bind before fun value log last good => ?_
  refine (after value last good.2).weaken (fun _ _ _ rest => ?_) fun _ _ rest => ?_
  · exact ⟨good.1.append rest.1, rest.2⟩
  · exact ⟨good.1.append rest.1, rest.2⟩

theorem Goes.weaken {returned returned' : α → Parser Nat → Prop} {met' : Parser Nat → Prop}
    {result : Logged.Result (Parser Nat) (Visit Nat) α} (goes : Goes size returned met result)
    (done : ∀ value last, returned value last → returned' value last)
    (thrown : ∀ last, met last → met' last) : Goes size returned' met' result :=
  Meets.weaken goes (fun value _ last good => ⟨good.1, done value last good.2⟩)
    fun _ last good => ⟨good.1, thrown last good.2⟩

/-- An entry of the log that is no read. -/
theorem Goes.log {visit : Visit Nat} {returned : Unit → Parser Nat → Prop}
    (silent : ∀ offset width, visit ≠ .read offset width) (same : returned () parser) :
    Goes size returned met ((Logged.log visit : Parse Nat Unit) parser) :=
  Meets.entry ⟨(Inside.nil size).cons fun offset width read => absurd read (silent offset width), same⟩

/-- An entry of the log that is no read, before what reads nothing outside of the buffer. -/
theorem Goes.note {visit : Visit Nat} {next : Unit → Parse Nat α} {returned : α → Parser Nat → Prop}
    (silent : ∀ offset width, visit ≠ .read offset width)
    (rest : Goes size returned met (next () parser)) :
    Goes size returned met ((Logged.log visit >>= next) parser) := by
  have here : ∀ offset width, visit = .read offset width → offset + width ≤ size :=
    fun offset width read => absurd read (silent offset width)
  refine Meets.note (Meets.weaken rest (fun _ _ _ good => ?_) fun _ _ good => ?_)
  · exact ⟨good.1.cons here, good.2⟩
  · exact ⟨good.1.cons here, good.2⟩

/-- An invariant that every round keeps holds after all of them. -/
theorem Goes.rounds {body : Nat → α → Parse Nat α} (invariant : Nat → α → Parser Nat → Prop) (count : Nat)
    (round : ∀ index value last, index < count → invariant index value last →
      Goes size (invariant (index + 1)) met (body index value last))
    (value : α) (initially : invariant 0 value parser) :
    Goes size (invariant count) met (Logged.rounds body count 0 value parser) := by
  refine Meets.rounds_zero (fun index value log last => Inside size log ∧ invariant index value last) count ?_
    value ⟨Inside.nil size, initially⟩
  rintro index value log last before ⟨front, kept⟩
  refine Meets.weaken (round index value last before kept) (fun _ _ _ good => ?_) fun _ _ good => ?_
  · exact ⟨front.append good.1, good.2⟩
  · exact ⟨front.append good.1, good.2⟩

end Goes

/-! ### Reading -/

/-- The offsets may have moved, but the secondary one not backwards, and the flags are the same. -/
structure Advanced (before after : Parser Nat) : Prop where
  secondary : before.secondaryOffset ≤ after.secondaryOffset
  display : after.displaySecondaryOffset = before.displaySecondaryOffset
  sec : after.secOffsetStruct = before.secOffsetStruct
  elements : after.processingArrayElement = before.processingArrayElement

theorem Advanced.refl (parser : Parser Nat) : Advanced parser parser :=
  ⟨le_rfl, rfl, rfl, rfl⟩

theorem Advanced.trans {first second third : Parser Nat} (before : Advanced first second)
    (after : Advanced second third) : Advanced first third :=
  ⟨before.secondary.trans after.secondary, after.display.trans before.display,
    after.sec.trans before.sec, after.elements.trans before.elements⟩

theorem Advanced.setPrimaryOffset (parser : Parser Nat) (offset : Nat) :
    Advanced parser (parser.setPrimaryOffset offset) :=
  ⟨le_rfl, rfl, rfl, rfl⟩

/-- A part that moves the offsets, and that reads nothing outside of the buffer. -/
def Scans (size : Nat) {α : Type} (part : Parse Nat α) : Prop :=
  ∀ parser, Goes size (fun _ => Advanced parser) (Advanced parser) (part parser)

section Scans

variable {size : Nat} {α β : Type}

theorem Scans.pure (value : α) : Scans size (pure value : Parse Nat α) :=
  fun parser => Goes.silent (Advanced.refl parser)

theorem Scans.bind {first : Parse Nat α} {next : α → Parse Nat β} (before : Scans size first)
    (after : ∀ value, Scans size (next value)) : Scans size (first >>= next) := by
  intro parser
  refine Goes.bind (before parser) fun value last moved => ?_
  exact (after value last).weaken (fun _ _ => moved.trans) fun _ => moved.trans

theorem Scans.get {next : Parser Nat → Parse Nat α} (after : ∀ parser, Scans size (next parser)) :
    Scans size (Logged.get >>= next) :=
  fun parser => after parser parser

theorem Scans.log {visit : Visit Nat} (silent : ∀ offset width, visit ≠ .read offset width) :
    Scans size (Logged.log visit) :=
  fun parser => Goes.log silent (Advanced.refl parser)

/-- What is refused returns nothing. -/
theorem goes_refuse {returned : α → Parser Nat → Prop} (offset : Nat) (parser : Parser Nat) :
    Goes size returned (Advanced parser) (AssetBuffer.refuse offset parser) := by
  refine Meets.note (Meets.throw ⟨(Inside.nil size).cons ?_, Advanced.refl parser⟩)
  simp

end Scans

variable (buffer : AssetBuffer Nat)

/-- What a number is read from lies inside of the buffer. -/
theorem goes_readAt (offset width : Nat) (parser : Parser Nat) :
    Goes buffer.size (fun _ after => after = parser ∧ offset + width ≤ buffer.size) (Advanced parser)
      (buffer.readAt offset width parser) := by
  -- A read that is not refused ends inside the data.
  unfold AssetBuffer.readAt
  split
  · rename_i valid
    have inside : offset + width ≤ buffer.size := by simpa [AssetBuffer.isValidOffset] using valid
    refine Meets.note (Meets.silent ⟨(Inside.nil _).cons ?_, rfl, inside⟩)
    rintro _ _ ⟨⟩
    exact inside
  · exact goes_refuse offset parser

theorem scans_readAt (offset width : Nat) : Scans buffer.size (buffer.readAt offset width) := by
  intro parser
  refine (goes_readAt buffer offset width parser).weaken (fun _ _ same => ?_) fun _ => id
  exact same.1 ▸ Advanced.refl parser

/-- What is read at the primary offset lies inside of the buffer, and the offset moves behind it. -/
theorem goes_readPrimary (width : Nat) (parser : Parser Nat) :
    Goes buffer.size (fun _ after => Advanced parser after ∧ parser.primaryOffset + width ≤ buffer.size)
      (Advanced parser) (buffer.readPrimary width parser) := by
  unfold AssetBuffer.readPrimary
  rw [get_bind]
  refine Goes.bind (goes_readAt buffer _ width parser) ?_
  rintro value _ ⟨rfl, inside⟩
  exact Goes.silent ⟨Advanced.setPrimaryOffset _ _, inside⟩

theorem scans_readPrimary (width : Nat) : Scans buffer.size (buffer.readPrimary width) :=
  fun parser => (goes_readPrimary buffer width parser).weaken (fun _ _ => And.left) fun _ => id

/-- A string is no longer than what is left of the buffer. -/
theorem stringWidth_le (offset left : Nat) : buffer.stringWidth offset left ≤ left := by
  -- The induction follows the bytes that are left, one of which is taken in each step.
  induction left generalizing offset with
  | zero => exact le_rfl
  | succ left ih =>
    have rest := ih (offset + 1)
    unfold AssetBuffer.stringWidth
    split
    · omega
    · simp only [ofNat_nat]
      omega

theorem scans_readString (useSecondary : Bool) : Scans buffer.size (buffer.readString useSecondary) := by
  -- The string and its end lie between the offset and the end of the data.
  intro parser
  unfold AssetBuffer.readString
  rw [get_bind]
  simp only [ofNat_nat, toNat_nat]
  generalize place : (if useSecondary then parser.secondaryOffset else parser.primaryOffset) = offset
  split
  · exact goes_refuse offset parser
  · rename_i before
    have short := stringWidth_le buffer offset (buffer.size - offset)
    refine Meets.note (Meets.silent ⟨(Inside.nil _).cons ?_, ?_⟩)
    · rintro _ _ ⟨⟩
      omega
    · cases useSecondary with
      | true =>
        simp only [if_true] at place
        refine ⟨?_, rfl, rfl, rfl⟩
        show parser.secondaryOffset ≤ offset + _
        omega
      | false => exact Advanced.setPrimaryOffset parser _

theorem scans_readValue (type : DataType) : Scans buffer.size (buffer.readValue type) := by
  have rules : ReadRules buffer (Scans buffer.size) :=
    ⟨Scans.pure, Scans.bind, scans_readPrimary buffer, scans_readString buffer⟩
  exact rules.readValue type

/-- A part that does nothing to the parser and reads nothing. -/
def Quiet {α : Type} (part : Parse Nat α) : Prop :=
  ∀ size met parser, Goes size (fun _ after => after = parser) met (part parser)

theorem Quiet.pure {α : Type} (value : α) : Quiet (pure value : Parse Nat α) :=
  fun _ _ _ => Goes.silent rfl

theorem Quiet.log {α : Type} {visit : Visit Nat} (silent : ∀ offset width, visit ≠ .read offset width)
    (value : α) : Quiet (Logged.log visit >>= fun _ => (Pure.pure value : Parse Nat α)) :=
  fun _ _ _ => Goes.bind (Goes.log silent rfl) fun _ _ same => Goes.silent same

theorem Quiet.scans {α : Type} {part : Parse Nat α} (quiet : Quiet part) (size : Nat) : Scans size part :=
  fun parser => (quiet size _ parser).weaken (fun _ _ same => same ▸ Advanced.refl parser) fun _ => id

/-- What is turned to is no read. -/
theorem quiet_visitMember (parsed : Parsed Nat) (member : StructMember Nat) (before : Parser Nat)
    (address : Nat) : Quiet (visitMember parsed member before address) := by
  -- Only a member of the primary part is logged, and that moves nothing.
  unfold visitMember
  cases parsed with
  | entry place => exact Quiet.pure ()
  | member base =>
    simp only
    split
    · exact Quiet.pure ()
    · exact Quiet.log (by simp) ()

theorem quiet_visitCount (parsed : Parsed Nat) (member : StructMember Nat) (before : Parser Nat)
    (address : Nat) : Quiet (visitCount parsed member before address) := by
  -- As for a member, only a count of the primary part is logged.
  unfold visitCount
  cases parsed with
  | entry place => exact Quiet.pure ()
  | member base =>
    simp only
    split
    · exact Quiet.pure ()
    · exact Quiet.log (by simp) ()

theorem quiet_visitStruct (parsed : Parsed Nat) (member : StructMember Nat) (before : Parser Nat)
    (address : Nat) : Quiet (visitStruct parsed member before address) := by
  -- Wherever the struct is to start, logging its visit moves nothing.
  unfold visitStruct
  cases parsed with
  | entry place => exact Quiet.log (by simp) place
  | member base =>
    simp only
    split
    · exact Quiet.pure address
    · exact Quiet.log (by simp) (base + member.offset)

theorem scans_readCount (member : StructMember Nat) (parsed : Parsed Nat) (before : Parser Nat) :
    Scans buffer.size (readCount buffer member parsed before) := by
  refine Scans.get fun parser => ?_
  split
  · exact ((quiet_visitCount parsed member before _).scans buffer.size).bind fun _ => scans_readAt buffer _ 4
  · exact scans_readPrimary buffer 4

theorem scans_modify {size : Nat} {change : Parser Nat → Parser Nat}
    (moved : ∀ parser, Advanced parser (change parser)) : Scans size (Logged.modify change) :=
  fun parser => Goes.silent (moved parser)

/-- A value that holds no other is read where it is. -/
theorem scans_parseValue (typeDef : TypeDefinition Nat) (member : StructMember Nat) (parsed : Parsed Nat) :
    Scans buffer.size (parseValue buffer typeDef member parsed) := by
  refine Scans.get fun before => ?_
  refine (scans_modify fun parser => Advanced.setPrimaryOffset parser _).bind fun _ => ?_
  refine ((quiet_visitMember parsed member before _).scans buffer.size).bind fun _ => ?_
  exact scans_readValue buffer typeDef.type

/-! ### Levels -/

/--
Whether the parser is in the primary part, or how far the secondary offset had come when it last
went into an array or a nullable structure.
-/
abbrev Level := Option Nat

/--
What holds all along a level.

Who has left the array elements outside of the primary part has read something behind the place
where the level starts.
-/
structure Stays (size : Nat) (level : Level) (parser : Parser Nat) : Prop where
  display : parser.displaySecondaryOffset = 0
  inPrimary : level = none → parser.secOffsetStruct = false ∧ parser.processingArrayElement = false
  outside : ∀ start, level = some start → parser.secOffsetStruct = true ∧ start < parser.secondaryOffset ∧
    (parser.processingArrayElement = false → start < size)

/-- A structure or a member can be parsed on a level. -/
structure Starts (size : Nat) (level : Level) (parser : Parser Nat) : Prop where
  stays : Stays size level parser
  primary : ∀ start, level = some start → parser.processingArrayElement = true →
    start ≤ parser.primaryOffset

/-- What a structure or a member leaves of a level. -/
structure Remains (size : Nat) (level : Level) (before after : Parser Nat) : Prop where
  stays : Stays size level after
  elements : after.processingArrayElement = true → before.processingArrayElement = true

theorem Stays.advanced {size : Nat} {level : Level} {before after : Parser Nat}
    (stays : Stays size level before) (advanced : Advanced before after) : Stays size level after where
  -- The two flags are the same afterwards, and the offset has only grown.
  display := advanced.display.trans stays.display
  inPrimary := by
    intro here
    obtain ⟨sec, elements⟩ := stays.inPrimary here
    exact ⟨advanced.sec.trans sec, advanced.elements.trans elements⟩
  outside := by
    intro start here
    obtain ⟨sec, deeper, within⟩ := stays.outside start here
    refine ⟨advanced.sec.trans sec, lt_of_lt_of_le deeper advanced.secondary, fun left => ?_⟩
    exact within (advanced.elements.symm.trans left)

theorem Stays.remains {size : Nat} {level : Level} {before after : Parser Nat}
    (stays : Stays size level before) (advanced : Advanced before after) :
    Remains size level before after :=
  ⟨stays.advanced advanced, fun inside => advanced.elements ▸ inside⟩

theorem Remains.advanced {size : Nat} {level : Level} {before middle after : Parser Nat}
    (remains : Remains size level before middle) (advanced : Advanced middle after) :
    Remains size level before after :=
  ⟨remains.stays.advanced advanced, fun inside => remains.elements (advanced.elements ▸ inside)⟩

/-- What is read of a member that has been turned to shows that the level starts inside of the buffer. -/
theorem Starts.within {size : Nat} {level : Level} {parser : Parser Nat} (starts : Starts size level parser)
    {address : Nat}
    (placed : parser.secOffsetStruct = true → parser.processingArrayElement = true →
      parser.primaryOffset ≤ address) (inside : address + 4 ≤ size) :
    ∀ start, level = some start → start < size := by
  -- An element of an array lies behind the offset it was entered with.
  intro start here
  obtain ⟨sec, -, within⟩ := starts.stays.outside start here
  cases elements : parser.processingArrayElement with
  | false => exact within elements
  | true =>
    have behind := starts.primary start here elements
    have place := placed sec elements
    omega

/-- Whoever comes back to a level with the secondary offset no less, and its flag put back, is on it. -/
theorem Starts.back {size : Nat} {level : Level} {parser after : Parser Nat}
    (starts : Starts size level parser) (within : ∀ start, level = some start → start < size)
    (display : after.displaySecondaryOffset = 0) (secondary : parser.secondaryOffset ≤ after.secondaryOffset)
    (sec : after.secOffsetStruct = parser.secOffsetStruct)
    (elements : after.processingArrayElement = true → parser.processingArrayElement = true) :
    Remains size level parser after := by
  refine ⟨⟨display, fun here => ?_, fun start here => ?_⟩, elements⟩
  · obtain ⟨primary, outside⟩ := starts.stays.inPrimary here
    refine ⟨sec.trans primary, Bool.eq_false_iff.mpr fun inside => ?_⟩
    exact Bool.false_ne_true (outside.symm.trans (elements inside))
  · obtain ⟨there, deeper, -⟩ := starts.stays.outside start here
    exact ⟨sec.trans there, lt_of_lt_of_le deeper secondary, fun _ => within start here⟩

/-- Inside of the buffer, a level that starts at the secondary offset is a deeper one. -/
theorem Starts.deeper {size : Nat} {level : Level} {parser : Parser Nat} (starts : Starts size level parser)
    (within : ∀ start, level = some start → start < size) :
    ∀ start, level = some start → start < parser.secondaryOffset ∧ start < size :=
  fun start here => ⟨(starts.stays.outside start here).2.1, within start here⟩

/-- What lies at the secondary offset or behind it can be parsed on a level of its own. -/
theorem Starts.inside {size start : Nat} {parser : Parser Nat} (display : parser.displaySecondaryOffset = 0)
    (sec : parser.secOffsetStruct = true) (elements : parser.processingArrayElement = true)
    (behind : start ≤ parser.primaryOffset) (deeper : start < parser.secondaryOffset) :
    Starts size (some start) parser := by
  refine ⟨⟨display, nofun, ?_⟩, ?_⟩
  · rintro _ ⟨⟩
    exact ⟨sec, deeper, fun left => absurd (elements.symm.trans left) (by simp)⟩
  · rintro _ ⟨⟩ _
    exact behind

theorem primaryOffset_le_memberStart {parser : Parser Nat} (member : StructMember Nat)
    (sec : parser.secOffsetStruct = true) (elements : parser.processingArrayElement = true) :
    parser.primaryOffset ≤ parser.memberStartOffset member := by
  simp [memberStartOffset, sec, elements]

theorem primaryOffset_le_arrayStart {parser : Parser Nat} (member : StructMember Nat)
    (sec : parser.secOffsetStruct = true) (elements : parser.processingArrayElement = true) :
    parser.primaryOffset ≤ parser.arrayStartOffset member := by
  simp [arrayStartOffset, sec, elements]

/--
How deep calls may still be nested on a level, at a structure of some rank.

Outside of the primary part there is a level for every place that the secondary offset can still be at
inside of the buffer, and on every level a rank for every structure.
-/
def height (size ranks : Nat) : Level → Nat → Nat
  | none, rank => (size + 2) * (ranks + 1) + rank
  | some start, rank => (size + 1 - start) * (ranks + 1) + rank

/-- Going into an array or a nullable structure leaves less height, whatever it is made of. -/
theorem height_lt {size ranks : Nat} {level : Level} {place rank rank' : Nat} (bounded : rank' ≤ ranks)
    (deeper : ∀ start, level = some start → start < place ∧ start < size) :
    height size ranks (some place) rank' < height size ranks level rank := by
  -- One place further in is worth more than any number of ranks.
  cases level with
  | none =>
    have fewer : (size + 1 - place) * (ranks + 1) ≤ (size + 1) * (ranks + 1) :=
      Nat.mul_le_mul_right _ (Nat.sub_le _ _)
    have more : (size + 2) * (ranks + 1) = (size + 1) * (ranks + 1) + (ranks + 1) := Nat.succ_mul _ _
    simp only [height]
    omega
  | some start =>
    obtain ⟨above, within⟩ := deeper start rfl
    have fewer : (size + 1 - place) * (ranks + 1) ≤ (size - start) * (ranks + 1) :=
      Nat.mul_le_mul_right _ (by omega)
    have split : size + 1 - start = (size - start) + 1 := by omega
    have more : (size + 1 - start) * (ranks + 1) = (size - start) * (ranks + 1) + (ranks + 1) := by
      rw [split, Nat.succ_mul]
    simp only [height]
    omega

theorem height_mono {size ranks : Nat} (level : Level) {rank rank' : Nat} (less : rank' < rank) :
    height size ranks level rank' < height size ranks level rank := by
  cases level with
  | none => exact Nat.add_lt_add_left less _
  | some start => exact Nat.add_lt_add_left less _

/-! ### The cases of a member -/

section Cases

variable {catalog : AssetCatalog Nat} {ranks : Nat} {rank : String → Nat} {depth : Nat}

/-- Structures come to an end where calls may be nested as deep as their height asks for. -/
def StructsEnd (catalog : AssetCatalog Nat) (buffer : AssetBuffer Nat) (ranks : Nat) (rank : String → Nat)
    (depth : Nat) : Prop :=
  ∀ name base parser level, Starts buffer.size level parser →
    2 * height buffer.size ranks level (rank name) + 3 ≤ depth →
      Goes buffer.size (fun _ => Remains buffer.size level parser) (fun _ => False)
        (parseStruct catalog buffer depth name base parser)

/-- A structure that the catalog does not know comes to its end at once. -/
theorem parseStruct_unknown {name : String} (unknown : catalog.getStruct name = none) (base : Nat)
    (parser : Parser Nat) (deep : 0 < depth) :
    Goes buffer.size (fun _ after => after = parser) (fun _ => False)
      (parseStruct catalog buffer depth name base parser) := by
  cases depth with
  | zero => exact absurd deep (Nat.lt_irrefl 0)
  | succ depth =>
    unfold parseStruct
    rw [get_bind, unknown]
    exact Goes.log (by simp) rfl

/-- An inline structure is parsed on the same level, and has a lower rank. -/
theorem parseInline_ends (structs : StructsEnd catalog buffer ranks rank depth) {typeDef : TypeDefinition Nat}
    {member : StructMember Nat} (parsed : Parsed Nat) {parser : Parser Nat} {level : Level} {bound : Nat}
    (starts : Starts buffer.size level parser)
    (lower : catalog.getStruct typeDef.targetType = none ∨ rank typeDef.targetType < bound)
    (deep : 2 * height buffer.size ranks level bound + 2 ≤ depth + 1) :
    Goes buffer.size (fun _ => Remains buffer.size level parser) (Remains buffer.size level parser)
      (parseInline (parseStruct catalog buffer depth) typeDef member parsed parser) := by
  -- An inline struct has a lower rank than the one that it is part of.
  unfold parseInline
  rw [get_bind, modify_bind]
  refine Goes.bind (quiet_visitStruct parsed member parser _ _ _ _) ?_
  rintro base _ rfl
  rw [modify_bind]
  have start : Advanced parser { parser.setPrimaryOffset (parser.memberStartOffset member) with
      currentStructBaseOffset := parser.memberStartOffset member } := ⟨le_rfl, rfl, rfl, rfl⟩
  generalize entered : { parser.setPrimaryOffset (parser.memberStartOffset member) with
    currentStructBaseOffset := parser.memberStartOffset member } = inside at start
  have inner : Goes buffer.size (fun _ => Remains buffer.size level parser) (Remains buffer.size level parser)
      (parseStruct catalog buffer depth typeDef.targetType base inside) := by
    rcases lower with unknown | lower
    · refine (parseStruct_unknown buffer unknown base inside (by omega)).weaken ?_ fun _ => False.elim
      rintro _ _ rfl
      exact starts.stays.remains start
    · have fits := @height_mono buffer.size ranks level _ _ lower
      have again : Starts buffer.size level inside := by
        refine ⟨starts.stays.advanced start, fun place here elements => ?_⟩
        obtain ⟨sec, -, -⟩ := starts.stays.outside place here
        have elements' := start.elements.symm.trans elements
        have behind := starts.primary place here elements'
        rw [← entered]
        exact behind.trans (primaryOffset_le_memberStart member sec elements')
      refine (structs typeDef.targetType base inside level again (by omega)).weaken ?_ fun _ => False.elim
      exact fun _ last remains => ⟨remains.stays, fun elements => start.elements ▸ remains.elements elements⟩
  exact Goes.bind inner fun _ last remains => Goes.silent (remains.advanced ⟨le_rfl, rfl, rfl, rfl⟩)

/-- A nullable structure is parsed on a level of its own, which starts where it lies. -/
theorem parseNullable_ends (structs : StructsEnd catalog buffer ranks rank depth)
    (bounded : ∀ name, rank name ≤ ranks) {typeDef : TypeDefinition Nat}
    (sized : ∀ targetStruct, catalog.getStruct typeDef.targetType = some targetStruct →
      0 < targetStruct.fixedSize)
    {member : StructMember Nat} (parsed : Parsed Nat) {parser : Parser Nat} {level : Level} {bound : Nat}
    (starts : Starts buffer.size level parser)
    (deep : 2 * height buffer.size ranks level bound + 2 ≤ depth + 1) :
    Goes buffer.size (fun _ => Remains buffer.size level parser) (Remains buffer.size level parser)
      (parseNullable (parseStruct catalog buffer depth) catalog buffer typeDef member parsed parser) := by
  unfold parseNullable
  rw [get_bind, modify_bind]
  refine Goes.bind (quiet_visitMember parsed member parser _ _ _ _) ?_
  rintro _ _ rfl
  have start := Advanced.setPrimaryOffset parser (parser.memberStartOffset member)
  refine Goes.bind ((goes_readPrimary buffer 4 _).weaken (fun _ _ => id)
    fun _ moved => starts.stays.remains (start.trans moved)) ?_
  rintro hasValue middle ⟨moved, inside⟩
  have advanced := start.trans moved
  have within := starts.within (primaryOffset_le_memberStart member) inside
  split
  · cases known : catalog.getStruct typeDef.targetType with
    | none => exact Goes.silent (starts.stays.remains advanced)
    | some targetStruct =>
      simp only
      rw [get_bind]
      refine Goes.note (by simp) ?_
      rw [modify_bind, modify_bind, modify_bind, modify_bind]
      have size := sized targetStruct known
      have fits : height buffer.size ranks (some parser.secondaryOffset) (rank typeDef.targetType) <
          height buffer.size ranks level bound := height_lt (bounded _) (starts.deeper within)
      have display : middle.displaySecondaryOffset = 0 := advanced.display.trans starts.stays.display
      have secondary : middle.getSecondaryOffset = middle.secondaryOffset := by
        simp [getSecondaryOffset, display]
      refine Goes.bind ((structs typeDef.targetType _ _ (some parser.secondaryOffset) ?_ (by omega)).weaken
        (fun _ _ => id) fun _ => False.elim) ?_
      · -- The structure lies where the secondary offset was, which moves behind it.
        refine Starts.inside display rfl rfl ?_ ?_
        · exact advanced.secondary.trans secondary.symm.le
        · exact Nat.lt_add_of_pos_right size
      · intro _ last remains
        rw [modify_bind]
        obtain ⟨-, deeper, -⟩ := remains.stays.outside _ rfl
        exact Goes.silent (starts.back within remains.stays.display deeper.le advanced.sec
          fun inside => advanced.elements ▸ inside)
  · exact Goes.silent (starts.stays.remains (advanced.trans (Advanced.setPrimaryOffset _ _)))

/--
The elements of an array of structures are parsed on a level of their own.

None of them lies before its start, and the secondary offset has moved at least by what they take.
-/
theorem parseElements_ends (structs : StructsEnd catalog buffer ranks rank depth)
    {structDef : StructDefinition Nat} {elementType : String} {count start place : Nat}
    {parser : Parser Nat} (first : start ≤ place) (sized : 0 < structDef.fixedSize) (display : parser.displaySecondaryOffset = 0)
    (behind : start + structDef.fixedSize * count ≤ parser.secondaryOffset)
    (deep : 2 * height buffer.size ranks (some start) (rank elementType) + 3 ≤ depth) :
    Goes buffer.size (fun _ after => after.displaySecondaryOffset = 0 ∧ start ≤ after.secondaryOffset ∧
        after.secOffsetStruct = parser.secOffsetStruct) (fun _ => False)
      (parseElements (parseStruct catalog buffer depth) structDef elementType count place parser) := by
  -- Every element starts behind the array, so the place has gone up by then.
  unfold parseElements
  have moved : 0 < count → start < parser.secondaryOffset := fun some_elements => by
    have := Nat.mul_pos sized some_elements
    omega
  refine Goes.bind (Goes.rounds (fun index dataOffset (last : Parser Nat) =>
    start ≤ dataOffset ∧ last.displaySecondaryOffset = 0 ∧ start ≤ last.secondaryOffset ∧
      (0 < count → start < last.secondaryOffset) ∧ last.secOffsetStruct = parser.secOffsetStruct) count ?_
    place ⟨first, display, by omega, moved, rfl⟩) ?_
  · rintro index dataOffset current within ⟨place, display, -, deeper, sec⟩
    rw [modify_bind, get_bind, modify_bind]
    have below := deeper (by omega)
    have starts : Starts buffer.size (some start) { current.setPrimaryOffset dataOffset with
        secOffsetStruct := true, processingArrayElement := true } :=
      Starts.inside display rfl rfl place below
    refine Goes.bind ((structs elementType _ _ (some start) starts deep).weaken (fun _ _ => id)
      fun _ => False.elim) ?_
    intro _ last remains
    rw [modify_bind]
    obtain ⟨-, further, -⟩ := remains.stays.outside _ rfl
    exact Goes.silent ⟨by omega, remains.stays.display, further.le, fun _ => further, sec⟩
  · rintro _ last ⟨-, display, place, -, sec⟩
    exact Goes.silent ⟨display, place, sec⟩

/-- A member whose type holds no others comes to its end at once. -/
theorem scans_parseMember {member : StructMember Nat} (scalar : catalog.Scalar member.typeName)
    (parsed : Parsed Nat) (deep : 0 < depth) :
    Scans buffer.size (parseMember catalog buffer depth member parsed) := by
  -- A scalar member is neither an array nor a struct, so nothing is entered for it.
  obtain ⟨not_array, plain⟩ := scalar
  cases depth with
  | zero => exact absurd deep (Nat.lt_irrefl 0)
  | succ depth =>
    unfold parseMember
    cases known : catalog.getType member.typeName with
    | none => exact Scans.pure ()
    | some typeDef =>
      obtain ⟨not_nullable, -, not_struct⟩ := plain typeDef known
      simp only [not_array, if_false]
      exact scans_parseValue buffer typeDef member parsed

/-- The entries of an array whose elements are no structures move the offsets. -/
theorem scans_parseEntries {elementType : String} (scalar : catalog.Scalar elementType)
    (elemTypeDef : TypeDefinition Nat) (useSecondaryForElements : Bool) (count elementBaseOffset : Nat)
    (deep : 0 < depth) :
    Scans buffer.size (parseEntries (parseMember catalog buffer depth) elemTypeDef elementType
      useSecondaryForElements count elementBaseOffset) := by
  -- The rounds only move the offsets forward.
  have moved : ∀ (condition : Bool) (current : Parser Nat) (offset : Nat),
      Advanced current (if condition then current.setPrimaryOffset offset else current) := by
    intro condition current offset
    split
    · exact Advanced.setPrimaryOffset current offset
    · exact Advanced.refl current
  intro parser
  unfold parseEntries
  refine Goes.bind (Goes.rounds (fun _ _ last => Advanced parser last) count ?_ elementBaseOffset
    (Advanced.refl parser)) fun _ _ after => Goes.silent after
  intro index dataOffset current _ before
  suffices round : Scans buffer.size _ from
    Goes.weaken (round current) (fun _ _ => before.trans) fun _ => before.trans
  refine (scans_modify fun parser => moved useSecondaryForElements parser dataOffset).bind fun _ => ?_
  refine Scans.get fun middle => ?_
  refine (scans_parseMember buffer scalar _ deep).bind fun _ => ?_
  refine (scans_modify fun last => ?_).bind fun _ => Scans.pure _
  split
  · exact Advanced.refl last
  · exact Advanced.setPrimaryOffset last _

/-- An array is parsed on its level, and the structures in it on one of their own. -/
theorem parseArray_ends (structs : StructsEnd catalog buffer ranks rank depth)
    (bounded : ∀ name, rank name ≤ ranks) {member : StructMember Nat}
    (element : (∃ elementDef, catalog.getStruct member.elementType = some elementDef ∧ 0 < elementDef.fixedSize) ∨
      catalog.getStruct member.elementType = none ∧ catalog.Scalar member.elementType)
    (parsed : Parsed Nat) {parser : Parser Nat} {level : Level} {bound : Nat}
    (starts : Starts buffer.size level parser)
    (deep : 2 * height buffer.size ranks level bound + 2 ≤ depth + 1) :
    Goes buffer.size (fun _ => Remains buffer.size level parser) (Remains buffer.size level parser)
      (parseArray (parseStruct catalog buffer depth) (parseMember catalog buffer depth) catalog buffer member
        parsed parser) := by
  unfold parseArray
  rw [get_bind, modify_bind]
  refine Goes.bind (quiet_visitMember parsed member parser _ _ _ _) ?_
  rintro _ _ rfl
  have start := Advanced.setPrimaryOffset parser (parser.arrayStartOffset member)
  refine Goes.bind ((goes_readPrimary buffer 4 _).weaken (fun _ _ => id)
    fun _ moved => starts.stays.remains (start.trans moved)) ?_
  rintro hasValue middle ⟨moved, inside⟩
  have advanced := start.trans moved
  have within := starts.within (primaryOffset_le_arrayStart member) inside
  rw [get_bind]
  split
  · refine Goes.note (by simp) ?_
    refine Goes.bind ((scans_readCount buffer member parsed parser middle).weaken (fun _ _ => advanced.trans)
      fun _ further => starts.stays.remains (advanced.trans further)) ?_
    intro count counted further
    rw [modify_bind, get_bind]
    have indented : Advanced parser (counted.indent 1) := further.trans ⟨le_rfl, rfl, rfl, rfl⟩
    generalize counted.indent 1 = current at indented
    -- Whatever the elements have come to, the parser leaves them.
    have left : ∀ {last : Parser Nat}, last.displaySecondaryOffset = 0 →
        parser.secondaryOffset ≤ last.secondaryOffset → last.secOffsetStruct = parser.secOffsetStruct →
        Goes buffer.size (fun _ => Remains buffer.size level parser) (Remains buffer.size level parser) ((do
          Logged.modify fun parser => { parser with processingArrayElement := false }
          Logged.modify (indent (-1)) : Parse Nat Unit) last) :=
      fun display secondary sec => Goes.silent (starts.back within display secondary sec nofun)
    have display := starts.stays.display
    have display' : middle.displaySecondaryOffset = 0 := advanced.display.trans display
    -- The elements lie in the secondary part, on every level.
    have secondary : (middle.secOffsetStruct ||
        (!middle.secOffsetStruct && !middle.processingArrayElement)) = true := by
      rw [advanced.sec, advanced.elements]
      cases here : level with
      | none =>
        obtain ⟨sec, elements⟩ := starts.stays.inPrimary here
        simp [sec, elements]
      | some place => simp [(starts.stays.outside place here).1]
    rcases element with ⟨structDef, known, sized⟩ | ⟨unknown, scalar⟩
    · simp only [known, secondary, if_true]
      rw [modify_bind]
      have fits : height buffer.size ranks (some parser.secondaryOffset) (rank member.elementType) <
          height buffer.size ranks level bound := height_lt (bounded _) (starts.deeper within)
      have first : parser.secondaryOffset ≤ middle.getSecondaryOffset := by
        simpa [getSecondaryOffset, display'] using advanced.secondary
      have deeper : 2 * height buffer.size ranks (some parser.secondaryOffset) (rank member.elementType) + 3 ≤
          depth := by omega
      have set : (current.setSecondaryOffset (parser.getRealSecondaryOffset +
          structDef.fixedSize * OffsetNumber.ofNat count)).displaySecondaryOffset = 0 :=
        indented.display.trans display
      refine Goes.bind ((parseElements_ends buffer structs first sized set le_rfl deeper).weaken
        (fun _ _ => id) fun _ => False.elim) ?_
      rintro _ last ⟨display, further, sec⟩
      exact left display further (sec.trans indented.sec)
    · simp only [unknown]
      rw [modify_bind]
      generalize entered : (if (!current.secOffsetStruct && !current.processingArrayElement) then
        current.setSecondaryOffset _ else current) = first
      have same : first.displaySecondaryOffset = 0 ∧ parser.secondaryOffset ≤ first.secondaryOffset ∧
          first.secOffsetStruct = parser.secOffsetStruct ∧
          first.processingArrayElement = parser.processingArrayElement := by
        rw [← entered]
        split
        · exact ⟨indented.display.trans display, Nat.le_add_right _ _, indented.sec, indented.elements⟩
        · exact ⟨indented.display.trans display, indented.secondary, indented.sec, indented.elements⟩
      obtain ⟨display, further, sec, elements⟩ := same
      cases catalog.getType member.elementType with
      | none => exact left display further sec
      | some elemTypeDef =>
        refine Goes.bind ((scans_parseEntries buffer scalar elemTypeDef _ count _ (by omega) first).weaken
          (fun _ _ => id) fun last moved => ?_) ?_
        · exact starts.back within (moved.display.trans display) (further.trans moved.secondary)
            (moved.sec.trans sec) fun inside => elements ▸ moved.elements ▸ inside
        · intro _ last moved
          exact left (moved.display.trans display) (further.trans moved.secondary) (moved.sec.trans sec)
  · exact Goes.silent (starts.stays.remains advanced)

/-! ### Structures -/

/-- What a member of a structure of some rank may be. -/
structure Fits (catalog : AssetCatalog Nat) (rank : String → Nat) (bound : Nat) (member : StructMember Nat) :
    Prop where
  element : member.typeName = "array" →
    (∃ elementDef, catalog.getStruct member.elementType = some elementDef ∧ 0 < elementDef.fixedSize) ∨
      catalog.getStruct member.elementType = none ∧ catalog.Scalar member.elementType
  inline : member.typeName ≠ "array" → ∀ typeDef, catalog.getType member.typeName = some typeDef →
    typeDef.type = .struct → catalog.getStruct typeDef.targetType = none ∨ rank typeDef.targetType < bound

/-- Every member of a structure in a well-founded catalog is of a lower rank, where it is inline. -/
theorem fits_of_member (wellFounded : catalog.WellFounded)
    (down : ∀ outer inner, catalog.Contains outer inner → rank inner < rank outer) {name : String}
    {structDef : StructDefinition Nat} (known : catalog.getStruct name = some structDef)
    {member : StructMember Nat} (inside : member ∈ structDef.members) :
    Fits catalog rank (rank name) member where
  element := wellFounded.element name structDef known member inside
  inline := by
    intro not_array typeDef typed struct
    by_cases unknown : catalog.getStruct typeDef.targetType = none
    · exact .inl unknown
    · exact .inr (down _ _ ⟨structDef, known, member, inside, not_array, typeDef, typed, struct, rfl, unknown⟩)

theorem parseMember_ends (wellFounded : catalog.WellFounded) (bounded : ∀ name, rank name ≤ ranks)
    (structs : StructsEnd catalog buffer ranks rank depth) {member : StructMember Nat} {bound : Nat}
    (fits : Fits catalog rank bound member) (parsed : Parsed Nat) {parser : Parser Nat} {level : Level}
    (starts : Starts buffer.size level parser)
    (deep : 2 * height buffer.size ranks level bound + 2 ≤ depth + 1) :
    Goes buffer.size (fun _ => Remains buffer.size level parser) (Remains buffer.size level parser)
      (parseMember catalog buffer (depth + 1) member parsed parser) := by
  -- The four kinds of members end each for its own reason.
  unfold parseMember
  cases known : catalog.getType member.typeName with
  | none => exact Goes.silent (starts.stays.remains (Advanced.refl parser))
  | some typeDef =>
    simp only
    split
    · rename_i array
      exact parseArray_ends buffer structs bounded (fits.element array) parsed starts deep
    · rename_i not_array
      have value : Goes buffer.size (fun _ => Remains buffer.size level parser)
          (Remains buffer.size level parser) (parseValue buffer typeDef member parsed parser) :=
        (scans_parseValue buffer typeDef member parsed parser).weaken (fun _ _ => starts.stays.remains)
          fun _ => starts.stays.remains
      cases type : typeDef.type with
      | nullable =>
        have sized := fun targetStruct => wellFounded.nullable _ typeDef targetStruct known type
        exact parseNullable_ends buffer structs bounded sized parsed starts deep
      | struct => exact parseInline_ends buffer structs parsed starts (fits.inline not_array typeDef known type) deep
      | _ => exact value

/-- The members of a structure are parsed one after the other on its level. -/
theorem parseMembers_ends (wellFounded : catalog.WellFounded) (bounded : ∀ name, rank name ≤ ranks)
    (structs : StructsEnd catalog buffer ranks rank depth) {bound : Nat} {first : Parser Nat} {level : Level}
    (starts : Starts buffer.size level first)
    (deep : 2 * height buffer.size ranks level bound + 2 ≤ depth + 1) (base : Nat)
    (rest : List (StructMember Nat)) (fits : ∀ member ∈ rest, Fits catalog rank bound member)
    {parser : Parser Nat} (remains : Remains buffer.size level first parser) :
    Goes buffer.size (fun _ => Remains buffer.size level first) (Remains buffer.size level first)
      (parseMembers (parseMember catalog buffer (depth + 1)) first.primaryOffset base rest parser) := by
  -- Every member is started where the structure was, whatever the one before has left.
  induction rest generalizing parser with
  | nil => exact Goes.silent remains
  | cons member rest ih =>
    unfold parseMembers
    rw [modify_bind]
    have moved : Advanced parser (if parser.processingArrayElement then
        parser.setPrimaryOffset first.primaryOffset else parser) := by
      split
      · exact Advanced.setPrimaryOffset parser _
      · exact Advanced.refl parser
    have placed : (if parser.processingArrayElement then parser.setPrimaryOffset first.primaryOffset
        else parser).processingArrayElement = true → (if parser.processingArrayElement then
          parser.setPrimaryOffset first.primaryOffset else parser).primaryOffset = first.primaryOffset := by
      split
      · exact fun _ => rfl
      · rename_i outside
        exact fun inside => absurd inside outside
    generalize (if parser.processingArrayElement then parser.setPrimaryOffset first.primaryOffset
      else parser) = current at moved placed
    have here := remains.advanced moved
    have again : Starts buffer.size level current := by
      refine ⟨here.stays, fun start same inside => ?_⟩
      rw [placed inside]
      exact starts.primary start same (here.elements inside)
    have onward : ∀ last, Remains buffer.size level current last → Remains buffer.size level first last :=
      fun last after => ⟨after.stays, fun inside => here.elements (after.elements inside)⟩
    have now := parseMember_ends buffer wellFounded bounded structs (fits member List.mem_cons_self)
      (.member base) again deep
    refine Goes.bind (now.weaken (fun _ last => onward last) onward) fun _ last after => ?_
    exact ih (fun other inside => fits other (List.mem_cons_of_mem _ inside)) after

omit buffer in
/-- Starting a structure moves the secondary offset behind it, where it lies in the secondary part. -/
theorem Stays.enterStruct {size : Nat} {level : Level} {parser : Parser Nat} (stays : Stays size level parser)
    (structDef : StructDefinition Nat) :
    Advanced parser ((enterStruct structDef parser).indent 1) ∧
      ((enterStruct structDef parser).indent 1).primaryOffset = parser.primaryOffset := by
  -- Only in the secondary part does entering move an offset, and then by the size of the structure.
  have display := stays.display
  unfold Parser.enterStruct
  split
  · split
    · exact ⟨⟨le_rfl, rfl, rfl, rfl⟩, rfl⟩
    · refine ⟨⟨?_, rfl, rfl, rfl⟩, rfl⟩
      simp [Parser.indent, Parser.setSecondaryOffset, getSecondaryOffset, display]
  · exact ⟨⟨le_rfl, rfl, rfl, rfl⟩, rfl⟩

omit buffer in
/-- Ending a structure leaves the offsets and the flags alone. -/
theorem advanced_leaveStruct (previous : Nat) (parser : Parser Nat) :
    Advanced parser (leaveStruct previous (parser.indent (-1))) := by
  unfold Parser.leaveStruct
  split
  · split
    · exact ⟨le_rfl, rfl, rfl, rfl⟩
    · exact ⟨le_rfl, rfl, rfl, rfl⟩
  · exact ⟨le_rfl, rfl, rfl, rfl⟩

/-- Structures come to an end, however deep calls may be nested. -/
theorem structs_end (wellFounded : catalog.WellFounded) (bounded : ∀ name, rank name ≤ ranks)
    (down : ∀ outer inner, catalog.Contains outer inner → rank inner < rank outer) (depth : Nat) :
    StructsEnd catalog buffer ranks rank depth := by
  -- A structure and its members take two calls, so the structures inside have two fewer.
  induction depth using Nat.strongRecOn with
  | ind depth ih =>
    intro name base parser level starts deep
    obtain ⟨fewer, rfl⟩ : ∃ fewer, depth = fewer + 2 := ⟨depth - 2, by omega⟩
    unfold parseStruct
    rw [get_bind]
    suffices parsed : Goes buffer.size (fun _ => Remains buffer.size level parser)
        (Remains buffer.size level parser) _ from
      Goes.bind (Meets.attempt parsed) fun _ last remains => Goes.log (by simp) remains
    cases known : catalog.getStruct name with
    | none => exact Goes.silent (starts.stays.remains (Advanced.refl parser))
    | some structDef =>
      simp only
      rw [modify_bind, modify_bind]
      obtain ⟨advanced, place⟩ := starts.stays.enterStruct structDef
      have entered : Starts buffer.size level ((enterStruct structDef parser).indent 1) := by
        refine ⟨starts.stays.advanced advanced, fun start here inside => ?_⟩
        rw [place]
        exact starts.primary start here (advanced.elements ▸ inside)
      have fits : 2 * height buffer.size ranks level (rank name) + 2 ≤ fewer + 1 := by omega
      have members := parseMembers_ends buffer wellFounded bounded (ih fewer (by omega)) entered fits base
        structDef.members
        (fun member inside => fits_of_member wellFounded down known inside)
        (entered.stays.remains (Advanced.refl _))
      rw [place] at members
      have back : ∀ last, Remains buffer.size level ((enterStruct structDef parser).indent 1) last →
          Remains buffer.size level parser last :=
        fun last remains => ⟨remains.stays, fun inside => advanced.elements ▸ remains.elements inside⟩
      refine Goes.bind (members.weaken (fun _ last => back last) back) fun _ last remains => ?_
      rw [modify_bind]
      exact Goes.silent (remains.advanced (advanced_leaveStruct _ last))

/-- The root structures come to an end, all in the primary part. -/
theorem parseRoots_ends (structs : StructsEnd catalog buffer ranks rank depth)
    (bounded : ∀ name, rank name ≤ ranks)
    (deep : 2 * height buffer.size ranks none ranks + 3 ≤ depth) (structTypes : List String)
    {parser : Parser Nat} (stays : Stays buffer.size none parser) :
    Goes buffer.size (fun _ _ => True) (fun _ => False)
      (parseRoots catalog buffer depth structTypes parser) := by
  induction structTypes generalizing parser with
  | nil => exact Goes.silent trivial
  | cons structType rest ih =>
    have lower := bounded structType
    have fits : 2 * height buffer.size ranks none (rank structType) + 3 ≤ depth := by
      simp only [height] at deep ⊢
      omega
    exact Goes.bind (structs structType _ parser none ⟨stays, nofun⟩ fits) fun _ last remains => ih remains.stays

end Cases

/-! ### Deeper calls -/

section Deeper

variable {first second : String → Nat → Parse Nat Unit}
  (structs : ∀ name base, Extends (first name base) (second name base))

include structs

theorem parseElements_extends (structDef : StructDefinition Nat) (elementType : String)
    (count arrayDataOffset : Nat) :
    Extends (parseElements first structDef elementType count arrayDataOffset)
      (parseElements second structDef elementType count arrayDataOffset) := by
  refine Extends.bind (Extends.rounds (fun index dataOffset => ?_) count 0 arrayDataOffset)
    fun _ => Extends.refl _
  refine Extends.then fun _ => Extends.then fun _ => Extends.then fun _ => ?_
  exact (structs _ _).bind fun _ => Extends.refl _

theorem parsePrimaryElements_extends (structDef : StructDefinition Nat) (elementType : String)
    (count elementBaseOffset : Nat) :
    Extends (parsePrimaryElements first structDef elementType count elementBaseOffset)
      (parsePrimaryElements second structDef elementType count elementBaseOffset) := by
  refine Extends.bind (Extends.rounds (fun index dataOffset => ?_) count 0 elementBaseOffset)
    fun _ => Extends.refl _
  refine Extends.then fun _ => Extends.then fun _ => ?_
  exact (structs _ _).bind fun _ => Extends.refl _

theorem parseInline_extends (typeDef : TypeDefinition Nat) (member : StructMember Nat) (parsed : Parsed Nat) :
    Extends (parseInline first typeDef member parsed) (parseInline second typeDef member parsed) := by
  refine Extends.then fun _ => Extends.then fun _ => Extends.then fun _ => Extends.then fun _ => ?_
  exact (structs _ _).bind fun _ => Extends.refl _

theorem parseNullable_extends (catalog : AssetCatalog Nat) (buffer : AssetBuffer Nat)
    (typeDef : TypeDefinition Nat) (member : StructMember Nat) (parsed : Parsed Nat) :
    Extends (parseNullable first catalog buffer typeDef member parsed)
      (parseNullable second catalog buffer typeDef member parsed) := by
  refine Extends.then fun _ => Extends.then fun _ => Extends.then fun _ => Extends.then fun _ => ?_
  split
  · cases catalog.getStruct typeDef.targetType with
    | none => exact Extends.refl _
    | some targetStruct =>
      refine Extends.then fun _ => Extends.then fun _ => Extends.then fun _ => Extends.then fun _ => ?_
      refine Extends.then fun _ => Extends.then fun _ => ?_
      exact (structs _ _).bind fun _ => Extends.refl _
  · exact Extends.refl _

theorem parseArray_extends {one other : StructMember Nat → Parsed Nat → Parse Nat Unit}
    (members : ∀ member parsed, Extends (one member parsed) (other member parsed))
    (catalog : AssetCatalog Nat) (buffer : AssetBuffer Nat) (member : StructMember Nat) (parsed : Parsed Nat) :
    Extends (parseArray first one catalog buffer member parsed)
      (parseArray second other catalog buffer member parsed) := by
  -- Both make the same reads, down to where a struct or a member is parsed.
  have entries : ∀ elemTypeDef elementType useSecondary count elementBaseOffset,
      Extends (parseEntries one elemTypeDef elementType useSecondary count elementBaseOffset)
        (parseEntries other elemTypeDef elementType useSecondary count elementBaseOffset) := by
    intro elemTypeDef elementType useSecondary count elementBaseOffset
    refine Extends.bind (Extends.rounds (fun index dataOffset => ?_) count 0 elementBaseOffset)
      fun _ => Extends.refl _
    refine Extends.then fun _ => Extends.then fun _ => ?_
    exact (members _ _).bind fun _ => Extends.refl _
  refine Extends.then fun _ => Extends.then fun _ => Extends.then fun _ => Extends.then fun _ => ?_
  refine Extends.then fun _ => ?_
  split
  · refine Extends.then fun _ => Extends.then fun _ => Extends.then fun _ => Extends.then fun _ => ?_
    cases catalog.getStruct member.elementType with
    | some structDef =>
      refine Extends.then fun _ => ?_
      split
      · exact (parseElements_extends structs structDef _ _ _).bind fun _ => Extends.refl _
      · exact (parsePrimaryElements_extends structs structDef _ _ _).bind fun _ => Extends.refl _
    | none =>
      refine Extends.then fun _ => ?_
      cases catalog.getType member.elementType with
      | none => exact Extends.refl _
      | some elemTypeDef => exact (entries elemTypeDef _ _ _ _).bind fun _ => Extends.refl _
  · exact Extends.refl _

end Deeper

theorem parseMembers_extends {first second : StructMember Nat → Parsed Nat → Parse Nat Unit}
    (members : ∀ member parsed, Extends (first member parsed) (second member parsed))
    (structStartOffset base : Nat) (rest : List (StructMember Nat)) :
    Extends (parseMembers first structStartOffset base rest) (parseMembers second structStartOffset base rest) := by
  induction rest with
  | nil => exact Extends.refl _
  | cons member rest ih =>
    refine Extends.then fun _ => ?_
    exact (members member _).bind fun _ => ih

/-- Where calls may be nested deeper, nothing else happens than before, unless that was not deep enough. -/
theorem parse_extends (catalog : AssetCatalog Nat) (buffer : AssetBuffer Nat) (depth : Nat) :
    (∀ name base, Extends (parseStruct catalog buffer depth name base)
        (parseStruct catalog buffer (depth + 1) name base)) ∧
      ∀ member parsed, Extends (parseMember catalog buffer depth member parsed)
        (parseMember catalog buffer (depth + 1) member parsed) := by
  -- The induction follows the depth: nothing that ends runs out of it any later.
  induction depth with
  | zero =>
    constructor
    · intro name base
      rw [parseStruct]
      exact Extends.of_overflow _
    · intro member parsed
      rw [parseMember]
      exact Extends.of_overflow _
  | succ depth ih =>
    obtain ⟨structs, members⟩ := ih
    constructor
    · intro name base
      rw [parseStruct, parseStruct]
      refine Extends.then fun _ => (Extends.attempt ?_).bind fun _ => Extends.refl _
      cases catalog.getStruct name with
      | none => exact Extends.refl _
      | some structDef =>
        refine Extends.then fun _ => Extends.then fun _ => ?_
        exact (parseMembers_extends members _ _ _).bind fun _ => Extends.refl _
    · intro member parsed
      rw [parseMember, parseMember]
      cases catalog.getType member.typeName with
      | none => exact Extends.refl _
      | some typeDef =>
        simp only
        split
        · exact parseArray_extends structs members catalog buffer member parsed
        · cases typeDef.type with
          | nullable => exact parseNullable_extends structs catalog buffer typeDef member parsed
          | struct => exact parseInline_extends structs typeDef member parsed
          | _ => exact Extends.refl _

theorem parseRoots_extends (catalog : AssetCatalog Nat) (buffer : AssetBuffer Nat) (depth : Nat)
    (structTypes : List String) :
    Extends (parseRoots catalog buffer depth structTypes) (parseRoots catalog buffer (depth + 1) structTypes) := by
  induction structTypes with
  | nil => exact Extends.refl _
  | cons structType rest ih => exact ((parse_extends catalog buffer depth).1 structType _).bind fun _ => ih

/-- From some depth on, the root structures come to the same end. -/
theorem parseRoots_terminates {catalog : AssetCatalog Nat} (wellFounded : catalog.WellFounded)
    (buffer : AssetBuffer Nat) (structTypes : List String) (secondaryOffsetStart : Nat) :
    ∃ result enough, result.ending = .done () ∧ Inside buffer.size result.log ∧ ∀ depth, enough ≤ depth →
      parseRoots catalog buffer depth structTypes (initial secondaryOffsetStart) = result := by
  obtain ⟨rank, bounded, down⟩ := Acyclic.exists_rank wellFounded.finite
    (fun outer inner contains => by
      obtain ⟨_, _, _, _, _, _, _, _, _, known⟩ := contains
      exact known) wellFounded.acyclic
  generalize {name | catalog.getStruct name ≠ none}.ncard = ranks at bounded
  have stays : Stays buffer.size none (initial secondaryOffsetStart) := ⟨rfl, fun _ => ⟨rfl, rfl⟩, nofun⟩
  have ends : ∀ depth, 2 * height buffer.size ranks none ranks + 3 ≤ depth →
      (parseRoots catalog buffer depth structTypes (initial secondaryOffsetStart)).ending = .done () ∧
        Inside buffer.size (parseRoots catalog buffer depth structTypes (initial secondaryOffsetStart)).log := by
    intro depth deep
    have structs := structs_end buffer wellFounded bounded down depth
    obtain ⟨_, returns, inside, -⟩ :=
      (parseRoots_ends buffer structs bounded deep structTypes stays).returns fun _ _ => And.right
    exact ⟨returns, inside⟩
  refine ⟨_, 2 * height buffer.size ranks none ranks + 3, (ends _ le_rfl).1, (ends _ le_rfl).2, fun depth deep => ?_⟩
  -- A depth that is enough is not reached, so one more changes nothing.
  induction depth, deep using Nat.le_induction with
  | base => rfl
  | succ depth deep ih =>
    rcases parseRoots_extends catalog buffer depth structTypes (initial secondaryOffsetStart) with deeper | same
    · exact absurd (deeper.symm.trans (ends depth deep).1) (by simp)
    · exact same.trans ih

/--
The parser comes to an end on every asset, and reads no byte outside of it.

The offsets are exact. Structures may hold themselves, but only through nullable members and arrays.
-/
theorem parse_ends (catalog : AssetCatalog Nat) (wellFounded : catalog.WellFounded)
    (buffer : AssetBuffer Nat) (fileType : FileTypeInfo Nat) :
    ∃ result enough, result.ending = .done () ∧ Inside buffer.size result.log ∧
      ∀ depth, enough ≤ depth → parse catalog buffer depth fileType = result := by
  unfold parse
  cases catalog.getVersionedFileTypeInfo fileType with
  | none => exact parseRoots_terminates wellFounded buffer fileType.structTypes fileType.secondaryOffsetStart
  | some info => exact parseRoots_terminates wellFounded buffer info.structTypes info.secondaryOffsetStart

/-- A node that may hold another node, and a list of nodes. -/
def nodeCatalog : AssetCatalog Nat where
  types name :=
    match name with
    | "array" => some ⟨.array, 4, ""⟩
    | "int" => some ⟨.int, 4, ""⟩
    | "nullable:Node" => some ⟨.nullable, 4, "Node"⟩
    | _ => none
  structs name :=
    match name with
    | "Node" => some ⟨16, [.plain "int" 0 false, .plain "nullable:Node" 4 false, .array "Node" 8 0]⟩
    | _ => none
  currentGameVersion := "5.3.0.103"

theorem nodeCatalog_getStruct {name : String} {structDef : StructDefinition Nat}
    (known : nodeCatalog.getStruct name = some structDef) :
    name = "Node" ∧ structDef =
      ⟨16, [.plain "int" 0 false, .plain "nullable:Node" 4 false, .array "Node" 8 0]⟩ := by
  simp only [AssetCatalog.getStruct, nodeCatalog] at known
  split at known
  · exact ⟨rfl, (Option.some.inj known).symm⟩
  · exact absurd known (by simp)

theorem nodeCatalog_wellFounded : nodeCatalog.WellFounded := by
  -- No node is inside of another one.
  have apart : ∀ outer inner, ¬ nodeCatalog.Contains outer inner := by
    rintro outer inner ⟨structDef, known, member, inside, not_array, typeDef, typed, struct, -⟩
    obtain ⟨-, rfl⟩ := nodeCatalog_getStruct known
    simp only [List.mem_cons, List.not_mem_nil, or_false] at inside
    rcases inside with rfl | rfl | rfl
    · cases Option.some.inj typed
      exact absurd struct (by decide)
    · cases Option.some.inj typed
      exact absurd struct (by decide)
    · exact not_array rfl
  constructor
  case finite =>
    refine (Set.finite_singleton "Node").subset fun name known => ?_
    obtain ⟨structDef, found⟩ := Option.ne_none_iff_exists'.mp known
    exact (nodeCatalog_getStruct found).1
  case acyclic =>
    intro name cycle
    obtain ⟨next, step, -⟩ := Relation.TransGen.head'_iff.mp cycle
    exact apart name next step
  case nullable =>
    intro name typeDef targetStruct _ _ known
    obtain ⟨-, rfl⟩ := nodeCatalog_getStruct known
    decide
  case element =>
    intro name structDef known member inside array
    obtain ⟨-, rfl⟩ := nodeCatalog_getStruct known
    simp only [List.mem_cons, List.not_mem_nil, or_false] at inside
    rcases inside with rfl | rfl | rfl
    · exact absurd array (by decide)
    · exact absurd array (by decide)
    · exact .inl ⟨_, rfl, by decide⟩

/-- Nodes come to an end, although they may hold nodes. -/
theorem parse_ends_nodes : ∃ result enough, result.ending = .done () ∧ Inside 64 result.log ∧
    ∀ depth, enough ≤ depth → parse nodeCatalog ⟨fun _ => 1, 64⟩ depth ⟨["Node"], 16, []⟩ = result :=
  parse_ends nodeCatalog nodeCatalog_wellFounded ⟨fun _ => 1, 64⟩ ⟨["Node"], 16, []⟩

end Parser

end Recap.Game
