import Recap.Game.AssetAddressing

/-! When parsing a structure leaves the parser's bookkeeping as it was. -/

namespace Recap.Game

open Logged

section Isolation

variable {Offset : Type}

namespace Parser

/-- The bookkeeping that one structure shares with those around it is the same. -/
structure SameBookkeeping (before after : Parser Offset) : Prop where
  elements : after.processingArrayElement = before.processingArrayElement
  nullable : after.isInsideNullable = before.isInsideNullable
  current : after.currentStructBaseOffset = before.currentStructBaseOffset
  height : after.structBaseOffsetStack.length = before.structBaseOffsetStack.length
  indentation : after.indentLevel = before.indentLevel

end Parser

namespace Visit

/-- A structure that was parsed, or broken off, has left the bookkeeping as it was. -/
def Isolated : Visit Offset → Prop
  | .left before after => Parser.SameBookkeeping before after
  | _ => True

/--
Nothing is done here that leaves the bookkeeping changed.

Nothing throws, no array with a value is met inside an array element or nullable structure, where
it would leave the array elements, and no nullable member with a value inside of another one.
-/
def Harmless : Visit Offset → Prop
  | .refused _ => False
  | .filled before => before.processingArrayElement = false
  | .present before => before.isInsideNullable = false
  | _ => True

end Visit

namespace Parser

/-! ### What parts of a parse leave behind -/

/-- Even where the bookkeeping is changed, it is changed in one direction only, in the same part. -/
structure Drifted (before after : Parser Offset) : Prop where
  indentation : before.indentLevel ≤ after.indentLevel
  elements : after.processingArrayElement = true → before.processingArrayElement = true
  nullable : after.isInsideNullable = true → before.isInsideNullable = true
  sec : after.secOffsetStruct = before.secOffsetStruct

/-- All that tells where structures start is the same, and so is the indentation. -/
structure Restored (before after : Parser Offset) : Prop where
  elements : after.processingArrayElement = before.processingArrayElement
  nullable : after.isInsideNullable = before.isInsideNullable
  sec : after.secOffsetStruct = before.secOffsetStruct
  current : after.currentStructBaseOffset = before.currentStructBaseOffset
  stack : after.structBaseOffsetStack = before.structBaseOffsetStack
  indentation : after.indentLevel = before.indentLevel

/-- The bookkeeping is changed in a way that nothing later in the same structure makes good. -/
def Spoiled (before after : Parser Offset) : Prop :=
  before.indentLevel < after.indentLevel ∨
    before.processingArrayElement = true ∧ after.processingArrayElement = false ∨
    before.isInsideNullable = true ∧ after.isInsideNullable = false

/-- What a part of a structure comes to that returns. -/
structure Part (before : Parser Offset) (log : List (Visit Offset)) (after : Parser Offset) : Prop where
  drifted : Drifted before after
  restored : (∀ visit ∈ log, visit.Harmless) → Restored before after
  isolated : (∀ visit ∈ log, visit.Harmless) → ∀ visit ∈ log, visit.Isolated
  spoiled : ¬ (∀ visit ∈ log, visit.Harmless) → (∀ visit ∈ log, visit.Isolated) → Spoiled before after

/-- What a part of a structure comes to that throws. -/
structure Broken (before : Parser Offset) (log : List (Visit Offset)) (after : Parser Offset) : Prop where
  drifted : Drifted before after
  harmful : ¬ ∀ visit ∈ log, visit.Harmless

/-- What a whole structure comes to, which never throws. -/
structure Whole (before : Parser Offset) (log : List (Visit Offset)) (after : Parser Offset) : Prop where
  drifted : Drifted before after
  restored : (∀ visit ∈ log, visit.Harmless) → Restored before after
  isolated : (∀ visit ∈ log, visit.Isolated) ↔ ∀ visit ∈ log, visit.Harmless
  left : .left before after ∈ log

/-- A part of a structure that comes to an end, or throws. -/
abbrev Tracks {α : Type} (before : Parser Offset) (result : Logged.Result (Parser Offset) (Visit Offset) α) :
    Prop :=
  Meets (fun _ => Part before) (Broken before) True result

theorem Drifted.refl (parser : Parser Offset) : Drifted parser parser :=
  ⟨le_rfl, id, id, rfl⟩

theorem Drifted.trans {first second third : Parser Offset} (before : Drifted first second)
    (after : Drifted second third) : Drifted first third :=
  ⟨before.indentation.trans after.indentation, fun elements => before.elements (after.elements elements),
    fun nullable => before.nullable (after.nullable nullable), after.sec.trans before.sec⟩

theorem Restored.refl (parser : Parser Offset) : Restored parser parser :=
  ⟨rfl, rfl, rfl, rfl, rfl, rfl⟩

theorem Restored.trans {first second third : Parser Offset} (before : Restored first second)
    (after : Restored second third) : Restored first third :=
  ⟨after.elements.trans before.elements, after.nullable.trans before.nullable,
    after.sec.trans before.sec, after.current.trans before.current, after.stack.trans before.stack,
    after.indentation.trans before.indentation⟩

theorem Restored.drifted {before after : Parser Offset} (restored : Restored before after) :
    Drifted before after :=
  ⟨le_of_eq restored.indentation.symm, fun elements => restored.elements ▸ elements,
    fun nullable => restored.nullable ▸ nullable, restored.sec⟩

theorem Restored.sameBookkeeping {before after : Parser Offset} (restored : Restored before after) :
    SameBookkeeping before after :=
  ⟨restored.elements, restored.nullable, restored.current, by rw [restored.stack], restored.indentation⟩

/-- Moving the two offsets changes nothing of the bookkeeping. -/
theorem Restored.setPrimaryOffset (parser : Parser Offset) (offset : Offset) :
    Restored parser (parser.setPrimaryOffset offset) :=
  ⟨rfl, rfl, rfl, rfl, rfl, rfl⟩

theorem Restored.setSecondaryOffset (parser : Parser Offset) (offset : Offset) :
    Restored parser (parser.setSecondaryOffset offset) :=
  ⟨rfl, rfl, rfl, rfl, rfl, rfl⟩

/-- What is spoiled stays so, and what was not is not spoiled by what drifted before. -/
theorem Spoiled.widen {first second third last : Parser Offset} (before : Drifted first second)
    (spoiled : Spoiled second third) (after : Drifted third last) : Spoiled first last := by
  rcases spoiled with deeper | ⟨inside, outside⟩ | ⟨inside, outside⟩
  · exact .inl (lt_of_le_of_lt before.indentation (lt_of_lt_of_le deeper after.indentation))
  · refine .inr (.inl ⟨before.elements inside, ?_⟩)
    exact Bool.eq_false_iff.mpr fun still => by simp [after.elements still] at outside
  · refine .inr (.inr ⟨before.nullable inside, ?_⟩)
    exact Bool.eq_false_iff.mpr fun still => by simp [after.nullable still] at outside

/-- What is spoiled is not the same. -/
theorem Spoiled.not_same {before after : Parser Offset} (spoiled : Spoiled before after) :
    ¬ SameBookkeeping before after := by
  intro same
  rcases spoiled with deeper | ⟨inside, outside⟩ | ⟨inside, outside⟩
  · exact absurd same.indentation (ne_of_gt deeper)
  · simp [same.elements, inside] at outside
  · simp [same.nullable, inside] at outside

/-- A part that logs nothing but what is of no matter. -/
theorem Part.of_restored {before after : Parser Offset} {log : List (Visit Offset)}
    (restored : Restored before after) (harmless : ∀ visit ∈ log, visit.Harmless)
    (isolated : ∀ visit ∈ log, visit.Isolated) : Part before log after :=
  ⟨restored.drifted, fun _ => restored, fun _ => isolated, fun harmful => absurd harmless harmful⟩

/-- Two parts one after the other. -/
theorem Part.trans {first second third : Parser Offset} {log more : List (Visit Offset)}
    (before : Part first log second) (after : Part second more third) : Part first (log ++ more) third where
  drifted := before.drifted.trans after.drifted
  restored := by
    intro harmless
    obtain ⟨front, back⟩ := List.forall_mem_append.mp harmless
    exact (before.restored front).trans (after.restored back)
  isolated := by
    intro harmless
    obtain ⟨front, back⟩ := List.forall_mem_append.mp harmless
    exact List.forall_mem_append.mpr ⟨before.isolated front, after.isolated back⟩
  spoiled := by
    intro harmful isolated
    obtain ⟨front, back⟩ := List.forall_mem_append.mp isolated
    -- One of the two parts has done the harm.
    by_cases innocent : ∀ visit ∈ log, visit.Harmless
    · have later : ¬ ∀ visit ∈ more, visit.Harmless := fun harmless =>
        harmful (List.forall_mem_append.mpr ⟨innocent, harmless⟩)
      exact (after.spoiled later back).widen before.drifted (Drifted.refl third)
    · exact (before.spoiled innocent front).widen (Drifted.refl first) after.drifted

/-- A part that comes to an end, and then one that throws. -/
theorem Part.broken {first second third : Parser Offset} {log more : List (Visit Offset)}
    (before : Part first log second) (after : Broken second more third) :
    Broken first (log ++ more) third :=
  ⟨before.drifted.trans after.drifted, fun harmless =>
    after.harmful (List.forall_mem_append.mp harmless).2⟩

theorem Broken.cons {before after : Parser Offset} {log : List (Visit Offset)}
    (broken : Broken before log after) (visit : Visit Offset) : Broken before (visit :: log) after :=
  ⟨broken.drifted, fun harmless => broken.harmful (List.forall_mem_cons.mp harmless).2⟩

/-- A part goes on wherever another one has come to. -/
theorem Part.continue {α : Type} {before middle : Parser Offset} {log : List (Visit Offset)}
    (part : Part before log middle) {result : Logged.Result (Parser Offset) (Visit Offset) α}
    (tracks : Tracks middle result) :
    Meets (fun _ more => Part before (log ++ more)) (fun more => Broken before (log ++ more)) True result :=
  tracks.weaken (fun _ _ _ => part.trans) fun _ _ => part.broken

/-- What is logged of a structure ends with the note that it was left. -/
theorem forall_mem_left {good : Visit Offset → Prop} {parser after : Parser Offset}
    {log : List (Visit Offset)} :
    (∀ visit ∈ log ++ [.left parser after], good visit) ↔
      (∀ visit ∈ log, good visit) ∧ good (.left parser after) := by
  rw [List.forall_mem_append, List.forall_mem_singleton]

/-- A structure that the catalog does not know. -/
theorem Whole.unknown (parser : Parser Offset) : Whole parser [.left parser parser] parser := by
  refine ⟨Drifted.refl parser, fun _ => Restored.refl parser, ?_, List.mem_singleton_self _⟩
  rw [List.forall_mem_singleton, List.forall_mem_singleton]
  exact iff_of_true (Restored.refl parser).sameBookkeeping trivial

/-- The parser without the flag for array elements. -/
def leaveElements (parser : Parser Offset) : Parser Offset :=
  { parser with processingArrayElement := false }

/-- An element that has been parsed leaves all but the flag for array elements as it was. -/
theorem Whole.element {before after : Parser Offset} {log : List (Visit Offset)}
    (whole : Whole before log after) (first : Parser Offset)
    (same : Restored first.leaveElements { before with
      secOffsetStruct := first.secOffsetStruct, processingArrayElement := false }) :
    Part first.leaveElements log { after with
      secOffsetStruct := first.secOffsetStruct, processingArrayElement := false } := by
  -- An element leaves the flags of the array as they were before it.
  refine ⟨⟨?_, nofun, fun nullable => ?_, rfl⟩, fun harmless => ?_, whole.isolated.mpr,
    fun harmful isolated => absurd (whole.isolated.mp isolated) harmful⟩
  · exact same.indentation.symm.le.trans whole.drifted.indentation
  · exact same.nullable ▸ whole.drifted.nullable nullable
  · have restored := whole.restored harmless
    exact ⟨rfl, restored.nullable.trans same.nullable, rfl, restored.current.trans same.current,
      restored.stack.trans same.stack, restored.indentation.trans same.indentation⟩

theorem leaveElements_eq {parser : Parser Offset} (outside : parser.processingArrayElement = false) :
    parser.leaveElements = parser := by
  cases parser
  simp only [leaveElements, Parser.mk.injEq, true_and, and_true]
  exact outside.symm

/-- What may come of the elements of an array, but for the flag for array elements. -/
structure Elements (before : Parser Offset) (log : List (Visit Offset)) (after : Parser Offset) : Prop where
  drifted : Drifted before.leaveElements after.leaveElements
  part : before.processingArrayElement = false → Part before.leaveElements log after.leaveElements

theorem Part.elements {before after : Parser Offset} {log : List (Visit Offset)}
    (part : Part before log after) : Elements before log after where
  -- Outside of arrays, leaving the elements changes nothing.
  drifted := ⟨part.drifted.indentation, nofun, part.drifted.nullable, part.drifted.sec⟩
  part := by
    intro outside
    have still : after.processingArrayElement = false :=
      Bool.eq_false_iff.mpr fun inside => by simp [part.drifted.elements inside] at outside
    rw [leaveElements_eq outside, leaveElements_eq still]
    exact part

/-- Having parsed an array that has a value, the parser has left the array elements. -/
theorem Elements.leaveArray {before middle last : Parser Offset} {log : List (Visit Offset)}
    (entered : Restored before middle) (elements : Elements (middle.indent 1) log last) :
    Part middle (.filled before :: log) ((last.leaveElements).indent (-1)) := by
  have deeper : middle.indentLevel + 1 ≤ last.indentLevel := elements.drifted.indentation
  refine ⟨⟨?_, nofun, elements.drifted.nullable, elements.drifted.sec⟩, fun harmless => ?_, fun harmless => ?_,
    fun harmful isolated => ?_⟩
  · show middle.indentLevel ≤ last.indentLevel + -1
    omega
  · obtain ⟨outside, inner⟩ := List.forall_mem_cons.mp harmless
    have flag : middle.processingArrayElement = false := entered.elements.trans outside
    have restored := (elements.part flag).restored inner
    have same : last.indentLevel = middle.indentLevel + 1 := restored.indentation
    refine ⟨flag.symm, restored.nullable, restored.sec, restored.current, restored.stack, ?_⟩
    show last.indentLevel + -1 = middle.indentLevel
    omega
  · obtain ⟨outside, inner⟩ := List.forall_mem_cons.mp harmless
    have flag : middle.processingArrayElement = false := entered.elements.trans outside
    exact List.forall_mem_cons.mpr ⟨trivial, (elements.part flag).isolated inner⟩
  · -- An array inside an array element does the harm itself.
    by_cases flag : middle.processingArrayElement = true
    · exact .inr (.inl ⟨flag, rfl⟩)
    · have outside := Bool.eq_false_iff.mpr flag
      have inner : ¬ ∀ visit ∈ log, visit.Harmless := fun harmless =>
        harmful (List.forall_mem_cons.mpr ⟨entered.elements.symm.trans outside, harmless⟩)
      have spoiled := (elements.part outside).spoiled inner (List.forall_mem_cons.mp isolated).2
      rcases spoiled with more | ⟨impossible, -⟩ | ⟨inside, left⟩
      · have more' : middle.indentLevel + 1 < last.indentLevel := more
        refine .inl ?_
        show middle.indentLevel < last.indentLevel + -1
        omega
      · exact absurd impossible Bool.false_ne_true
      · exact .inr (.inr ⟨inside, left⟩)

/-! ### Reading -/

/-- What a reading part has logged and left where it returns. -/
structure Calm (before : Parser Offset) (log : List (Visit Offset)) (after : Parser Offset) : Prop where
  restored : Restored before after
  harmless : ∀ visit ∈ log, visit.Harmless
  isolated : ∀ visit ∈ log, visit.Isolated

theorem Calm.part {before after : Parser Offset} {log : List (Visit Offset)} (calm : Calm before log after) :
    Part before log after :=
  Part.of_restored calm.restored calm.harmless calm.isolated

theorem Calm.silent {before after : Parser Offset} (restored : Restored before after) :
    Calm before [] after :=
  ⟨restored, by simp, by simp⟩

theorem Calm.indent {before after : Parser Offset} {log : List (Visit Offset)} (calm : Calm before log after)
    (levels : Int) : Calm (before.indent levels) log (after.indent levels) := by
  have restored := calm.restored
  refine ⟨⟨restored.elements, restored.nullable, restored.sec, restored.current, restored.stack, ?_⟩,
    calm.harmless, calm.isolated⟩
  exact congrArg (· + levels) restored.indentation

/-- What is restored later does not log anything. -/
theorem Calm.before {first second third : Parser Offset} {log : List (Visit Offset)}
    (calm : Calm first log second) (restored : Restored second third) : Calm first log third :=
  ⟨calm.restored.trans restored, calm.harmless, calm.isolated⟩

theorem Calm.trans {first second third : Parser Offset} {log more : List (Visit Offset)}
    (before : Calm first log second) (after : Calm second more third) : Calm first (log ++ more) third :=
  ⟨before.restored.trans after.restored, List.forall_mem_append.mpr ⟨before.harmless, after.harmless⟩,
    List.forall_mem_append.mpr ⟨before.isolated, after.isolated⟩⟩

/-- The elements of an array come behind what is read of it. -/
theorem Calm.elements {before middle last : Parser Offset} {log more : List (Visit Offset)}
    (calm : Calm before log middle) (elements : Elements middle more last) :
    Elements before (log ++ more) last where
  -- What came before the elements has changed nothing that they depend on.
  drifted := by
    have start : Drifted before.leaveElements middle.leaveElements :=
      ⟨calm.restored.drifted.indentation, id, calm.restored.drifted.nullable, calm.restored.sec⟩
    exact start.trans elements.drifted
  part := by
    intro outside
    have still : middle.processingArrayElement = false := calm.restored.elements.trans outside
    have front := calm.part
    rw [← leaveElements_eq outside, ← leaveElements_eq still] at front
    exact front.trans (elements.part still)

/-- A part that changes no bookkeeping, and does no harm but where it throws. -/
def Reading {α : Type} (part : Parse Offset α) : Prop :=
  ∀ parser, Meets (fun _ => Calm parser) (Broken parser) True (part parser)

theorem Reading.tracks {α : Type} {part : Parse Offset α} (reading : Reading part)
    (parser : Parser Offset) : Tracks parser (part parser) :=
  (reading parser).weaken (fun _ _ _ => Calm.part) fun _ _ => id

/-- What comes behind a reading part is tracked from where that has come to. -/
theorem Reading.then {α β : Type} {first : Parse Offset α} {next : α → Parse Offset β}
    {parser : Parser Offset} (reading : Reading first)
    (after : ∀ value middle, Restored parser middle → Tracks middle (next value middle)) :
    Tracks parser ((first >>= next) parser) :=
  Meets.bind (reading parser) fun value _ middle calm =>
    calm.part.continue (after value middle calm.restored)

theorem Reading.pure {α : Type} (value : α) : Reading (pure value : Parse Offset α) :=
  fun parser => Meets.silent (Calm.silent (Restored.refl parser))

theorem Reading.bind {α β : Type} {first : Parse Offset α} {next : α → Parse Offset β}
    (before : Reading first) (after : ∀ value, Reading (next value)) : Reading (first >>= next) := by
  intro parser
  refine Meets.bind (before parser) fun value log middle calm => ?_
  exact (after value middle).weaken (fun _ _ _ => calm.trans) fun _ _ => calm.part.broken

/-- What comes behind a change of the offsets is tracked from there. -/
theorem Restored.then {α : Type} {change : Parser Offset → Parser Offset}
    {next : Unit → Parse Offset α} {parser : Parser Offset} (restored : Restored parser (change parser))
    (after : Tracks (change parser) (next () (change parser))) :
    Tracks parser ((Logged.modify change >>= next) parser) := by
  rw [modify_bind]
  exact (Calm.silent restored).part.continue after

theorem Reading.modify {change : Parser Offset → Parser Offset}
    (restored : ∀ parser, Restored parser (change parser)) : Reading (Logged.modify change) :=
  fun parser => Meets.silent (Calm.silent (restored parser))

/-- An entry of the log that is of no matter to the bookkeeping. -/
theorem Reading.log {visit : Visit Offset} (harmless : visit.Harmless) (isolated : visit.Isolated) :
    Reading (Logged.log visit) :=
  fun parser => Meets.entry ⟨Restored.refl parser, by simpa using harmless, by simpa using isolated⟩

theorem Reading.note {α : Type} {visit : Visit Offset} {next : Unit → Parse Offset α}
    (harmless : visit.Harmless) (isolated : visit.Isolated) (after : Reading (next ())) :
    Reading (Logged.log visit >>= next) :=
  (Reading.log harmless isolated).bind fun _ => after

theorem Reading.get {α : Type} {next : Parser Offset → Parse Offset α}
    (after : ∀ parser, Reading (next parser)) : Reading (Logged.get >>= next) :=
  fun parser => after parser parser

theorem reading_refuse {α : Type} (offset : Offset) : Reading (AssetBuffer.refuse offset : Parse Offset α) := by
  intro parser
  refine Meets.note (Meets.throw ⟨Drifted.refl parser, fun harmless => ?_⟩)
  exact harmless (.refused offset) (by simp)

/-- What is turned to is of no matter to the bookkeeping. -/
theorem reading_visitMember (parsed : Parsed Offset) (member : StructMember Offset)
    (before : Parser Offset) (address : Offset) : Reading (visitMember parsed member before address) := by
  -- Visiting a member logs something at most.
  cases parsed with
  | entry place => exact Reading.pure _
  | member base =>
    unfold visitMember
    simp only
    split
    · exact Reading.pure _
    · exact Reading.log trivial trivial

theorem reading_visitCount (parsed : Parsed Offset) (member : StructMember Offset)
    (before : Parser Offset) (address : Offset) : Reading (visitCount parsed member before address) := by
  -- Visiting a count logs something at most.
  cases parsed with
  | entry place => exact Reading.pure _
  | member base =>
    unfold visitCount
    simp only
    split
    · exact Reading.pure _
    · exact Reading.log trivial trivial

theorem parseMembers_tracks {parseMember : StructMember Offset → Parsed Offset → Parse Offset Unit}
    (members : ∀ member parsed parser, Tracks parser (parseMember member parsed parser))
    (structStartOffset base : Offset) (rest : List (StructMember Offset)) (parser : Parser Offset) :
    Tracks parser (parseMembers parseMember structStartOffset base rest parser) := by
  -- The induction follows the members, each of which starts where the last one left off.
  induction rest generalizing parser with
  | nil => exact Meets.silent (Calm.silent (Restored.refl parser)).part
  | cons member rest ih =>
    unfold parseMembers
    refine Reading.then (Reading.modify fun current => ?_) fun _ middle _ => ?_
    · split
      · exact Restored.setPrimaryOffset current _
      · exact Restored.refl current
    · exact Meets.bind (members _ _ _) fun _ _ last part => part.continue (ih last)

variable [Add Offset]

theorem reading_visitStruct (parsed : Parsed Offset) (member : StructMember Offset)
    (before : Parser Offset) (address : Offset) : Reading (visitStruct parsed member before address) := by
  -- Visiting a structure logs something at most.
  unfold visitStruct
  cases parsed with
  | entry place => exact Reading.note trivial trivial (Reading.pure _)
  | member base =>
    simp only
    split
    · exact Reading.pure _
    · exact Reading.note trivial trivial (Reading.pure _)

variable [OffsetNumber Offset]

theorem reading_readAt (buffer : AssetBuffer Offset) (offset : Offset) (width : Nat) :
    Reading (buffer.readAt offset width) := by
  unfold AssetBuffer.readAt
  split
  · exact Reading.note trivial trivial (Reading.pure _)
  · exact reading_refuse offset

theorem reading_readPrimary (buffer : AssetBuffer Offset) (width : Nat) :
    Reading (buffer.readPrimary width) := by
  refine Reading.get fun parser => (reading_readAt buffer _ width).bind fun value => ?_
  exact (Reading.modify fun current => Restored.setPrimaryOffset current _).bind fun _ => Reading.pure _

theorem reading_readString (buffer : AssetBuffer Offset) (useSecondary : Bool) :
    Reading (buffer.readString useSecondary) := by
  -- A string only moves one of the two offsets.
  refine Reading.get fun parser => ?_
  simp only
  generalize (if useSecondary then parser.secondaryOffset else parser.primaryOffset) = offset
  split
  · exact reading_refuse offset
  · refine Reading.note trivial trivial (Reading.modify fun current => ?_)
    split
    · exact Restored.setSecondaryOffset current _
    · exact Restored.setPrimaryOffset current _

theorem reading_readValue (buffer : AssetBuffer Offset) (type : DataType) :
    Reading (buffer.readValue type) := by
  have rules : ReadRules buffer Reading :=
    ⟨Reading.pure, Reading.bind, reading_readPrimary buffer, reading_readString buffer⟩
  exact rules.readValue type

theorem reading_readCount (buffer : AssetBuffer Offset) (member : StructMember Offset)
    (parsed : Parsed Offset) (before : Parser Offset) :
    Reading (readCount buffer member parsed before) := by
  refine Reading.get fun parser => ?_
  split
  · exact (reading_visitCount parsed member before _).bind fun _ => reading_readAt buffer _ 4
  · exact reading_readPrimary buffer 4

/-! ### The cases of a member -/

theorem parseValue_tracks (buffer : AssetBuffer Offset) (typeDef : TypeDefinition Offset)
    (member : StructMember Offset) (parsed : Parsed Offset) (parser : Parser Offset) :
    Tracks parser (parseValue buffer typeDef member parsed parser) := by
  refine Reading.tracks (Reading.get fun before => ?_) parser
  refine (Reading.modify fun current => Restored.setPrimaryOffset current _).bind fun _ => ?_
  exact (reading_visitMember parsed member before _).bind fun _ => reading_readValue buffer typeDef.type

section Structs

variable {parseStruct : String → Offset → Parse Offset Unit}
  (structs : ∀ name base parser,
    Meets (fun _ => Whole parser) (fun _ _ => False) True (parseStruct name base parser))

include structs

omit [OffsetNumber Offset] in
/-- An inline structure leaves everything as it was but for what it does itself. -/
theorem parseInline_tracks (typeDef : TypeDefinition Offset) (member : StructMember Offset)
    (parsed : Parsed Offset) (parser : Parser Offset) :
    Tracks parser (parseInline parseStruct typeDef member parsed parser) := by
  unfold parseInline
  rw [get_bind]
  refine (Restored.setPrimaryOffset parser _).then ?_
  refine (reading_visitStruct parsed member parser _).then fun base middle calm => ?_
  rw [modify_bind]
  refine Meets.bind ((structs _ _ _).weaken (fun _ _ _ => id) fun _ _ => False.elim) ?_
  intro _ log last whole
  refine Meets.silent ?_
  rw [List.append_nil]
  -- The base that was changed for the structure is put back.
  refine ⟨⟨whole.drifted.indentation, whole.drifted.elements, whole.drifted.nullable, whole.drifted.sec⟩, fun harmless => ?_,
    whole.isolated.mpr, fun harmful isolated => absurd (whole.isolated.mp isolated) harmful⟩
  have restored := whole.restored harmless
  exact ⟨restored.elements, restored.nullable, restored.sec, calm.current.symm, restored.stack,
    restored.indentation⟩

/-- A nullable structure leaves everything as it was unless it lies inside of another one. -/
theorem parseNullable_tracks (catalog : AssetCatalog Offset) (buffer : AssetBuffer Offset)
    (typeDef : TypeDefinition Offset) (member : StructMember Offset) (parsed : Parsed Offset)
    (parser : Parser Offset) :
    Tracks parser (parseNullable parseStruct catalog buffer typeDef member parsed parser) := by
  unfold parseNullable
  rw [get_bind]
  refine (Restored.setPrimaryOffset parser _).then ?_
  refine (reading_visitMember parsed member parser _).then fun _ visited _ => ?_
  refine (reading_readPrimary buffer 4).then fun hasValue middle _ => ?_
  have there : ∀ offset, Tracks middle
      ((Logged.modify fun parser => parser.setPrimaryOffset offset : Parse Offset Unit) middle) :=
    fun offset => Meets.silent (Calm.silent (Restored.setPrimaryOffset middle offset)).part
  split
  · cases catalog.getStruct typeDef.targetType with
    | none => exact Meets.silent (Calm.silent (Restored.refl middle)).part
    | some targetStruct =>
      simp only
      rw [get_bind]
      refine Meets.note ?_
      rw [modify_bind, modify_bind, modify_bind, modify_bind]
      refine Meets.bind ((structs _ _ _).weaken (fun _ _ _ => id) fun _ _ => False.elim) ?_
      intro _ log last whole
      rw [modify_bind]
      refine Meets.silent ?_
      rw [List.append_nil]
      -- Everything is put back but the flag for a nullable structure, which is cleared.
      refine ⟨⟨whole.drifted.indentation, id, nofun, rfl⟩, fun harmless => ?_, fun harmless => ?_, ?_⟩
      · obtain ⟨outside, inner⟩ := List.forall_mem_cons.mp harmless
        have restored := whole.restored inner
        exact ⟨rfl, outside.symm, rfl, rfl, restored.stack, restored.indentation⟩
      · have inner := (List.forall_mem_cons.mp harmless).2
        exact List.forall_mem_cons.mpr ⟨trivial, whole.isolated.mpr inner⟩
      · intro harmful isolated
        have inner := whole.isolated.mp (List.forall_mem_cons.mp isolated).2
        by_cases inside : middle.isInsideNullable = true
        · exact .inr (.inr ⟨inside, rfl⟩)
        · exact absurd (List.forall_mem_cons.mpr ⟨by simpa [Visit.Harmless] using inside, inner⟩) harmful
  · exact there _

variable [Mul Offset]

/-- The elements of an array of structures leave all but the flag for array elements as it was. -/
theorem parseElements_tracks (structDef : StructDefinition Offset) (elementType : String) (count : Nat)
    (arrayDataOffset : Offset) (parser : Parser Offset) :
    Meets (fun _ log after => Part parser.leaveElements log after.leaveElements) (fun _ _ => False) True
      (parseElements parseStruct structDef elementType count arrayDataOffset parser) := by
  -- The elements are parsed in rounds, each of which ends as if it had not been in the array.
  unfold parseElements
  have start : Part parser.leaveElements [] parser.leaveElements := (Calm.silent (Restored.refl _)).part
  refine Meets.bind (Meets.rounds_zero (fun _ _ log (last : Parser Offset) =>
    Part parser.leaveElements log last.leaveElements) count ?_ arrayDataOffset start) ?_
  · intro index dataOffset log current _ before
    rw [modify_bind, get_bind, modify_bind]
    refine Meets.bind ((structs _ _ _).weaken (fun _ _ _ => id) fun _ _ => False.elim) ?_
    intro _ inner last whole
    rw [modify_bind]
    refine Meets.silent ?_
    rw [List.append_nil]
    exact before.trans (whole.element current ⟨rfl, rfl, rfl, rfl, rfl, rfl⟩)
  · intro _ log last after
    exact Meets.silent (by simpa using after)

/-- The same where they lie in the primary part. -/
theorem parsePrimaryElements_tracks (structDef : StructDefinition Offset) (elementType : String)
    (count : Nat) (elementBaseOffset : Offset) (parser : Parser Offset) :
    Meets (fun _ log after => Part parser.leaveElements log after.leaveElements) (fun _ _ => False) True
      (parsePrimaryElements parseStruct structDef elementType count elementBaseOffset parser) := by
  -- The rounds are those of the secondary part, without its flag.
  unfold parsePrimaryElements
  have start : Part parser.leaveElements [] parser.leaveElements := (Calm.silent (Restored.refl _)).part
  refine Meets.bind (Meets.rounds_zero (fun _ _ log (last : Parser Offset) =>
    Part parser.leaveElements log last.leaveElements) count ?_ elementBaseOffset start) ?_
  · intro index dataOffset log current _ before
    rw [modify_bind, modify_bind]
    refine Meets.bind ((structs _ _ _).weaken (fun _ _ _ => id) fun _ _ => False.elim) ?_
    intro _ inner last whole
    refine Meets.silent ?_
    rw [List.append_nil]
    have element := whole.element current ⟨rfl, rfl, rfl, rfl, rfl, rfl⟩
    have sec : last.secOffsetStruct = current.secOffsetStruct := whole.drifted.sec
    rw [← sec] at element
    exact before.trans element
  · intro _ log last after
    exact Meets.silent (by simpa using after)

end Structs

variable [Mul Offset]

/-- The entries of an array leave what each of them leaves. -/
theorem parseEntries_tracks {parseMember : StructMember Offset → Parsed Offset → Parse Offset Unit}
    (members : ∀ member parsed parser, Tracks parser (parseMember member parsed parser))
    (elemTypeDef : TypeDefinition Offset) (elementType : String) (useSecondaryForElements : Bool)
    (count : Nat) (elementBaseOffset : Offset) (parser : Parser Offset) :
    Tracks parser (parseEntries parseMember elemTypeDef elementType useSecondaryForElements count
      elementBaseOffset parser) := by
  -- Before and after each entry, an offset is moved at most.
  unfold parseEntries
  have start : Part parser [] parser := (Calm.silent (Restored.refl _)).part
  have moved : ∀ (condition : Bool) (current : Parser Offset) (offset : Offset),
      Restored current (if condition then current.setPrimaryOffset offset else current) := by
    intro condition current offset
    split
    · exact Restored.setPrimaryOffset current offset
    · exact Restored.refl current
  refine Meets.bind (Meets.rounds_zero (fun _ _ log (last : Parser Offset) => Part parser log last) count ?_
    elementBaseOffset start) ?_
  · intro index dataOffset log current _ before
    refine before.continue (Reading.then (Reading.modify fun _ => moved _ _ _) fun _ middle _ => ?_)
    rw [get_bind]
    refine Meets.bind (members _ _ _) fun _ inner last part => part.continue ?_
    rw [modify_bind]
    refine Meets.silent (Calm.silent ?_).part
    split
    · exact Restored.refl last
    · exact Restored.setPrimaryOffset last _
  · intro _ log last after
    exact Meets.silent (by simpa using after)

theorem parseArray_tracks {parseStruct : String → Offset → Parse Offset Unit}
    {parseMember : StructMember Offset → Parsed Offset → Parse Offset Unit}
    (structs : ∀ name base parser,
      Meets (fun _ => Whole parser) (fun _ _ => False) True (parseStruct name base parser))
    (members : ∀ member parsed parser, Tracks parser (parseMember member parsed parser))
    (catalog : AssetCatalog Offset) (buffer : AssetBuffer Offset) (member : StructMember Offset)
    (parsed : Parsed Offset) (parser : Parser Offset) :
    Tracks parser (parseArray parseStruct parseMember catalog buffer member parsed parser) := by
  unfold parseArray
  rw [get_bind]
  have start := Restored.setPrimaryOffset parser (parser.arrayStartOffset member)
  refine start.then ?_
  refine (reading_visitMember parsed member parser _).then fun _ visited seen => ?_
  refine (reading_readPrimary buffer 4).then fun hasValue middle read => ?_
  have entered : Restored parser middle := start.trans (seen.trans read)
  rw [get_bind]
  split
  · refine Meets.note (Meets.bind ((reading_readCount buffer member parsed parser middle).weaken
      (fun _ _ _ => id) fun _ _ broken => broken.cons _) fun count log counted calm => ?_)
    rw [modify_bind, get_bind]
    -- Whatever the elements have come to, the parser leaves them.
    have left : ∀ {part : Parse Offset Unit} {first : Parser Offset}, Restored (counted.indent 1) first →
        Meets (fun _ => Elements first) (Broken first) True (part first) →
        Meets (fun _ more => Part middle (.filled parser :: (log ++ more)))
          (fun more => Broken middle (.filled parser :: (log ++ more))) True ((do
            part
            Logged.modify fun parser => { parser with processingArrayElement := false }
            Logged.modify (indent (-1)) : Parse Offset Unit) first) := by
      intro part first same meets
      have before : Calm (middle.indent 1) log first := (calm.indent 1).before same
      refine Meets.bind (meets.weaken (fun _ _ _ => id) fun _ _ broken => ?_) fun _ more last elements => ?_
      · have drifted : Drifted middle first := by
          refine ⟨?_, fun inside => before.restored.elements ▸ inside,
            fun inside => before.restored.nullable ▸ inside, before.restored.sec⟩
          have deeper : first.indentLevel = middle.indentLevel + 1 := before.restored.indentation
          omega
        refine Broken.cons ⟨drifted.trans broken.drifted, fun harmless => ?_⟩ _
        exact broken.harmful (List.forall_mem_append.mp harmless).2
      · rw [modify_bind]
        refine Meets.silent ?_
        rw [List.append_nil]
        exact (before.elements elements).leaveArray entered
    cases catalog.getStruct member.elementType with
    | some structDef =>
      simp only
      rw [modify_bind]
      split
      · refine left (Restored.setSecondaryOffset _ _) ?_
        exact (parseElements_tracks structs structDef member.elementType count _ _).weaken
          (fun _ _ _ part => ⟨part.drifted, fun _ => part⟩) fun _ _ => False.elim
      · refine left (Restored.setSecondaryOffset _ _) ?_
        exact (parsePrimaryElements_tracks structs structDef member.elementType count _ _).weaken
          (fun _ _ _ part => ⟨part.drifted, fun _ => part⟩) fun _ _ => False.elim
    | none =>
      simp only
      rw [modify_bind]
      generalize moved : (if (!(counted.indent 1).secOffsetStruct && !(counted.indent 1).processingArrayElement)
        then (counted.indent 1).setSecondaryOffset _ else counted.indent 1) = current
      have same : Restored (counted.indent 1) current := by
        rw [← moved]
        split
        · exact Restored.setSecondaryOffset _ _
        · exact Restored.refl _
      cases catalog.getType member.elementType with
      | none =>
        have nothing : Part current [] current := (Calm.silent (Restored.refl current)).part
        exact @left (pure ()) current same (Meets.silent nothing.elements)
      | some elemTypeDef =>
        refine left same ?_
        exact (parseEntries_tracks members elemTypeDef member.elementType _ count _ current).weaken
          (fun _ _ _ part => part.elements) fun _ _ => id
  · exact Meets.silent (Calm.silent (Restored.refl middle)).part

/-! ### Structures -/

omit [Mul Offset] in
/-- Starting a structure leaves the flags and the indentation alone. -/
theorem enterStruct_flags (structDef : StructDefinition Offset) (parser : Parser Offset) :
    (enterStruct structDef parser).isInsideNullable = parser.isInsideNullable ∧
      (enterStruct structDef parser).indentLevel = parser.indentLevel := by
  unfold Parser.enterStruct
  split
  · split
    · exact ⟨rfl, rfl⟩
    · exact ⟨rfl, rfl⟩
  · exact ⟨rfl, rfl⟩

omit [Add Offset] [Mul Offset] in
/-- Ending a structure leaves the flags and the indentation alone. -/
theorem leaveStruct_flags (previous : Offset) (parser : Parser Offset) :
    (leaveStruct previous parser).processingArrayElement = parser.processingArrayElement ∧
      (leaveStruct previous parser).isInsideNullable = parser.isInsideNullable ∧
      (leaveStruct previous parser).secOffsetStruct = parser.secOffsetStruct ∧
      (leaveStruct previous parser).indentLevel = parser.indentLevel := by
  unfold Parser.leaveStruct
  split
  · split
    · exact ⟨rfl, rfl, rfl, rfl⟩
    · exact ⟨rfl, rfl, rfl, rfl⟩
  · exact ⟨rfl, rfl, rfl, rfl⟩

section Struct

variable {structDef : StructDefinition Offset} {parser last : Parser Offset} {log : List (Visit Offset)}

omit [Mul Offset]

/-- Ending a structure that was started puts back what starting it has changed. -/
theorem Restored.leaveStruct (restored : Restored ((enterStruct structDef parser).indent 1) last) :
    Restored parser (leaveStruct parser.currentStructBaseOffset (last.indent (-1))) := by
  obtain ⟨stack, sec, elements, -, inPrimary⟩ := enterStruct_stack structDef parser
  obtain ⟨nullable, indentation⟩ := enterStruct_flags structDef parser
  obtain ⟨elements', nullable', sec', indentation'⟩ :=
    leaveStruct_flags parser.currentStructBaseOffset (last.indent (-1))
  have outside : last.secOffsetStruct = parser.secOffsetStruct := restored.sec.trans sec
  have stacked : last.structBaseOffsetStack = _ := restored.stack.trans stack
  have level : last.indentLevel = (enterStruct structDef parser).indentLevel + 1 := restored.indentation
  have same : (last.indent (-1)).indentLevel = parser.indentLevel := by
    show last.indentLevel + -1 = parser.indentLevel
    omega
  -- The base is on the stack outside of the primary part, and at hand in it.
  have based : (Parser.leaveStruct parser.currentStructBaseOffset (last.indent (-1))).currentStructBaseOffset =
      parser.currentStructBaseOffset ∧
      (Parser.leaveStruct parser.currentStructBaseOffset (last.indent (-1))).structBaseOffsetStack =
        parser.structBaseOffsetStack := by
    unfold Parser.leaveStruct
    by_cases there : parser.secOffsetStruct = true
    · rw [if_pos there] at stacked
      simp [Parser.indent, outside, there, stacked]
    · rw [if_neg there] at stacked
      simp [Parser.indent, outside, there, stacked]
  exact ⟨elements'.trans (restored.elements.trans elements), nullable'.trans (restored.nullable.trans nullable),
    sec'.trans outside, based.1, based.2, indentation'.trans same⟩

/-- A structure drifts as its members do. -/
theorem Drifted.leaveStruct (drifted : Drifted ((enterStruct structDef parser).indent 1) last) :
    Drifted parser (leaveStruct parser.currentStructBaseOffset (last.indent (-1))) := by
  -- Leaving takes back what entering did, and keeps what was left over inside.
  obtain ⟨-, sec, elements, -⟩ := enterStruct_stack structDef parser
  obtain ⟨nullable, indentation⟩ := enterStruct_flags structDef parser
  obtain ⟨elements', nullable', sec', indentation'⟩ :=
    leaveStruct_flags parser.currentStructBaseOffset (last.indent (-1))
  have level : (enterStruct structDef parser).indentLevel + 1 ≤ last.indentLevel := drifted.indentation
  refine ⟨?_, fun inside => ?_, fun inside => ?_, sec'.trans (drifted.sec.trans sec)⟩
  · rw [indentation']
    show parser.indentLevel ≤ last.indentLevel + -1
    omega
  · exact elements ▸ drifted.elements (elements' ▸ inside)
  · exact nullable ▸ drifted.nullable (nullable' ▸ inside)

/-- A structure in which something was spoiled is spoiled itself. -/
theorem Spoiled.leaveStruct (spoiled : Spoiled ((enterStruct structDef parser).indent 1) last) :
    Spoiled parser (leaveStruct parser.currentStructBaseOffset (last.indent (-1))) := by
  -- What entering and leaving do in between cannot mend what is spoiled.
  obtain ⟨-, -, elements, -⟩ := enterStruct_stack structDef parser
  obtain ⟨nullable, indentation⟩ := enterStruct_flags structDef parser
  obtain ⟨elements', nullable', -, indentation'⟩ :=
    leaveStruct_flags parser.currentStructBaseOffset (last.indent (-1))
  rcases spoiled with deeper | ⟨inside, outside⟩ | ⟨inside, outside⟩
  · have level : (enterStruct structDef parser).indentLevel + 1 < last.indentLevel := deeper
    refine .inl ?_
    rw [indentation']
    show parser.indentLevel < last.indentLevel + -1
    omega
  · exact .inr (.inl ⟨elements ▸ inside, elements'.trans outside⟩)
  · exact .inr (.inr ⟨nullable ▸ inside, nullable'.trans outside⟩)

/-- A structure whose members have all been parsed. -/
theorem Part.whole (part : Part ((enterStruct structDef parser).indent 1) log last) :
    Whole parser (log ++ [.left parser (leaveStruct parser.currentStructBaseOffset (last.indent (-1)))])
      (leaveStruct parser.currentStructBaseOffset (last.indent (-1))) where
  drifted := part.drifted.leaveStruct
  restored := fun harmless => (part.restored (forall_mem_left.mp harmless).1).leaveStruct
  isolated := by
    rw [forall_mem_left, forall_mem_left]
    constructor
    · rintro ⟨inner, same⟩
      refine ⟨?_, trivial⟩
      -- What is spoiled is still spoiled at the end of the structure.
      by_contra harmful
      exact (part.spoiled harmful inner).leaveStruct.not_same same
    · rintro ⟨inner, -⟩
      exact ⟨part.isolated inner, (part.restored inner).leaveStruct.sameBookkeeping⟩
  left := by simp

/-- A structure that is broken off leaves the indentation too deep. -/
theorem Broken.whole (broken : Broken ((enterStruct structDef parser).indent 1) log last) :
    Whole parser (log ++ [.left parser last]) last := by
  -- A struct that is broken off is left deeper than it was entered.
  obtain ⟨-, sec, elements, -⟩ := enterStruct_stack structDef parser
  obtain ⟨nullable, indentation⟩ := enterStruct_flags structDef parser
  have deeper : (enterStruct structDef parser).indentLevel + 1 ≤ last.indentLevel :=
    broken.drifted.indentation
  refine ⟨⟨by omega, fun inside => ?_, fun inside => ?_, broken.drifted.sec.trans sec⟩, fun harmless => ?_, ?_,
    by simp⟩
  · exact elements ▸ broken.drifted.elements inside
  · exact nullable ▸ broken.drifted.nullable inside
  · exact absurd (forall_mem_left.mp harmless).1 broken.harmful
  · rw [forall_mem_left, forall_mem_left]
    constructor
    · intro isolated
      have same : last.indentLevel = parser.indentLevel := isolated.2.indentation
      omega
    · exact fun harmless => absurd harmless.1 broken.harmful

end Struct

/-- Whatever the depth, structures and members track the bookkeeping. -/
theorem parse_tracks (catalog : AssetCatalog Offset) (buffer : AssetBuffer Offset) (depth : Nat) :
    (∀ name base parser, Meets (fun _ => Whole parser) (fun _ _ => False) True
        (parseStruct catalog buffer depth name base parser)) ∧
      ∀ member parsed parser, Tracks parser (parseMember catalog buffer depth member parsed parser) := by
  induction depth with
  | zero =>
    constructor
    · intro name base parser
      unfold parseStruct
      exact Meets.of_deep trivial
    · intro member parsed parser
      unfold parseMember
      exact Meets.of_deep trivial
  | succ depth ih =>
    obtain ⟨structs, members⟩ := ih
    constructor
    · intro name base parser
      unfold parseStruct
      rw [get_bind]
      -- What is left behind is noted at the end, whether the structure was broken off or not.
      suffices parsed : Meets (fun _ log last => Whole parser (log ++ [.left parser last]) last)
          (fun log last => Whole parser (log ++ [.left parser last]) last) True _ from
        Meets.bind (Meets.attempt parsed) fun _ log last whole => Meets.entry whole
      cases catalog.getStruct name with
      | none => exact Meets.silent (Whole.unknown parser)
      | some structDef =>
        simp only
        rw [modify_bind, modify_bind]
        refine Meets.bind ((parseMembers_tracks members _ _ _ _).weaken (fun _ _ _ => id)
          fun _ _ broken => broken.whole) fun _ log last part => ?_
        rw [modify_bind]
        refine Meets.silent ?_
        rw [List.append_nil]
        exact part.whole
    · intro member parsed parser
      unfold parseMember
      cases catalog.getType member.typeName with
      | none => exact Meets.silent (Calm.silent (Restored.refl parser)).part
      | some typeDef =>
        simp only
        split
        · exact parseArray_tracks structs members catalog buffer member parsed parser
        · cases typeDef.type with
          | nullable => exact parseNullable_tracks structs catalog buffer typeDef member parsed parser
          | struct => exact parseInline_tracks structs typeDef member parsed parser
          | _ => exact parseValue_tracks buffer typeDef member parsed parser

/--
Every structure that is parsed or broken off leaves the bookkeeping as it was exactly when nothing
on the way does harm to it.
-/
theorem isolated_iff_harmless (catalog : AssetCatalog Offset) (buffer : AssetBuffer Offset) (depth : Nat)
    (structName : String) (base : Offset) (parser : Parser Offset)
    (returns : (parseStruct catalog buffer depth structName base parser).ending = .done ()) :
    let result := parseStruct catalog buffer depth structName base parser
    .left parser result.state ∈ result.log ∧
      ((∀ visit ∈ result.log, visit.Isolated) ↔ ∀ visit ∈ result.log, visit.Harmless) := by
  have whole := ((parse_tracks catalog buffer depth).1 structName base parser).done () returns
  exact ⟨whole.left, whole.isolated⟩

/-- A phase that is cut off behind its first gambit's place. -/
def cutBuffer : AssetBuffer UInt64 where
  data address := if address ∈ [52, 56] then 1 else 0
  size := 70

/-- A gambit is broken off in the phase that is cut off, and leaves its traces behind. -/
theorem isolated_iff_harmless_phase :
    let result := parseStruct phaseCatalog cutBuffer 4 "Phase" 0 (initial 68)
    .left (initial 68) result.state ∈ result.log ∧
      ((∀ visit ∈ result.log, visit.Isolated) ↔ ∀ visit ∈ result.log, visit.Harmless) :=
  isolated_iff_harmless phaseCatalog cutBuffer 4 "Phase" 0 (initial 68) rfl

/--
The gambit is broken off at its first member, and the phase's last one, at 12, is looked for at 132.
-/
theorem not_isolated :
    ¬ ∀ (catalog : AssetCatalog UInt64) (buffer : AssetBuffer UInt64) (depth : Nat) (structName : String)
      (base : UInt64) (parser : Parser UInt64),
      (parseStruct catalog buffer depth structName base parser).ending = .done () →
        SameBookkeeping parser (parseStruct catalog buffer depth structName base parser).state := by
  intro always
  have same := (always phaseCatalog cutBuffer 4 "Phase" 0 (initial 68) rfl).indentation
  revert same
  decide

end Parser

end Isolation

end Recap.Game
