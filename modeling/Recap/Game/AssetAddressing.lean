import Recap.Game.AssetReading

/-! When every member of a structure is parsed at the structure's base plus the member's offset. -/

namespace Recap.Game

open Logged

namespace Visit

/-- What is visited lies where the structure's base and the catalog put it. -/
def Placed : Visit UInt64 → Prop
  | .member base visited _ address => address = base + visited.offset
  | .count base visited _ address => address = base + visited.offset + visited.countOffset
  | .entry place _ _ address => address = place
  | .read .. | .refused .. | .filled .. | .present .. | .left .. => True

/-- The base that is used where the parser has left the array elements. -/
def baseInstead (before : Parser UInt64) (visited : StructMember UInt64) : UInt64 :=
  if visited.typeName = "array" ∧ before.isInsideNullable then before.startNullableOffset
  else before.currentStructBaseOffset

/--
Nothing has misled the parser about the base of the structure whose member it turns to.

Outside of the primary part, the parser must not have left the array elements in an earlier array of
the same structure. In the primary part, no structure must have been broken off, which leaves its
entry on the stack of bases. A count needs the structure to be the nullable one that was entered
last, and there must be no array of inline structures outside of the primary part. Otherwise what is
used instead of the base has to be the base by chance.
-/
def Unmisled : Visit UInt64 → Prop
  | .member base visited before _ =>
    if before.secOffsetStruct then
      before.processingArrayElement ∨ baseInstead before visited = base
    else before.structBaseOffsetStack = [] ∨ before.currentStructBaseOffset = base
  | .count base _ before _ => before.startNullableOffset = base
  | .entry place visited before _ =>
    before.secOffsetStruct → before.memberStartOffset visited = place
  | .read .. | .refused .. | .filled .. | .present .. | .left .. => True

instance : DecidablePred Placed
  | .member base visited _ address =>
    inferInstanceAs (Decidable (address = base + visited.offset))
  | .count base visited _ address =>
    inferInstanceAs (Decidable (address = base + visited.offset + visited.countOffset))
  | .entry place _ _ address => inferInstanceAs (Decidable (address = place))
  | .read .. | .refused .. | .filled .. | .present .. | .left .. => inferInstanceAs (Decidable True)

end Visit

namespace Parser

/-- A part of a parse whose visits are all placed exactly when the parser is misled at none. -/
abbrev Settles (returned faulty : Parser UInt64 → Prop)
    (result : Logged.Result (Parser UInt64) (Visit UInt64) Unit) : Prop :=
  Agree Visit.Placed Visit.Unmisled (fun _ => returned) faulty result

/-- The two offsets and the indentation may have changed, and nothing else. -/
def Moved (before after : Parser UInt64) : Prop :=
  ∃ primary secondary indentation, after =
    { before with
      primaryOffset := primary, secondaryOffset := secondary, indentLevel := indentation }

/--
The stack of bases is as high as before, or higher where a structure was broken off.

Where it is as high, it is the same, and so is the current base.
-/
structure Balanced (before after : Parser UInt64) : Prop where
  height : before.structBaseOffsetStack.length ≤ after.structBaseOffsetStack.length
  same : after.structBaseOffsetStack.length = before.structBaseOffsetStack.length →
    after.structBaseOffsetStack = before.structBaseOffsetStack ∧
      after.currentStructBaseOffset = before.currentStructBaseOffset

/-- What the parsing of a member or of a whole structure leaves as it was. -/
structure Frame (before after : Parser UInt64) : Prop where
  balanced : Balanced before after
  sec : after.secOffsetStruct = before.secOffsetStruct
  elements : after.processingArrayElement → before.processingArrayElement

/-- A structure with the given base can be parsed. -/
structure StartsAt (base : UInt64) (parser : Parser UInt64) : Prop where
  elements : parser.processingArrayElement → parser.secOffsetStruct
  primary : parser.secOffsetStruct → parser.processingArrayElement → parser.primaryOffset = base
  current : ¬ parser.secOffsetStruct → parser.structBaseOffsetStack = [] →
    parser.currentStructBaseOffset = base

/-- A member or an entry can be parsed. -/
def Ready (member : StructMember UInt64) (parser : Parser UInt64) : Parsed UInt64 → Prop
  | .member base => StartsAt base parser
  | .entry place =>
    (parser.processingArrayElement → parser.secOffsetStruct) ∧
      (¬ parser.secOffsetStruct → member.useSecondaryOffset ∧ member.offset = place)

/-! ### What is kept -/

theorem Moved.refl (parser : Parser UInt64) : Moved parser parser :=
  ⟨parser.primaryOffset, parser.secondaryOffset, parser.indentLevel, rfl⟩

theorem Moved.trans {first second third : Parser UInt64} (before : Moved first second)
    (after : Moved second third) : Moved first third := by
  obtain ⟨_, _, _, rfl⟩ := before
  obtain ⟨primary, secondary, indentation, rfl⟩ := after
  exact ⟨primary, secondary, indentation, rfl⟩

theorem Moved.setPrimaryOffset (parser : Parser UInt64) (offset : UInt64) :
    Moved parser (parser.setPrimaryOffset offset) :=
  ⟨offset, parser.secondaryOffset, parser.indentLevel, rfl⟩

theorem Moved.setSecondaryOffset (parser : Parser UInt64) (offset : UInt64) :
    Moved parser (parser.setSecondaryOffset offset) :=
  ⟨parser.primaryOffset, offset, parser.indentLevel, rfl⟩

theorem Moved.indent (parser : Parser UInt64) (levels : Int) : Moved parser (parser.indent levels) :=
  ⟨parser.primaryOffset, parser.secondaryOffset, parser.indentLevel + levels, rfl⟩

/-- The stack and the current base are untouched. -/
theorem Balanced.of_eq {before after : Parser UInt64}
    (stack : after.structBaseOffsetStack = before.structBaseOffsetStack)
    (current : after.currentStructBaseOffset = before.currentStructBaseOffset) :
    Balanced before after :=
  ⟨stack ▸ le_rfl, fun _ => ⟨stack, current⟩⟩

theorem Balanced.trans {first second third : Parser UInt64} (before : Balanced first second)
    (after : Balanced second third) : Balanced first third where
  height := before.height.trans after.height
  same := by
    intro equal
    -- Equal heights at both ends leave no room for a higher stack in between.
    have lower := before.height
    have upper := after.height
    obtain ⟨stack, current⟩ := before.same (by omega)
    obtain ⟨stack', current'⟩ := after.same (by omega)
    exact ⟨stack'.trans stack, current'.trans current⟩

/-- Whoever puts the current base back needs only the stack to be balanced. -/
theorem Balanced.restore {before after : Parser UInt64} (balanced : Balanced before after)
    (first last : Parser UInt64) (unchanged : first.structBaseOffsetStack = before.structBaseOffsetStack)
    (stack : last.structBaseOffsetStack = after.structBaseOffsetStack)
    (current : last.currentStructBaseOffset = first.currentStructBaseOffset) :
    Balanced first last where
  height := by
    rw [stack, unchanged]
    exact balanced.height
  same := by
    rw [stack, unchanged]
    exact fun equal => ⟨(balanced.same equal).1, current⟩

theorem Frame.refl (parser : Parser UInt64) : Frame parser parser :=
  ⟨Balanced.of_eq rfl rfl, rfl, id⟩

theorem Frame.trans {first second third : Parser UInt64} (before : Frame first second)
    (after : Frame second third) : Frame first third :=
  ⟨before.balanced.trans after.balanced, after.sec.trans before.sec,
    fun elements => before.elements (after.elements elements)⟩

theorem Moved.frame {before after : Parser UInt64} (moved : Moved before after) : Frame before after := by
  obtain ⟨_, _, _, rfl⟩ := moved
  exact ⟨Balanced.of_eq rfl rfl, rfl, id⟩

/-- What the parser is at outside of the primary part can be parsed. -/
theorem StartsAt.element {base : UInt64} {parser : Parser UInt64} (sec : parser.secOffsetStruct)
    (primary : parser.primaryOffset = base) :
    StartsAt base parser :=
  ⟨fun _ => sec, fun _ _ => primary, fun inPrimary => absurd sec inPrimary⟩

/-- Whoever leaves the array elements is at none. -/
theorem Frame.leaveElements {before after : Parser UInt64} (balanced : Balanced before after)
    (sec : after.secOffsetStruct = before.secOffsetStruct) :
    Frame before { after with processingArrayElement := false } :=
  ⟨balanced.trans (Balanced.of_eq rfl rfl), sec, nofun⟩

/-- Another member of the same structure can be parsed after what is kept. -/
theorem StartsAt.later {base : UInt64} {before after : Parser UInt64} (starts : StartsAt base before)
    (frame : Frame before after)
    (primary : after.processingArrayElement → after.primaryOffset = before.primaryOffset) :
    StartsAt base after where
  elements := by
    intro elements
    rw [frame.sec]
    exact starts.elements (frame.elements elements)
  primary := by
    intro sec elements
    rw [primary elements]
    exact starts.primary (frame.sec ▸ sec) (frame.elements elements)
  current := by
    intro sec empty
    rw [frame.sec] at sec
    -- An empty stack was empty before, so that nothing was broken off in between.
    have lower := frame.balanced.height
    rw [empty, List.length_nil] at lower
    have nothing : before.structBaseOffsetStack = [] :=
      List.length_eq_zero_iff.mp (Nat.le_zero.mp lower)
    have same := (frame.balanced.same (by rw [empty, nothing])).2
    rw [same]
    exact starts.current sec nothing

/-! ### Reading -/

/-- Reading logs nothing and moves the offsets, also where it throws. -/
def Reads {α : Type} (part : Parse UInt64 α) : Prop :=
  ∀ parser, Agree Visit.Placed Visit.Unmisled (fun _ => Moved parser) (Moved parser) (part parser)

theorem Reads.nothing {α : Type} (value : α) : Reads (pure value : Parse UInt64 α) :=
  fun parser => Agree.silent (Moved.refl parser)

theorem Reads.refuse {α : Type} (offset : UInt64) :
    Reads (AssetBuffer.refuse offset : Parse UInt64 α) :=
  fun parser => Agree.note trivial trivial (Agree.throw (Moved.refl parser))

/-- What is noted to have been read does not matter to the visits. -/
theorem Reads.note {α : Type} {next : Unit → Parse UInt64 α} {offset : UInt64} {width : Nat}
    (after : Reads (next ())) : Reads (Logged.log (.read offset width) >>= next) :=
  fun parser => Agree.note trivial trivial (after parser)

theorem Reads.bind {α β : Type} {first : Parse UInt64 α} {next : α → Parse UInt64 β}
    (before : Reads first) (after : ∀ value, Reads (next value)) : Reads (first >>= next) := by
  intro parser
  refine Agree.bind (before parser) fun value middle moved => ?_
  exact (after value middle).weaken (fun _ _ => moved.trans) fun _ => moved.trans

theorem reads_readAt (buffer : AssetBuffer UInt64) (offset : UInt64) (width : Nat) :
    Reads (buffer.readAt offset width) := by
  unfold AssetBuffer.readAt
  split
  · apply Reads.note
    exact Reads.nothing _
  · exact Reads.refuse offset

theorem reads_readPrimary (buffer : AssetBuffer UInt64) (width : Nat) :
    Reads (buffer.readPrimary width) := by
  intro parser
  unfold AssetBuffer.readPrimary
  rw [get_bind]
  refine Agree.bind (reads_readAt buffer _ width parser) fun value last moved => ?_
  rw [modify_bind]
  exact Agree.silent (moved.trans (Moved.setPrimaryOffset last _))

theorem reads_readString (buffer : AssetBuffer UInt64) (useSecondary : Bool) :
    Reads (buffer.readString useSecondary) := by
  intro parser
  unfold AssetBuffer.readString
  rw [get_bind]
  simp only
  generalize (if useSecondary then parser.secondaryOffset else parser.primaryOffset) = offset
  split
  · exact Reads.refuse offset parser
  · refine Agree.note trivial trivial (Agree.silent ?_)
    cases useSecondary with
    | true => exact Moved.setSecondaryOffset parser _
    | false => exact Moved.setPrimaryOffset parser _

theorem reads_readValue (buffer : AssetBuffer UInt64) (type : DataType) :
    Reads (buffer.readValue type) := by
  have rules : ReadRules buffer Reads :=
    ⟨Reads.nothing, Reads.bind, reads_readPrimary buffer, reads_readString buffer⟩
  exact rules.readValue type

/-! ### Visits -/

/-- In the primary part the current base is the structure's, unless something was broken off. -/
theorem StartsAt.current_iff {base : UInt64} {parser : Parser UInt64} (starts : StartsAt base parser)
    (primary : ¬ parser.secOffsetStruct) :
    parser.currentStructBaseOffset = base ↔
      parser.structBaseOffsetStack = [] ∨ parser.currentStructBaseOffset = base := by
  constructor
  · exact Or.inr
  · rintro (empty | same)
    · exact starts.current primary empty
    · exact same

/-- A member that is no array is parsed at its place unless the parser is misled. -/
theorem memberStartOffset_iff {base : UInt64} {parser : Parser UInt64} {member : StructMember UInt64}
    (starts : StartsAt base parser) (plain : member.typeName ≠ "array")
    (inPrimary : ¬ member.useSecondaryOffset) (address : UInt64) :
    parser.memberStartOffset member = base + member.offset ↔
      (Visit.member base member parser address).Unmisled := by
  unfold memberStartOffset Visit.Unmisled
  by_cases sec : parser.secOffsetStruct
  · by_cases elements : parser.processingArrayElement
    · have start := starts.primary sec elements
      simp [sec, elements, start]
    · simp [sec, elements, Visit.baseInstead, plain]
  · simp only [sec, inPrimary, if_false, Bool.false_eq_true, add_left_inj]
    exact starts.current_iff sec

/-- The same for an array. -/
theorem arrayStartOffset_iff {base : UInt64} {parser : Parser UInt64} {member : StructMember UInt64}
    (starts : StartsAt base parser) (array : member.typeName = "array")
    (inPrimary : ¬ member.useSecondaryOffset) (address : UInt64) :
    parser.arrayStartOffset member = base + member.offset ↔
      (Visit.member base member parser address).Unmisled := by
  unfold arrayStartOffset Visit.Unmisled
  by_cases sec : parser.secOffsetStruct
  · by_cases elements : parser.processingArrayElement
    · have start := starts.primary sec elements
      simp [sec, elements, start]
    · by_cases inside : parser.isInsideNullable
      · simp [sec, elements, inside, Visit.baseInstead, array]
      · simp [sec, elements, inside, Visit.baseInstead]
  · simp only [sec, inPrimary, if_false, Bool.false_eq_true, add_left_inj]
    exact starts.current_iff sec

/-- The visit of a member leaves the parser as it is. -/
theorem visitMember_settles {parsed : Parsed UInt64} {member : StructMember UInt64} {before : Parser UInt64}
    {address : UInt64} {faulty : Parser UInt64 → Prop}
    (same : ∀ base, parsed = .member base → ¬ member.useSecondaryOffset →
      (address = base + member.offset ↔ (Visit.member base member before address).Unmisled))
    (parser : Parser UInt64) :
    Settles (fun after => after = parser) faulty (visitMember parsed member before address parser) := by
  cases parsed with
  | entry place => exact Agree.silent rfl
  | member base =>
    unfold visitMember
    simp only
    split
    · exact Agree.silent rfl
    · rename_i inPrimary
      exact Agree.entry (same base rfl inPrimary) fun _ => rfl

/-- The count of an array lies at its place in the nullable structure that was entered last. -/
theorem visitCount_settles {parsed : Parsed UInt64} {member : StructMember UInt64}
    {before parser : Parser UInt64} (nullable : parser.startNullableOffset = before.startNullableOffset)
    {faulty : Parser UInt64 → Prop} :
    Settles (fun after => after = parser) faulty
      (visitCount parsed member before
        (parser.startNullableOffset + member.offset + member.countOffset) parser) := by
  cases parsed with
  | entry place => exact Agree.silent rfl
  | member base =>
    unfold visitCount
    simp only
    split
    · exact Agree.silent rfl
    · refine Agree.entry ?_ fun _ => rfl
      simp [Visit.Placed, Visit.Unmisled, nullable]

/-- An inline structure that is visited where it belongs can be parsed there. -/
theorem visitStruct_settles {parsed : Parsed UInt64} {member : StructMember UInt64} {parser : Parser UInt64}
    (ready : Ready member parser parsed) (plain : member.typeName ≠ "array")
    {faulty : Parser UInt64 → Prop} :
    Agree Visit.Placed Visit.Unmisled
      (fun base after => after = parser.setPrimaryOffset (parser.memberStartOffset member) ∧
        StartsAt base
          { after with currentStructBaseOffset := parser.memberStartOffset member })
      faulty
      (visitStruct parsed member parser (parser.memberStartOffset member)
        (parser.setPrimaryOffset (parser.memberStartOffset member))) := by
  have elements : parser.processingArrayElement → parser.secOffsetStruct := by
    cases parsed with
    | member base => exact ready.elements
    | entry place => exact ready.1
  -- Where the structure is found, it can be parsed with that place as its base.
  have starts : ∀ base, parser.memberStartOffset member = base → StartsAt base
      { parser.setPrimaryOffset (parser.memberStartOffset member) with
        currentStructBaseOffset := parser.memberStartOffset member } :=
    fun base same => ⟨elements, fun _ _ => same, fun _ _ => same⟩
  cases parsed with
  | member base =>
    unfold visitStruct
    simp only
    split
    · exact Agree.silent ⟨rfl, starts _ rfl⟩
    · rename_i inPrimary
      have logged : Settles (fun after => after = parser.setPrimaryOffset
          (parser.memberStartOffset member) ∧ parser.memberStartOffset member = base + member.offset)
          faulty (Logged.log (.member base member parser (parser.memberStartOffset member))
            (parser.setPrimaryOffset (parser.memberStartOffset member))) :=
        Agree.entry (memberStartOffset_iff ready plain inPrimary _) fun placed => ⟨rfl, placed⟩
      refine Agree.bind logged ?_
      rintro _ _ ⟨rfl, placed⟩
      exact Agree.silent ⟨rfl, starts _ placed⟩
  | entry place =>
    -- In the primary part an entry is looked for where it is.
    have found : parser.memberStartOffset member = place ↔
        (parser.secOffsetStruct → parser.memberStartOffset member = place) := by
      constructor
      · exact fun same _ => same
      · intro same
        by_cases sec : parser.secOffsetStruct
        · exact same sec
        · obtain ⟨flagged, offset⟩ := ready.2 sec
          simp [memberStartOffset, sec, flagged, offset]
    have logged : Settles (fun after => after = parser.setPrimaryOffset
        (parser.memberStartOffset member) ∧ parser.memberStartOffset member = place)
        faulty (Logged.log (.entry place member parser (parser.memberStartOffset member))
          (parser.setPrimaryOffset (parser.memberStartOffset member))) :=
      Agree.entry found fun placed => ⟨rfl, placed⟩
    refine Agree.bind logged ?_
    rintro _ _ ⟨rfl, placed⟩
    exact Agree.silent ⟨rfl, starts _ placed⟩

/-! ### The cases of a member -/

theorem element_zero (start size : UInt64) : start + UInt64.ofNat 0 * size = start := by
  have zero : UInt64.ofNat 0 = 0 := rfl
  rw [zero, zero_mul, add_zero]

/-- The next element lies behind the one before. -/
theorem element_succ (start size : UInt64) (index : Nat) :
    start + UInt64.ofNat index * size + size = start + UInt64.ofNat (index + 1) * size := by
  have one : UInt64.ofNat 1 = 1 := rfl
  rw [UInt64.ofNat_add, one, add_mul, one_mul, add_assoc]

theorem Ready.elements {member : StructMember UInt64} {parser : Parser UInt64} {parsed : Parsed UInt64}
    (ready : Ready member parser parsed) (elements : parser.processingArrayElement) :
    parser.secOffsetStruct := by
  cases parsed with
  | member base => exact StartsAt.elements ready elements
  | entry place => exact ready.1 elements

theorem parseValue_settles (buffer : AssetBuffer UInt64) (typeDef : TypeDefinition UInt64)
    {member : StructMember UInt64} {parsed : Parsed UInt64} {parser : Parser UInt64}
    (ready : Ready member parser parsed) (plain : member.typeName ≠ "array") :
    Settles (Frame parser) (Frame parser) (parseValue buffer typeDef member parsed parser) := by
  unfold parseValue
  rw [get_bind, modify_bind]
  refine Agree.bind (visitMember_settles ?_ _) ?_
  · rintro base rfl inPrimary
    exact memberStartOffset_iff ready plain inPrimary _
  · rintro _ _ rfl
    have start := Moved.setPrimaryOffset parser (parser.memberStartOffset member)
    exact (reads_readValue buffer typeDef.type _).weaken
      (fun _ _ moved => (start.trans moved).frame) fun _ moved => (start.trans moved).frame

section Structs

variable {parseStruct : String → UInt64 → Parse UInt64 Unit}
  (structs : ∀ name base parser, StartsAt base parser →
    Settles (Frame parser) (fun _ => False) (parseStruct name base parser))

include structs

theorem parseInline_settles (typeDef : TypeDefinition UInt64) {member : StructMember UInt64}
    {parsed : Parsed UInt64} {parser : Parser UInt64} (ready : Ready member parser parsed)
    (plain : member.typeName ≠ "array") :
    Settles (Frame parser) (Frame parser)
      (parseInline parseStruct typeDef member parsed parser) := by
  unfold parseInline
  rw [get_bind, modify_bind]
  refine Agree.bind (visitStruct_settles ready plain) ?_
  rintro base _ ⟨rfl, starts⟩
  rw [modify_bind]
  refine Agree.bind ((structs _ _ _ starts).weaken (fun _ _ => id) fun _ => False.elim) ?_
  intro _ last frame
  -- The base around the inline structure is put back.
  exact Agree.silent ⟨frame.balanced.restore parser _ rfl rfl rfl, frame.sec, frame.elements⟩

theorem parseNullable_settles (catalog : AssetCatalog UInt64) (buffer : AssetBuffer UInt64)
    (typeDef : TypeDefinition UInt64) {member : StructMember UInt64} {parsed : Parsed UInt64}
    {parser : Parser UInt64} (ready : Ready member parser parsed) (plain : member.typeName ≠ "array") :
    Settles (Frame parser) (Frame parser)
      (parseNullable parseStruct catalog buffer typeDef member parsed parser) := by
  unfold parseNullable
  rw [get_bind, modify_bind]
  refine Agree.bind (visitMember_settles ?_ _) ?_
  · rintro base rfl inPrimary
    exact memberStartOffset_iff ready plain inPrimary _
  rintro _ _ rfl
  have start := Moved.setPrimaryOffset parser (parser.memberStartOffset member)
  refine Agree.bind ((reads_readPrimary buffer 4 _).weaken (fun _ _ => start.trans)
    fun _ moved => (start.trans moved).frame) ?_
  intro hasValue middle moved
  split
  · cases catalog.getStruct typeDef.targetType with
    | none => exact Agree.silent moved.frame
    | some targetStruct =>
      simp only
      rw [get_bind]
      refine Agree.note trivial trivial ?_
      rw [modify_bind, modify_bind, modify_bind, modify_bind]
      -- The structure behind a nullable member starts at the secondary offset, as an element does.
      refine Agree.bind (Agree.weaken (structs _ _ _ (StartsAt.element rfl rfl))
        (fun _ _ frame => frame) fun _ => False.elim) ?_
      intro _ last frame
      rw [modify_bind]
      obtain ⟨primary, secondary, indentation, rfl⟩ := moved
      exact Agree.silent ⟨frame.balanced.restore parser _ rfl rfl rfl, rfl, id⟩
  · exact Agree.silent (moved.trans (Moved.setPrimaryOffset _ _)).frame

/--
The elements of an array of structures are parsed one behind the other.

Only the flag for array elements is left to whoever parses the array.
-/
theorem parseElements_settles (structDef : StructDefinition UInt64) (elementType : String) (count : Nat)
    (arrayDataOffset : UInt64) (parser : Parser UInt64) :
    Settles
      (fun after => Balanced parser after ∧ after.secOffsetStruct = parser.secOffsetStruct)
      (fun _ => False)
      (parseElements parseStruct structDef elementType count arrayDataOffset parser) := by
  unfold parseElements
  refine Agree.bind (Agree.rounds (fun index dataOffset current =>
    dataOffset = arrayDataOffset + UInt64.ofNat index * structDef.fixedSize ∧
      Balanced parser current ∧ current.secOffsetStruct = parser.secOffsetStruct) ?_ count 0
    arrayDataOffset ⟨(element_zero _ _).symm, Balanced.of_eq rfl rfl, rfl⟩) ?_
  · rintro index dataOffset current ⟨place, balanced, sec⟩
    rw [modify_bind, get_bind, modify_bind]
    -- The running offset is where the element lies.
    refine Agree.bind (Agree.weaken (structs _ _ _ (StartsAt.element rfl place))
      (fun _ _ frame => frame) fun _ => False.elim) ?_
    intro _ last frame
    rw [modify_bind]
    refine Agree.silent ⟨?_, balanced.trans ?_, sec⟩
    · rw [place]
      exact element_succ _ _ index
    · refine Balanced.trans ?_ (Balanced.trans frame.balanced ?_)
      · exact Balanced.of_eq rfl rfl
      · exact Balanced.of_eq rfl rfl
  · rintro _ last ⟨-, kept⟩
    exact Agree.silent kept

end Structs

/-- The entries of an array whose elements are no structures are parsed as members would be. -/
theorem parseEntries_settles {parseMember : StructMember UInt64 → Parsed UInt64 → Parse UInt64 Unit}
    (members : ∀ member parsed parser, Ready member parser parsed →
      Settles (Frame parser) (Frame parser) (parseMember member parsed parser))
    (elemTypeDef : TypeDefinition UInt64) (elementType : String) (count : Nat)
    (elementBaseOffset : UInt64) {parser : Parser UInt64}
    (elements : parser.processingArrayElement → parser.secOffsetStruct) {useSecondary : Bool}
    (secondary : (!parser.secOffsetStruct && !parser.processingArrayElement) = useSecondary) :
    Settles (Frame parser) (Frame parser)
      (parseEntries parseMember elemTypeDef elementType useSecondary count elementBaseOffset
        parser) := by
  unfold parseEntries
  refine Agree.bind (Agree.rounds (fun index dataOffset current => Frame parser current ∧
      (useSecondary → dataOffset = elementBaseOffset + UInt64.ofNat index * elemTypeDef.size))
    ?_ count 0 elementBaseOffset ⟨Frame.refl parser, fun _ => (element_zero _ _).symm⟩) ?_
  · rintro index dataOffset current ⟨frame, place⟩
    rw [modify_bind, get_bind]
    have moved : Moved current (if useSecondary then current.setPrimaryOffset dataOffset
        else current) := by
      split
      · exact Moved.setPrimaryOffset current dataOffset
      · exact Moved.refl current
    have start := frame.trans moved.frame
    have ready : Ready
        (StructMember.plain elementType (if useSecondary then current.setPrimaryOffset dataOffset
          else current).primaryOffset useSecondary)
        (if useSecondary then current.setPrimaryOffset dataOffset else current)
        (.entry (elementBaseOffset + UInt64.ofNat index * elemTypeDef.size)) := by
      refine ⟨fun element => ?_, fun inPrimary => ?_⟩
      · rw [start.sec]
        exact elements (start.elements element)
      · -- In the primary part the entry is looked for at the running offset.
        rw [start.sec] at inPrimary
        have flagged : useSecondary = true := by
          have no : ¬ parser.processingArrayElement := fun element => inPrimary (elements element)
          simpa [inPrimary, no] using secondary.symm
        refine ⟨flagged, ?_⟩
        rw [if_pos flagged]
        exact place flagged
    refine Agree.bind (Agree.weaken (members _ _ _ ready)
      (fun _ _ later => start.trans later) fun _ later => start.trans later) ?_
    intro _ last later
    rw [modify_bind]
    have end_ : Moved last (if useSecondary then last
        else last.setPrimaryOffset (last.primaryOffset + elemTypeDef.size)) := by
      split
      · exact Moved.refl last
      · exact Moved.setPrimaryOffset last _
    refine Agree.silent ⟨later.trans end_.frame, fun flagged => ?_⟩
    rw [if_pos flagged, place flagged]
    exact element_succ _ _ index
  · rintro _ last ⟨kept, -⟩
    exact Agree.silent kept

/-- Reading the count of an array. -/
theorem readCount_settles (buffer : AssetBuffer UInt64) (member : StructMember UInt64)
    (parsed : Parsed UInt64) {before parser : Parser UInt64}
    (nullable : parser.startNullableOffset = before.startNullableOffset) :
    Agree Visit.Placed Visit.Unmisled (fun _ => Moved parser) (Moved parser)
      (readCount buffer member parsed before parser) := by
  unfold readCount
  rw [get_bind]
  split
  · refine Agree.bind (visitCount_settles nullable) ?_
    rintro _ _ rfl
    exact reads_readAt buffer _ 4 _
  · exact reads_readPrimary buffer 4 parser

theorem parseArray_settles {parseStruct : String → UInt64 → Parse UInt64 Unit}
    {parseMember : StructMember UInt64 → Parsed UInt64 → Parse UInt64 Unit}
    (structs : ∀ name base parser, StartsAt base parser →
      Settles (Frame parser) (fun _ => False) (parseStruct name base parser))
    (members : ∀ member parsed parser, Ready member parser parsed →
      Settles (Frame parser) (Frame parser) (parseMember member parsed parser))
    (catalog : AssetCatalog UInt64) (buffer : AssetBuffer UInt64) {member : StructMember UInt64}
    {parsed : Parsed UInt64} {parser : Parser UInt64} (ready : Ready member parser parsed)
    (array : member.typeName = "array") :
    Settles (Frame parser) (Frame parser)
      (parseArray parseStruct parseMember catalog buffer member parsed parser) := by
  unfold parseArray
  rw [get_bind, modify_bind]
  refine Agree.bind (visitMember_settles ?_ _) ?_
  · rintro base rfl inPrimary
    exact arrayStartOffset_iff ready array inPrimary _
  rintro _ _ rfl
  have start := Moved.setPrimaryOffset parser (parser.arrayStartOffset member)
  refine Agree.bind (Agree.weaken (reads_readPrimary buffer 4 _) (fun _ _ => start.trans)
    fun _ moved => (start.trans moved).frame) ?_
  intro hasValue middle moved
  rw [get_bind]
  split
  · have nullable : middle.startNullableOffset = parser.startNullableOffset := by
      obtain ⟨_, _, _, rfl⟩ := moved
      rfl
    refine Agree.note trivial trivial ?_
    refine Agree.bind (Agree.weaken (readCount_settles buffer member parsed nullable)
      (fun _ _ => moved.trans) fun _ further => (moved.trans further).frame) ?_
    intro count first unindented
    rw [modify_bind, get_bind]
    have further := unindented.trans (Moved.indent first 1)
    generalize first.indent 1 = counted at further
    -- The parser is never at an array element in the primary part.
    have elements : ∀ other, Moved parser other → other.processingArrayElement →
        other.secOffsetStruct := by
      intro other same element
      rw [same.frame.sec]
      exact ready.elements (same.frame.elements element)
    have secondary : (middle.secOffsetStruct ||
        (!middle.secOffsetStruct && !middle.processingArrayElement)) = true := by
      have element := elements middle moved
      cases sec : middle.secOffsetStruct with
      | true => rfl
      | false =>
        cases current : middle.processingArrayElement with
        | false => rfl
        | true => exact absurd (element current) (by simp [sec])
    -- Whatever was parsed, the parser leaves the array elements and the indentation behind.
    have left : ∀ {last : Parser UInt64}, Balanced parser last →
        last.secOffsetStruct = parser.secOffsetStruct →
        Settles (Frame parser) (Frame parser) ((do
          Logged.modify fun parser => { parser with processingArrayElement := false }
          Logged.modify (indent (-1)) : Parse UInt64 Unit) last) := fun balanced sec =>
      Agree.silent ((Frame.leaveElements balanced sec).trans (Moved.indent _ (-1)).frame)
    cases catalog.getStruct member.elementType with
    | some structDef =>
      simp only [secondary, if_true]
      rw [modify_bind]
      refine Agree.bind (Agree.weaken (parseElements_settles structs structDef member.elementType
        count _ _) (fun _ _ kept => kept) fun _ => False.elim) ?_
      rintro _ last ⟨balanced, sec⟩
      have frame := (further.trans (Moved.setSecondaryOffset counted
        (parser.getRealSecondaryOffset + structDef.fixedSize * UInt64.ofNat count))).frame
      exact left (frame.balanced.trans balanced) (sec.trans frame.sec)
    | none =>
      simp only
      rw [modify_bind]
      generalize ready' : (if (!counted.secOffsetStruct && !counted.processingArrayElement)
        then counted.setSecondaryOffset _ else counted) = current
      have same : Moved counted current := by
        rw [← ready']
        split
        · exact Moved.setSecondaryOffset counted _
        · exact Moved.refl counted
      have frame := (further.trans same).frame
      cases catalog.getType member.elementType with
      | none => exact left frame.balanced frame.sec
      | some elemTypeDef =>
        have secondary' : (!current.secOffsetStruct && !current.processingArrayElement) =
            (!counted.secOffsetStruct && !counted.processingArrayElement) := by
          obtain ⟨_, _, _, rfl⟩ := same
          rfl
        refine Agree.bind (Agree.weaken (parseEntries_settles members elemTypeDef member.elementType
          count _ (elements current (further.trans same)) secondary')
          (fun _ _ later => frame.trans later) fun _ later => frame.trans later) ?_
        intro _ last later
        exact left later.balanced later.sec
  · exact Agree.silent moved.frame

/-! ### Structures -/

/-- Starting a structure outside of the primary part puts the base around it on the stack. -/
theorem enterStruct_stack {Offset : Type} [Add Offset] [OffsetNumber Offset]
    (structDef : StructDefinition Offset) (parser : Parser Offset) :
    (enterStruct structDef parser).structBaseOffsetStack =
        (if parser.secOffsetStruct then
          parser.currentStructBaseOffset :: parser.structBaseOffsetStack
        else parser.structBaseOffsetStack) ∧
      (enterStruct structDef parser).secOffsetStruct = parser.secOffsetStruct ∧
      (enterStruct structDef parser).processingArrayElement = parser.processingArrayElement ∧
      (enterStruct structDef parser).primaryOffset = parser.primaryOffset ∧
      (¬ parser.secOffsetStruct → enterStruct structDef parser = parser) := by
  unfold Parser.enterStruct
  by_cases sec : parser.secOffsetStruct
  · by_cases elements : parser.processingArrayElement
    · simp [sec, elements]
    · simp [sec, elements, setSecondaryOffset]
  · simp [sec]

/-- A structure that has been started has its members at the base that it was started at. -/
theorem StartsAt.enterStruct {base : UInt64} {parser : Parser UInt64} (starts : StartsAt base parser)
    (structDef : StructDefinition UInt64) : StartsAt base (enterStruct structDef parser) := by
  obtain ⟨-, sec, elements, primary, inPrimary⟩ := enterStruct_stack structDef parser
  refine ⟨?_, ?_, ?_⟩
  · rw [sec, elements]
    exact starts.elements
  · rw [sec, elements, primary]
    exact starts.primary
  · intro outside
    rw [sec] at outside
    rw [inPrimary outside]
    exact starts.current outside

/-- A structure that comes to its end leaves the stack of bases and the current base as they were. -/
theorem Frame.leaveStruct {structDef : StructDefinition UInt64} {parser last : Parser UInt64}
    (frame : Frame (enterStruct structDef parser) last) :
    Frame parser (leaveStruct parser.currentStructBaseOffset last) := by
  obtain ⟨stack, sec, elements, -, inPrimary⟩ := enterStruct_stack structDef parser
  have sec' := frame.sec.trans sec
  unfold Parser.leaveStruct
  by_cases outside : parser.secOffsetStruct
  · rw [if_pos outside] at stack
    have height := frame.balanced.height
    rw [stack, List.length_cons] at height
    -- What was put on the stack is still there, and there may be more above it.
    cases left : last.structBaseOffsetStack with
    | nil =>
      rw [left] at height
      exact absurd height (by simp)
    | cons top rest =>
      rw [left, List.length_cons] at height
      rw [if_pos (sec'.trans outside)]
      refine ⟨⟨Nat.le_of_succ_le_succ height, fun equal => ?_⟩, sec',
        fun element => elements ▸ frame.elements element⟩
      have equal' : rest.length = parser.structBaseOffsetStack.length := equal
      have same := (frame.balanced.same (by rw [left, stack]; simp [equal'])).1
      rw [left, stack] at same
      obtain ⟨rfl, rfl⟩ := List.cons_eq_cons.mp same
      exact ⟨rfl, rfl⟩
  · rw [inPrimary outside] at frame
    rw [if_neg (by rw [sec']; exact outside)]
    exact ⟨frame.balanced.restore parser _ rfl rfl rfl, sec', frame.elements⟩

/-- A structure that is broken off leaves its entry on the stack of bases. -/
theorem Frame.brokenOff {structDef : StructDefinition UInt64} {parser last : Parser UInt64}
    (frame : Frame (enterStruct structDef parser) last) : Frame parser last := by
  obtain ⟨stack, sec, elements, -, inPrimary⟩ := enterStruct_stack structDef parser
  by_cases outside : parser.secOffsetStruct
  · rw [if_pos outside] at stack
    have height := frame.balanced.height
    rw [stack, List.length_cons] at height
    refine ⟨⟨Nat.le_of_succ_le height, fun equal => ?_⟩, frame.sec.trans sec,
      fun element => elements ▸ frame.elements element⟩
    omega
  · rwa [inPrimary outside] at frame

theorem parseMembers_settles {parseMember : StructMember UInt64 → Parsed UInt64 → Parse UInt64 Unit}
    (members : ∀ member parsed parser, Ready member parser parsed →
      Settles (Frame parser) (Frame parser) (parseMember member parsed parser))
    {base : UInt64} {first : Parser UInt64} (starts : StartsAt base first) (rest : List (StructMember UInt64))
    {parser : Parser UInt64} (frame : Frame first parser) :
    Settles (Frame first) (Frame first)
      (parseMembers parseMember first.primaryOffset base rest parser) := by
  -- The members that are still to come are parsed from where the ones before left off.
  induction rest generalizing parser with
  | nil => exact Agree.silent frame
  | cons member rest ih =>
    unfold parseMembers
    rw [modify_bind]
    generalize moved : (if parser.processingArrayElement then
      parser.setPrimaryOffset first.primaryOffset else parser) = current
    have frame' : Frame first current := by
      rw [← moved]
      split
      · exact frame.trans (Moved.setPrimaryOffset parser _).frame
      · exact frame
    have primary : current.processingArrayElement → current.primaryOffset = first.primaryOffset := by
      rw [← moved]
      split
      · exact fun _ => rfl
      · exact fun element => absurd element ‹_›
    have ready : Ready member current (.member base) := starts.later frame' primary
    refine Agree.bind (Agree.weaken (members member _ current ready)
      (fun _ _ later => frame'.trans later) fun _ later => frame'.trans later) ?_
    exact fun _ last later => ih later

/-- Whatever the depth, structures and members settle. -/
theorem parse_settles (catalog : AssetCatalog UInt64) (buffer : AssetBuffer UInt64) (depth : Nat) :
    (∀ name base parser, StartsAt base parser → Settles (Frame parser) (fun _ => False)
        (parseStruct catalog buffer depth name base parser)) ∧
      ∀ member parsed parser, Ready member parser parsed → Settles (Frame parser) (Frame parser)
        (parseMember catalog buffer depth member parsed parser) := by
  induction depth with
  | zero =>
    constructor
    · intro name base parser _
      unfold parseStruct
      exact Agree.overflow
    · intro member parsed parser _
      unfold parseMember
      exact Agree.overflow
  | succ depth ih =>
    obtain ⟨structs, members⟩ := ih
    constructor
    · intro name base parser starts
      unfold parseStruct
      rw [get_bind]
      -- What is left behind is noted, and that does not change it.
      suffices parsed : Agree Visit.Placed Visit.Unmisled (fun _ => Frame parser) (Frame parser) _ from
        Agree.bind (Agree.attempt parsed) fun _ last frame => Agree.entry Iff.rfl fun _ => frame
      cases catalog.getStruct name with
      | none => exact Agree.silent (Frame.refl parser)
      | some structDef =>
        simp only
        rw [modify_bind, modify_bind]
        have entered := starts.enterStruct structDef
        have primary := (enterStruct_stack structDef parser).2.2.2.1
        have parsed := parseMembers_settles members entered structDef.members (Moved.indent _ 1).frame
        rw [primary] at parsed
        refine Agree.bind (Agree.weaken parsed (fun _ _ frame => frame)
          fun _ frame => frame.brokenOff) ?_
        exact fun _ last frame =>
          Agree.silent (frame.trans (Moved.indent last (-1)).frame).leaveStruct
    · intro member parsed parser ready
      unfold parseMember
      cases catalog.getType member.typeName with
      | none => exact Agree.silent (Frame.refl parser)
      | some typeDef =>
        simp only
        split
        · rename_i array
          exact parseArray_settles structs members catalog buffer ready array
        · rename_i plain
          cases typeDef.type with
          | nullable => exact parseNullable_settles structs catalog buffer typeDef ready plain
          | struct => exact parseInline_settles structs typeDef ready plain
          | _ => exact parseValue_settles buffer typeDef ready plain

theorem parseRoots_settles (catalog : AssetCatalog UInt64) (buffer : AssetBuffer UInt64) (depth : Nat)
    (structTypes : List String) {first parser : Parser UInt64} (starts : StartsAt 0 first)
    (inPrimary : ¬ first.secOffsetStruct) (frame : Frame first parser) :
    Settles (Frame first) (fun _ => False)
      (parseRoots catalog buffer depth structTypes parser) := by
  induction structTypes generalizing parser with
  | nil => exact Agree.silent frame
  | cons structType rest ih =>
    have noElement : ¬ parser.processingArrayElement := fun element =>
      inPrimary (starts.elements (frame.elements element))
    have again : StartsAt 0 parser := starts.later frame fun element => absurd element noElement
    refine Agree.bind (Agree.weaken ((parse_settles catalog buffer depth).1 structType 0 parser again)
      (fun _ _ later => frame.trans later) fun _ => id) ?_
    exact fun _ last later => ih later

/--
Every member is parsed at its structure's base plus its offset exactly when the parser is never
misled about the base.
-/
theorem placed_iff_unmisled (catalog : AssetCatalog UInt64) (buffer : AssetBuffer UInt64) (depth : Nat)
    (fileType : FileTypeInfo UInt64) :
    (∀ visit ∈ (parse catalog buffer depth fileType).log, visit.Placed) ↔
      ∀ visit ∈ (parse catalog buffer depth fileType).log, visit.Unmisled := by
  unfold parse
  have starts : ∀ start, StartsAt 0 (initial start) := fun start =>
    ⟨id, nofun, fun _ _ => rfl⟩
  exact (parseRoots_settles catalog buffer depth _ (starts _) nofun (Frame.refl _)).log

/-- The structures of a phase, as the catalog has them. -/
def phaseCatalog : AssetCatalog UInt64 where
  types name :=
    match name with
    | "bool" => some ⟨.bool, 1, ""⟩
    | "char" => some ⟨.char, 1, ""⟩
    | "guid" => some ⟨.guid, 16, ""⟩
    | "key" => some ⟨.key, 4, ""⟩
    | "enum" => some ⟨.enum, 4, ""⟩
    | "array" => some ⟨.array, 4, ""⟩
    | _ => none
  structs name :=
    match name with
    | "cAssetProperty" =>
      some ⟨188, [.plain "char" 4 false, .plain "char" 88 false, .plain "guid" 84 false]⟩
    | "cGambitDefinition" =>
      some ⟨52, [.plain "key" 12 false, .array "cAssetProperty" 16 0, .plain "key" 36 false,
        .array "cAssetProperty" 16 0, .plain "bool" 48 false]⟩
    | "Phase" =>
      some ⟨0, [.plain "array" 0 false, .plain "enum" 4 false, .array "cGambitDefinition" 52 0,
        .plain "bool" 12 false]⟩
    | _ => none
  currentGameVersion := "5.3.0.103"

/-- A phase with one gambit, whose list of condition properties is there and empty. -/
def phaseBuffer : AssetBuffer UInt64 where
  data address := if address ∈ [52, 56, 84] then 1 else 0
  size := 256

/-- The ability of the gambit, which starts at 68, is looked for at 156 instead of 104. -/
theorem not_placed :
    ¬ ∀ (catalog : AssetCatalog UInt64) (buffer : AssetBuffer UInt64) (depth : Nat)
      (fileType : FileTypeInfo UInt64),
      ∀ visit ∈ (parse catalog buffer depth fileType).log, visit.Placed := by
  intro always
  have placed := always phaseCatalog phaseBuffer 4 ⟨["Phase"], 68, []⟩
  revert placed
  decide +kernel

end Parser
end Recap.Game
