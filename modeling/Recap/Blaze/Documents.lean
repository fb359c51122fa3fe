import Recap.Blaze.Tdf
import Recap.Core.TdfInteger

/-! What is true of every document that the parser makes, whatever bytes it is made of. -/

namespace Recap.Blaze

/-- Whether the numbers, texts and names of a document have the sizes that the parser gives them. -/
inductive Json.Small : Json → Prop where
  | null : Small .null
  | bool (value : Bool) : Small (.bool value)
  | number {value : Nat} (bits : value < 2 ^ 55) : Small (.number value)
  | string {text : Bytes} (size : text.length < sizeBound) : Small (.string text)
  | array {items : List Json} (each : ∀ item ∈ items, Small item) : Small (.array items)
  | object {members : List (Bytes × Json)} (names : ∀ member ∈ members, member.1.length < sizeBound)
    (values : ∀ member ∈ members, Small member.2) : Small (.object members)

namespace Json

/-- Whether the content of a value, where it is an object, has no more members than a byte can count. -/
def Counted (value : Json) : Prop :=
  ∀ members entries, value = object members → find (ascii "_Content") members = some (object entries) →
    entries.length ≤ 255

/-- What is known of a value that stands under a header. -/
structure Modest (value : Json) : Prop where
  small : value.Small
  counted : value.Counted

/-- What is known of an object or array that values with headers are added to. -/
structure Gathered (parent : Json) : Prop where
  small : parent.Small
  noContent : ∀ members, parent = object members → ascii "_Content" ∉ members.map Prod.fst
  modest : ∀ members, parent = object members → ∀ member ∈ members, member.2.Modest

/-- What has been gathered has no content, and so it is modest itself. -/
theorem Gathered.toModest {parent : Json} (gathered : Gathered parent) : Modest parent where
  small := gathered.small
  counted := by
    intro members entries same found
    rw [find_none (gathered.noContent members same)] at found
    cases found

/-- What is no object is modest where it is small. -/
theorem Modest.of_other {value : Json} (small : value.Small) (other : ∀ members, value ≠ object members) :
    Modest value :=
  ⟨small, fun members _ same => absurd same (other members)⟩

theorem Small.ofText (text : Bytes) : Small (ofText text) := by
  refine Small.string ?_
  rw [List.length_take]
  exact Nat.lt_of_le_of_lt (Nat.min_le_left _ _) (Nat.mod_lt _ (by decide))

/-- A member that is found is one of the members. -/
theorem mem_of_find {name : Bytes} {members : List (Bytes × Json)} {value : Json}
    (found : find name members = some value) : (name, value) ∈ members := by
  induction members with
  | nil => cases found
  | cons member rest ih =>
    obtain ⟨key, held⟩ := member
    rw [find] at found
    split at found
    · rename_i same
      cases found
      exact same ▸ List.mem_cons_self
    · exact List.mem_cons_of_mem _ (ih found)

/-- Replacing a member leaves the names as they are. -/
theorem names_replaceFirst (name : Bytes) (value : Json) (members : List (Bytes × Json)) :
    (replaceFirst name value members).map Prod.fst = members.map Prod.fst := by
  induction members with
  | nil => rfl
  | cons member rest ih =>
    obtain ⟨key, held⟩ := member
    rw [replaceFirst]
    split
    · rfl
    · rw [List.map_cons, List.map_cons, ih]

/-- Every member behind a replacement was there before, or holds the new value. -/
theorem mem_replaceFirst {name : Bytes} {value : Json} {members : List (Bytes × Json)}
    {member : Bytes × Json} (present : member ∈ replaceFirst name value members) :
    member ∈ members ∨ member.2 = value := by
  induction members with
  | nil => cases present
  | cons first rest ih =>
    obtain ⟨key, held⟩ := first
    rw [replaceFirst] at present
    split at present
    · rcases List.mem_cons.mp present with rfl | later
      · exact .inr rfl
      · exact .inl (List.mem_cons_of_mem _ later)
    · rcases List.mem_cons.mp present with rfl | later
      · exact .inl List.mem_cons_self
      · exact (ih later).imp (List.mem_cons_of_mem _) id

end Json

namespace Parser

open Json

/-- A label is at most four characters. -/
theorem decompressLabel_length (label : Nat) : (decompressLabel label).length ≤ 4 := by
  have each : ∀ packed i, (decompressCharacter packed i).length ≤ 1 := by
    intro packed i
    unfold decompressCharacter
    dsimp only
    split
    · exact Nat.le_refl _
    · exact Nat.zero_le _
  have first := each (bswap32 label >>> 8) 0
  have second := each (bswap32 label >>> 8) 1
  have third := each (bswap32 label >>> 8) 2
  have fourth := each (bswap32 label >>> 8) 3
  simp only [decompressLabel, List.flatMap_cons, List.flatMap_nil, List.length_append,
    List.length_nil]
  omega

/-- A value is added to what has been gathered under a short name, or behind its items. -/
theorem addObject_gathered {header : Header} {value parent : Json} (short : header.label.length ≤ 4)
    (modest : value.Modest) (gathered : parent.Gathered) : (addObject header value parent).Gathered := by
  cases parent with
  | object members =>
    have other : header.label ≠ ascii "_Content" := by
      intro same
      rw [same] at short
      exact absurd short (by decide)
    have size : header.label.length < sizeBound := Nat.lt_of_le_of_lt short (by decide)
    have noContent := gathered.noContent members rfl
    have held := gathered.modest members rfl
    cases gathered.small with
    | object names values =>
      rw [addObject]
      split
      · -- The member of that name gets the new value.
        refine ⟨Small.object ?_ ?_, ?_, ?_⟩
        · intro member present
          have named : member.1 ∈ (replaceFirst header.label value members).map Prod.fst :=
            List.mem_map_of_mem present
          rw [names_replaceFirst] at named
          obtain ⟨before, there, same⟩ := List.mem_map.mp named
          exact same ▸ names before there
        · intro member present
          rcases mem_replaceFirst present with before | new
          · exact values member before
          · exact new ▸ modest.small
        · intro others same
          cases same
          rw [names_replaceFirst]
          exact noContent
        · intro others same member present
          cases same
          rcases mem_replaceFirst present with before | new
          · exact held member before
          · exact new ▸ modest
      · -- There is none, and so it comes behind the others.
        refine ⟨Small.object ?_ ?_, ?_, ?_⟩
        · intro member present
          rcases List.mem_append.mp present with before | new
          · exact names member before
          · rw [List.mem_singleton.mp new]
            exact size
        · intro member present
          rcases List.mem_append.mp present with before | new
          · exact values member before
          · rw [List.mem_singleton.mp new]
            exact modest.small
        · intro others same
          cases same
          rw [List.map_append, List.mem_append, not_or]
          exact ⟨noContent, fun new => other (List.mem_singleton.mp new).symm⟩
        · intro others same member present
          cases same
          rcases List.mem_append.mp present with before | new
          · exact held member before
          · rw [List.mem_singleton.mp new]
            exact modest
  | array items =>
    cases gathered.small with
    | array each =>
      refine ⟨Small.array ?_, fun _ same => ?_, fun _ same => ?_⟩
      · intro item present
        rcases List.mem_append.mp present with before | new
        · exact each item before
        · rw [List.mem_singleton.mp new]
          exact modest.small
      · cases same
      · cases same
  | _ => exact gathered

/-! ## What each part of the parser makes -/

open Program (Gives)

theorem readU8_gives : Gives (· < 256) readU8 := Gives.act Reader.read_one_lt

theorem readU64_gives : Gives (· < 2 ^ 55) readU64 := Gives.act Reader.decodeTdfInteger_lt

theorem readHeader_gives : Gives (fun header => header.label.length ≤ 4) readHeader :=
  (Gives.any _).bind fun _ _ => Gives.pure (decompressLabel_length _)

theorem readInteger_number :
    Gives (fun value => ∃ bits < 2 ^ 55, value = Json.number bits) readInteger :=
  readU64_gives.bind fun value bits => Gives.pure ⟨value, bits, rfl⟩

theorem readInteger_gives : Gives Modest readInteger := by
  refine readInteger_number.imp fun _ number => ?_
  obtain ⟨value, bits, rfl⟩ := number
  exact Modest.of_other (Small.number bits) (by simp)

theorem ofText_modest (text : Bytes) : Modest (ofText text) :=
  Modest.of_other (Small.ofText text) (by simp [ofText])

theorem readString_gives (env : Env) : Gives Modest (readString env) :=
  (Gives.any _).bind fun text _ => Gives.pure (ofText_modest text)

theorem readBlob_gives (env : Env) : Gives Modest (readBlob env) :=
  (Gives.any _).bind fun _ _ => (Gives.any _).bind fun text _ => Gives.pure (ofText_modest text)

/-- Members under short names, which hold small values, make a small object. -/
theorem small_object {members : List (Bytes × Json)}
    (each : ∀ member ∈ members, member.1.length < sizeBound ∧ member.2.Small) :
    Small (.object members) :=
  Small.object (fun member present => (each member present).1) fun member present =>
    (each member present).2

variable {env : Env} {fuel : Nat} {rv : Json → Parse Json}

/-- A loop over values with headers gathers them. -/
theorem readFields_gives (values : ∀ parent, Gathered parent → Gives Gathered (rv parent))
    {parent : Json} (gathered : Gathered parent) : Gives Gathered (readFields env rv fuel parent) :=
  (Gives.loop values fuel gathered).bind fun _ more => (Gives.any _).bind fun _ _ => Gives.pure more

/-- What stands in front of a content, or of gathered values: numbers and marks under names of their own. -/
def Front (members : List (Bytes × Json)) : Prop :=
  ∀ member ∈ members, (member.1.length < sizeBound ∧ member.1 ≠ ascii "_Content") ∧
    ((∃ value < 2 ^ 55, member.2 = .number value) ∨ ∃ flag, member.2 = .bool flag)

theorem Front.nil : Front [] := by simp [Front]

theorem Front.number (name : Bytes) {value : Nat} {members : List (Bytes × Json)}
    (named : name.length < sizeBound ∧ name ≠ ascii "_Content") (bits : value < 2 ^ 55)
    (rest : Front members) : Front ((name, .number value) :: members) := by
  intro member present
  rcases List.mem_cons.mp present with rfl | later
  · exact ⟨named, .inl ⟨value, bits, rfl⟩⟩
  · exact rest member later

theorem Front.bool (name : Bytes) (flag : Bool) {members : List (Bytes × Json)}
    (named : name.length < sizeBound ∧ name ≠ ascii "_Content") (rest : Front members) :
    Front ((name, .bool flag) :: members) := by
  intro member present
  rcases List.mem_cons.mp present with rfl | later
  · exact ⟨named, .inr ⟨flag, rfl⟩⟩
  · exact rest member later

/-- A number or a mark is small, and no object. -/
theorem Front.modest {members : List (Bytes × Json)} (front : Front members) {member : Bytes × Json}
    (present : member ∈ members) : Modest member.2 := by
  rcases (front member present).2 with ⟨value, bits, same⟩ | ⟨flag, same⟩
  · rw [same]
    exact Modest.of_other (Small.number bits) (by simp)
  · rw [same]
    exact Modest.of_other (Small.bool flag) (by simp)

/-- Values with headers are gathered behind it. -/
theorem Front.gathered {members : List (Bytes × Json)} (front : Front members) :
    Gathered (.object members) where
  small := small_object fun member present => ⟨(front member present).1.1, (front.modest present).small⟩
  noContent := by
    intro others same present
    cases same
    obtain ⟨member, there, named⟩ := List.mem_map.mp present
    exact (front member there).1.2 named
  modest := by
    intro others same member present
    cases same
    exact front.modest present

/-- A content may stand behind it that is small, and that a byte can count. -/
theorem Front.content {members : List (Bytes × Json)} (front : Front members) {content : Json}
    (small : content.Small) (counted : ∀ entries, content = .object entries → entries.length ≤ 255) :
    Modest (.object (members ++ [(ascii "_Content", content)])) where
  small := by
    refine small_object fun member present => ?_
    rcases List.mem_append.mp present with before | new
    · exact ⟨(front member before).1.1, (front.modest before).small⟩
    · rw [List.mem_singleton.mp new]
      exact ⟨(by decide : (ascii "_Content").length < sizeBound), small⟩
  counted := by
    intro others entries same found
    cases same
    -- Nothing in front has that name, so it is the content that is found.
    rcases List.mem_append.mp (mem_of_find found) with before | new
    · exact absurd rfl (front _ before).1.2
    · cases List.mem_singleton.mp new
      exact counted entries rfl

theorem readStruct_gives (values : ∀ parent, Gathered parent → Gives Gathered (rv parent)) :
    Gives Modest (readStruct env rv fuel) := by
  have front := Front.nil.number (ascii "_Type") (by decide)
    (by decide : Kind.struct.toNat < 2 ^ 55)
  exact (readFields_gives values front.gathered).imp fun _ gathered => gathered.toModest

theorem readUnion_gives (values : ∀ parent, Gathered parent → Gives Gathered (rv parent)) :
    Gives Modest (readUnion rv) := by
  refine readU8_gives.bind fun addressMember byte => ?_
  have front := (Front.nil.number (ascii "_AddressMember") (by decide)
    (Nat.lt_trans byte (by decide))).number (ascii "_Type") (by decide)
    (by decide : Kind.union.toNat < 2 ^ 55)
  split
  · exact (values _ front.gathered).imp fun _ gathered => gathered.toModest
  · exact Gives.pure front.gathered.toModest

theorem readItem_gives (values : ∀ parent, Gathered parent → Gives Gathered (rv parent)) (kind : Kind) :
    Gives Small ((readItem env rv fuel kind).getD (pure .null)) := by
  cases kind with
  | integer => exact readInteger_gives.imp fun _ modest => modest.small
  | string => exact (readString_gives env).imp fun _ modest => modest.small
  | struct => exact (readStruct_gives values).imp fun _ modest => modest.small
  | _ => exact Gives.pure Small.null

/-- Whether a value is a small array. -/
def SmallArray (value : Json) : Prop := ∃ items, value = .array items ∧ ∀ item ∈ items, item.Small

theorem SmallArray.nil : SmallArray (.array []) := ⟨[], rfl, by simp⟩

theorem SmallArray.pushBack {value item : Json} (array : SmallArray value) (small : item.Small) :
    SmallArray (value.pushBack item) := by
  obtain ⟨items, rfl, each⟩ := array
  refine ⟨items ++ [item], rfl, fun other present => ?_⟩
  rcases List.mem_append.mp present with before | new
  · exact each other before
  · rw [List.mem_singleton.mp new]
    exact small

/-- Values with headers are added to an array behind its items. -/
theorem addObject_array {parent : Json} (array : ∃ items, parent = .array items) (header : Header)
    (value : Json) : ∃ items, addObject header value parent = .array items := by
  obtain ⟨items, rfl⟩ := array
  exact ⟨_, rfl⟩

/-- Lists with nothing but their items gather as well as objects do. -/
theorem SmallArray.gathered {value : Json} (array : SmallArray value) : Gathered value := by
  obtain ⟨items, rfl, each⟩ := array
  refine ⟨Small.array each, fun _ same => ?_, fun _ same => ?_⟩
  · cases same
  · cases same

/-- What is known of the loop over values: objects and arrays gather, and arrays stay arrays. -/
structure GivesBack (rv : Json → Parse Json) : Prop where
  gathered : ∀ parent, Gathered parent → Gives Gathered (rv parent)
  array : ∀ parent, (∃ items, parent = .array items) →
    Gives (fun after => ∃ items, after = .array items) (rv parent)

theorem readListContent_gives (values : GivesBack rv) (kind : Kind) (listSize : Nat) (stub : Bool) :
    Gives SmallArray (readListContent env rv fuel kind listSize stub) := by
  unfold readListContent
  split
  · -- A stub list is a loop over values with headers, which it takes as its items.
    refine (Gives.any _).bind fun _ _ => ?_
    have gathered : Gives Gathered (readFields env rv fuel (.array [])) :=
      readFields_gives values.gathered SmallArray.nil.gathered
    have array : Gives (fun after => ∃ items, after = Json.array items)
        (readFields env rv fuel (.array [])) :=
      (Gives.loop values.array fuel ⟨[], rfl⟩).bind fun _ more =>
        (Gives.any _).bind fun _ _ => Gives.pure more
    refine (gathered.and array).imp fun after both => ?_
    obtain ⟨known, items, rfl⟩ := both
    cases known.small with
    | array each => exact ⟨items, rfl, each⟩
  · split
    · rename_i item found
      have given : Gives Small ((readItem env rv fuel kind).getD (pure .null)) :=
        readItem_gives values.gathered kind
      rw [found, Option.getD_some] at given
      refine Gives.repeated (fun _ => SmallArray) (fun _ content array => ?_) listSize 0 SmallArray.nil
      exact given.bind fun _ small => Gives.pure (array.pushBack small)
    · exact Gives.pure SmallArray.nil

theorem readList_gives (values : GivesBack rv) : Gives Modest (readList env rv fuel) := by
  refine readU8_gives.bind fun listType typed => readU8_gives.bind fun listSize sized =>
    (Gives.any _).bind fun ahead _ => ?_
  refine (readListContent_gives values _ _ _).bind fun content array => Gives.pure ?_
  obtain ⟨items, rfl, each⟩ := array
  have front := ((((Front.nil.bool (ascii "_Stub")
    (decide (ahead = 0x02 ∧ Kind.ofNat listType = .struct)) (by decide)).number
    (ascii "_ListSize") (by decide) (Nat.lt_trans sized (by decide))).number
    (ascii "_ListType") (by decide) (Nat.lt_trans typed (by decide))).number
    (ascii "_Type") (by decide) (by decide : Kind.list.toNat < 2 ^ 55))
  exact front.content (Small.array each) fun _ same => by cases same

theorem readIntegerList_gives : Gives Modest readIntegerList := by
  refine readU8_gives.bind fun listSize sized => ?_
  have round : ∀ (index : Nat) content, SmallArray content →
      Gives SmallArray (do return Json.pushBack content (← readInteger)) := fun _ content array =>
    readInteger_gives.bind fun _ modest => Gives.pure (array.pushBack modest.small)
  refine (Gives.repeated (fun _ => SmallArray) round listSize 0 SmallArray.nil).bind fun content array => Gives.pure ?_
  obtain ⟨items, rfl, each⟩ := array
  have front := (Front.nil.number (ascii "_ListSize") (by decide)
    (Nat.lt_trans sized (by decide))).number (ascii "_Type") (by decide)
    (by decide : Kind.integerList.toNat < 2 ^ 55)
  exact front.content (Small.array each) fun _ same => by cases same

/-- The decimal digits of a number that the parser makes are few. -/
theorem toDecimal_short {value : Nat} (bits : value < 2 ^ 55) : (toDecimal value).length < sizeBound := by
  have few : (Nat.digits 10 value).length ≤ 17 := by
    rw [Nat.digits_length_le_iff (by decide)]
    exact Nat.lt_of_lt_of_le bits (by decide)
  unfold toDecimal
  split
  · decide
  · rw [List.length_map, List.length_reverse]
    exact Nat.lt_of_le_of_lt few (by decide)

/-- A key that is small has a name that is short. -/
theorem mapKey_short {keys : Kind} {key : Json} {name : Bytes} (small : key.Small)
    (named : mapKey keys key = .ok name) : name.length < sizeBound := by
  cases small with
  | number bits =>
    cases keys with
    | integer =>
      cases named
      exact toDecimal_short bits
    | _ => cases named
  | string size =>
    cases keys <;> cases named <;> exact size
  | _ => cases keys <;> cases named

/-- Whether a value is a small object with a number of members at most. -/
def SmallEntries (count : Nat) (value : Json) : Prop :=
  ∃ members, value = .object members ∧ members.length ≤ count ∧
    ∀ member ∈ members, member.1.length < sizeBound ∧ member.2.Small

theorem readEntry_gives (values : GivesBack rv) (keys kind : Kind) (count : Nat) {content : Json}
    (entries : SmallEntries count content) :
    Gives (SmallEntries (count + 1)) (readEntry env rv fuel keys kind content) := by
  refine (readItem_gives values.gathered keys).bind fun key keySmall =>
    (readItem_gives values.gathered kind).bind fun value valueSmall => ?_
  split
  · rename_i name named
    obtain ⟨members, rfl, few, each⟩ := entries
    refine Gives.pure ⟨members ++ [(name, value)], rfl, ?_, fun member present => ?_⟩
    · rw [List.length_append, List.length_singleton]
      exact Nat.succ_le_succ few
    · rcases List.mem_append.mp present with before | new
      · exact each member before
      · rw [List.mem_singleton.mp new]
        exact ⟨mapKey_short keySmall named, valueSmall⟩
  · exact Gives.throw _

theorem readMap_gives (values : GivesBack rv) : Gives Modest (readMap env rv fuel) := by
  refine readU8_gives.bind fun keyType keyed => readU8_gives.bind fun valueType valued =>
    readU8_gives.bind fun mapSize sized => ?_
  have start : SmallEntries 0 (.object []) := ⟨[], rfl, Nat.le_refl _, by simp⟩
  refine (Gives.repeated SmallEntries (fun count content entries =>
    readEntry_gives values _ _ count entries) mapSize 0 start).bind fun content entries => Gives.pure ?_
  obtain ⟨members, rfl, few, each⟩ := entries
  have front := (((Front.nil.number (ascii "_MapSize") (by decide)
    (Nat.lt_trans sized (by decide))).number (ascii "_ValueType") (by decide)
    (Nat.lt_trans valued (by decide))).number (ascii "_KeyType") (by decide)
    (Nat.lt_trans keyed (by decide))).number (ascii "_Type") (by decide)
    (by decide : Kind.map.toNat < 2 ^ 55)
  refine front.content (small_object each) fun entries same => ?_
  cases same
  omega

theorem readObjectType_gives : Gives Modest readObjectType := by
  refine readInteger_number.bind fun _ first => readInteger_number.bind fun _ second =>
    Gives.pure ?_
  obtain ⟨x, xBits, rfl⟩ := first
  obtain ⟨y, yBits, rfl⟩ := second
  have front := ((Front.nil.number (ascii "_Y") (by decide) yBits).number (ascii "_X") (by decide)
    xBits).number (ascii "_Type") (by decide) (by decide : Kind.objectType.toNat < 2 ^ 55)
  exact front.gathered.toModest

theorem readObjectId_gives : Gives Modest readObjectId := by
  refine readInteger_number.bind fun _ first => readInteger_number.bind fun _ second =>
    readInteger_number.bind fun _ third => Gives.pure ?_
  obtain ⟨x, xBits, rfl⟩ := first
  obtain ⟨y, yBits, rfl⟩ := second
  obtain ⟨z, zBits, rfl⟩ := third
  have front := (((Front.nil.number (ascii "_Z") (by decide) zBits).number (ascii "_Y") (by decide)
    yBits).number (ascii "_X") (by decide) xBits).number (ascii "_Type") (by decide)
    (by decide : Kind.objectId.toNat < 2 ^ 55)
  exact front.gathered.toModest

/-- Whatever follows a header, the value that comes of it is modest. -/
theorem readTyped_gives (values : GivesBack rv) {kind : Kind} {typed : Parse Json}
    (reader : readTyped env rv fuel kind = some typed) : Gives Modest typed := by
  unfold readTyped at reader
  split at reader
  · exact Option.some.inj reader ▸ readInteger_gives
  · exact Option.some.inj reader ▸ readString_gives env
  · exact Option.some.inj reader ▸ readBlob_gives env
  · exact Option.some.inj reader ▸ readStruct_gives values.gathered
  · exact Option.some.inj reader ▸ readUnion_gives values.gathered
  · exact Option.some.inj reader ▸ readList_gives values
  · exact Option.some.inj reader ▸ readMap_gives values
  · exact Option.some.inj reader ▸ readIntegerList_gives
  · exact Option.some.inj reader ▸ readObjectType_gives
  · exact Option.some.inj reader ▸ readObjectId_gives
  · cases reader

/-- What adding a value leaves true of a parent, reading one leaves true of it. -/
theorem readValue_kept {met : Json → Prop}
    (added : ∀ header value parent, met parent → met (addObject header value parent)) (env : Env)
    (fuel : Nat) {parent : Json} (kept : met parent) : Gives met (readValue env fuel parent) := by
  cases fuel with
  | zero => exact fun _ _ _ impossible => absurd impossible (by simp [readValue])
  | succ fuel =>
    refine (Gives.any _).bind fun header _ => (Gives.any _).bind fun ended _ => ?_
    split
    · exact Gives.pure kept
    · split
      · exact (Gives.any _).bind fun value _ => Gives.pure (added header value parent kept)
      · exact Gives.pure kept

/-- Reading a value gathers it, and leaves an array an array. -/
theorem readValue_givesBack (env : Env) (fuel : Nat) : GivesBack (readValue env fuel) := by
  -- The induction follows the nesting of values.
  induction fuel with
  | zero =>
    have nothing : ∀ (met : Json → Prop) parent, Gives met (readValue env 0 parent) :=
      fun _ _ _ _ _ impossible => absurd impossible (by simp [readValue])
    exact ⟨fun parent _ => nothing _ parent, fun parent _ => nothing _ parent⟩
  | succ fuel ih =>
    constructor
    · intro parent gathered
      refine readHeader_gives.bind fun header short => (Gives.any _).bind fun ended _ => ?_
      split
      · exact Gives.pure gathered
      · split
        · rename_i typed reader
          exact (readTyped_gives ih reader).bind fun value modest =>
            Gives.pure (addObject_gathered short modest gathered)
        · exact Gives.pure gathered
    · intro parent array
      exact readValue_kept (fun header value _ before => addObject_array before header value) env
        (fuel + 1) array

/-- Whatever bytes it is made of, a document that is parsed has gathered modest values. -/
theorem read_gives (env : Env) (fuel : Nat) : Gives Gathered (read env fuel) :=
  Gives.loop (readValue_givesBack env fuel).gathered fuel Front.nil.gathered

/-- A document that is parsed is an object. -/
theorem read_object (env : Env) (fuel : Nat) :
    Gives (fun document => ∃ members, document = .object members) (read env fuel) := by
  refine Gives.loop (fun parent object => readValue_kept ?_ env fuel object) fuel ⟨[], rfl⟩
  intro header value before object
  obtain ⟨members, rfl⟩ := object
  rw [addObject]
  split
  · exact ⟨_, rfl⟩
  · exact ⟨_, rfl⟩

end Parser
end Recap.Blaze
