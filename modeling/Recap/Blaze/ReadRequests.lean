import Recap.Blaze.Documents
import Recap.Blaze.Reading
import Recap.Blaze.Texts

/-! What is true of every request that has been read from a parsed document. -/

namespace Recap.Blaze

open Json (Gathered Modest)

/-- Whether the texts in a map are plain, and no more than a byte can count. -/
structure TidyMap (map : TextMap) : Prop where
  few : map.toList.length ≤ 255
  plain : ∀ entry ∈ map.toList, Plain entry.1 ∧ Plain entry.2

/-- Whether a request has the texts, numbers, and maps that come out of a parsed document. -/
structure CreateGameRequest.Tidy (request : CreateGameRequest) : Prop where
  administrators : ∀ value ∈ request.administrators, value.toUInt64.toNat < 2 ^ 55
  attributes : TidyMap request.attributes
  btpl : request.btpl.z.toNat < 2 ^ 55
  criteria : TidyMap request.criteria
  ctr : Plain request.ctr
  name : Plain request.name
  type : Plain request.type
  url : Plain request.url
  matr : TidyMap request.matr
  playerAttributes : TidyMap request.playerAttributes
  playgroupId : Plain request.playgroupId
  seat : ∀ value ∈ request.seat, value.toUInt64.toNat < 2 ^ 55
  version : Plain request.version

/-- Whether nothing has been put into the maps and lists of a request. -/
structure CreateGameRequest.Fresh (request : CreateGameRequest) : Prop where
  attributes : request.attributes = ∅
  playerAttributes : request.playerAttributes = ∅
  criteria : request.criteria = ∅
  matr : request.matr = ∅
  administrators : request.administrators = []
  seat : request.seat = []
  sidl : request.sidl = []
  capacity : request.capacity = []
  tids : request.tids = []

namespace Json

/-- A C string is plain where the text is short. -/
theorem cString_plain {text : Bytes} (short : text.length < sizeBound) : Plain (cString text) := by
  refine ⟨fun nul => absurd (List.mem_takeWhile_imp nul) (by decide), ?_⟩
  exact Nat.lt_of_le_of_lt (List.takeWhile_prefix _).length_le short

/-- A text that is got from a small value is plain. -/
theorem getString_plain {value : Json} {text : Bytes} (small : value.Small)
    (got : value.getString = .ok text) : Plain text := by
  cases small with
  | string size =>
    cases got
    exact cString_plain size
  | _ => cases got

/-- A member of what has been gathered is modest. -/
theorem Gathered.named {document value : Json} {label : String} (gathered : Gathered document)
    (found : document.named label = .ok value) : value.Modest := by
  cases document with
  | object members =>
    rw [Json.named, member] at found
    cases looked : find (ascii label) members with
    | none =>
      rw [looked] at found
      cases found
    | some held =>
      rw [looked] at found
      cases found
      exact gathered.modest members rfl _ (mem_of_find looked)
  | _ => cases found

/-- The content of a modest value is small, and as an object it has few members. -/
theorem Modest.content {value content : Json} (modest : value.Modest)
    (found : value.named "_Content" = .ok content) :
    content.Small ∧ ∀ entries, content = object entries → entries.length ≤ 255 := by
  cases value with
  | object members =>
    rw [Json.named, member] at found
    cases looked : find (ascii "_Content") members with
    | none =>
      rw [looked] at found
      cases found
    | some held =>
      rw [looked] at found
      cases found
      refine ⟨?_, fun entries same => modest.counted members entries rfl (same ▸ looked)⟩
      cases modest.small with
      | object _ values => exact values _ (mem_of_find looked)
  | _ => cases found

theorem textAt_plain {document : Json} {label : String} {text : Bytes} (gathered : Gathered document)
    (read : document.textAt label = .ok text) : Plain text := by
  obtain ⟨value, found, got⟩ := bind_eq_ok read
  exact getString_plain (gathered.named found).small got

/-- Every entry that is put into a map of plain texts makes it one longer at most. -/
theorem readTexts_tidy {map after : TextMap} {members : List (Bytes × Json)}
    (short : ∀ member ∈ members, member.1.length < sizeBound) (small : ∀ member ∈ members, member.2.Small)
    (plain : ∀ entry ∈ map.toList, Plain entry.1 ∧ Plain entry.2)
    (read : readTexts map members = .ok after) :
    after.size ≤ map.size + members.length ∧
      ∀ entry ∈ after.toList, Plain entry.1 ∧ Plain entry.2 := by
  -- The induction follows the loop over the members, each of which adds one entry or none.
  induction members generalizing map with
  | nil =>
    cases read
    exact ⟨Nat.le_refl _, plain⟩
  | cons member rest ih =>
    obtain ⟨name, value⟩ := member
    obtain ⟨text, got, later⟩ := bind_eq_ok read
    have textPlain := getString_plain (small _ List.mem_cons_self) got
    have namePlain := cString_plain (short _ List.mem_cons_self)
    have inserted : ∀ entry ∈ (map.insertIfNew (cString name) text).toList,
        Plain entry.1 ∧ Plain entry.2 := by
      intro entry present
      rw [Std.TreeMap.mem_toList_iff_getElem?_eq_some, Std.TreeMap.getElem?_insertIfNew] at present
      split at present
      · rename_i new
        cases present
        have same := Std.LawfulEqCmp.eq_of_compare new.1
        exact ⟨same ▸ namePlain, textPlain⟩
      · exact plain entry (Std.TreeMap.mem_toList_iff_getElem?_eq_some.mpr present)
    have bound : (map.insertIfNew (cString name) text).size ≤ map.size + 1 :=
      Std.TreeMap.size_insertIfNew_le
    obtain ⟨size, each⟩ := ih (fun other present => short other (List.mem_cons_of_mem _ present))
      (fun other present => small other (List.mem_cons_of_mem _ present)) inserted later
    refine ⟨?_, each⟩
    rw [List.length_cons]
    omega

theorem readMap_tidy {value : Json} {map : TextMap} (modest : value.Modest)
    (read : value.readMap ∅ = .ok map) : TidyMap map := by
  obtain ⟨content, found, later⟩ := bind_eq_ok read
  obtain ⟨members, got, texts⟩ := bind_eq_ok later
  obtain ⟨small, counted⟩ := modest.content found
  cases small with
  | object names values =>
    cases got
    obtain ⟨size, plain⟩ := readTexts_tidy names values (by simp) texts
    have few := counted _ rfl
    refine ⟨?_, plain⟩
    rw [Std.TreeMap.length_toList]
    have empty : (∅ : TextMap).size = 0 := rfl
    omega
  | _ => cases got

/-- What is read where a label is found is what was there, or comes from a member. -/
theorem readFound_cases {α : Type} {document : Json} {label : String} {unread value : α}
    {body : Json → Except Fault α} (gathered : Gathered document)
    (read : document.readFound label unread body = .ok value) :
    value = unread ∨ ∃ held : Json, held.Modest ∧ body held = .ok value := by
  cases document with
  | object members =>
    rw [readFound] at read
    cases looked : find (ascii label) members with
    | none =>
      rw [looked] at read
      cases read
      exact .inl rfl
    | some held =>
      rw [looked] at read
      exact .inr ⟨held, gathered.modest members rfl _ (mem_of_find looked), read⟩
  | _ => cases read

/-- A map under a label is tidy, whether the label is there or not. -/
theorem readFound_tidy {document : Json} {label : String} {map : TextMap} (gathered : Gathered document)
    (read : document.readFound label ∅ (fun found => found.readMap ∅) = .ok map) : TidyMap map := by
  rcases readFound_cases gathered read with rfl | ⟨held, modest, ran⟩
  · exact ⟨by simp, by simp⟩
  · exact readMap_tidy modest ran

/-- What a loop over a list returns comes from the items. -/
theorem mem_of_mapM {α β : Type} {body : α → Except Fault β} {items : List α} {values : List β}
    (ran : items.mapM body = .ok values) {value : β} (present : value ∈ values) :
    ∃ item ∈ items, body item = .ok value := by
  induction items generalizing values with
  | nil =>
    cases ran
    cases present
  | cons item rest ih =>
    rw [List.mapM_cons] at ran
    obtain ⟨first, got, later⟩ := bind_eq_ok ran
    obtain ⟨others, more, joined⟩ := bind_eq_ok later
    cases joined
    rcases List.mem_cons.mp present with rfl | behind
    · exact ⟨item, List.mem_cons_self, got⟩
    · obtain ⟨source, there, same⟩ := ih more behind
      exact ⟨source, List.mem_cons_of_mem _ there, same⟩

/-- A signed number that is got from a small value is not negative, and has few bits. -/
theorem getInt64_small {value : Json} {number : Int64} (small : value.Small)
    (got : value.getInt64 = .ok number) : number.toUInt64.toNat < 2 ^ 55 := by
  cases small with
  | @number held bits =>
    have word : held < 2 ^ 63 := Nat.lt_trans bits (by decide)
    rw [getInt64, if_pos word] at got
    cases got
    rw [Int64.toUInt64_ofNat', UInt64.toNat_ofNat_of_lt' (Nat.lt_trans bits (by decide))]
    exact bits
  | _ => cases got

theorem readItems_small {value : Json} {numbers : List Int64} (modest : value.Modest)
    (read : value.readItems getInt64 = .ok numbers) :
    ∀ number ∈ numbers, number.toUInt64.toNat < 2 ^ 55 := by
  obtain ⟨content, found, later⟩ := bind_eq_ok read
  obtain ⟨items, got, ran⟩ := bind_eq_ok later
  intro number present
  obtain ⟨item, there, from_item⟩ := mem_of_mapM ran present
  cases (modest.content found).1 with
  | array each =>
    cases got
    exact getInt64_small (each item there) from_item
  | _ => cases got

theorem readFound_small {document : Json} {label : String} {numbers : List Int64}
    (gathered : Gathered document)
    (read : document.readFound label [] (fun found => found.readItems getInt64) = .ok numbers) :
    ∀ number ∈ numbers, number.toUInt64.toNat < 2 ^ 55 := by
  rcases readFound_cases gathered read with rfl | ⟨held, modest, ran⟩
  · simp
  · exact readItems_small modest ran

/-- A member of a small value is small. -/
theorem Small.named {value found : Json} {label : String} (small : value.Small)
    (looked : value.named label = .ok found) : found.Small := by
  cases small with
  | @object members _ values =>
    rw [Json.named, member] at looked
    cases there : find (ascii label) members with
    | none =>
      rw [there] at looked
      cases looked
    | some held =>
      rw [there] at looked
      cases looked
      exact values _ (mem_of_find there)
  | _ => cases looked

end Json

theorem ObjectId.read_small {value : Json} {id : ObjectId} (small : value.Small)
    (read : ObjectId.read value = .ok id) : id.z.toNat < 2 ^ 55 := by
  obtain ⟨x, _, later⟩ := Json.bind_eq_ok read
  obtain ⟨y, _, later⟩ := Json.bind_eq_ok later
  obtain ⟨z, got, made⟩ := Json.bind_eq_ok later
  cases made
  obtain ⟨found, looked, number⟩ := Json.bind_eq_ok got
  cases small.named looked with
  | number bits =>
    cases number
    change (UInt64.ofNat z).toNat < 2 ^ 55
    rw [UInt64.toNat_ofNat_of_lt' (Nat.lt_trans bits (by decide))]
    exact bits
  | _ => cases number

/-- Whatever document a fresh request is read from, the request comes out tidy. -/
theorem CreateGameRequest.read_tidy {fresh request : CreateGameRequest} {members : List (Bytes × Json)}
    (empty : fresh.Fresh) (gathered : Gathered (.object members))
    (read : fresh.read (.object members) = .ok (some request)) : request.Tidy := by
  unfold CreateGameRequest.read at read
  rw [empty.attributes, empty.criteria, empty.matr, empty.playerAttributes, empty.administrators,
    empty.seat] at read
  -- The members are taken out in the order in which they are read.
  obtain ⟨administrators, readAdmn, read⟩ := Json.bind_eq_ok read
  obtain ⟨attr, foundAttr, read⟩ := Json.bind_eq_ok read
  obtain ⟨attributes, readAttr, read⟩ := Json.bind_eq_ok read
  obtain ⟨inBtpl, foundBtpl, read⟩ := Json.bind_eq_ok read
  obtain ⟨btpl, readBtpl, read⟩ := Json.bind_eq_ok read
  obtain ⟨criteria, readCrit, read⟩ := Json.bind_eq_ok read
  obtain ⟨ctr, readGctr, read⟩ := Json.bind_eq_ok read
  obtain ⟨name, readGnam, read⟩ := Json.bind_eq_ok read
  obtain ⟨settings, -, read⟩ := Json.bind_eq_ok read
  obtain ⟨type, readGtyp, read⟩ := Json.bind_eq_ok read
  obtain ⟨url, readGurl, read⟩ := Json.bind_eq_ok read
  obtain ⟨hnet, -, read⟩ := Json.bind_eq_ok read
  obtain ⟨hostNetwork, -, read⟩ := Json.bind_eq_ok read
  obtain ⟨ignored, -, read⟩ := Json.bind_eq_ok read
  obtain ⟨matr, readMatr, read⟩ := Json.bind_eq_ok read
  obtain ⟨resetable, -, read⟩ := Json.bind_eq_ok read
  obtain ⟨topology, -, read⟩ := Json.bind_eq_ok read
  obtain ⟨playerAttributes, readPatt, read⟩ := Json.bind_eq_ok read
  obtain ⟨pcap, -, read⟩ := Json.bind_eq_ok read
  obtain ⟨capacity, -, read⟩ := Json.bind_eq_ok read
  obtain ⟨playgroupId, readPgid, read⟩ := Json.bind_eq_ok read
  obtain ⟨playgroupSc, -, read⟩ := Json.bind_eq_ok read
  obtain ⟨maxPlayers, -, read⟩ := Json.bind_eq_ok read
  obtain ⟨presence, -, read⟩ := Json.bind_eq_ok read
  obtain ⟨queueCapacity, -, read⟩ := Json.bind_eq_ok read
  obtain ⟨rgid, -, read⟩ := Json.bind_eq_ok read
  obtain ⟨seat, readSeat, read⟩ := Json.bind_eq_ok read
  obtain ⟨sidl, -, read⟩ := Json.bind_eq_ok read
  obtain ⟨slot, -, read⟩ := Json.bind_eq_ok read
  obtain ⟨tcap, -, read⟩ := Json.bind_eq_ok read
  obtain ⟨tids, -, read⟩ := Json.bind_eq_ok read
  obtain ⟨tIndex, -, read⟩ := Json.bind_eq_ok read
  obtain ⟨version, readVstr, read⟩ := Json.bind_eq_ok read
  split at read
  · cases read
    exact {
      administrators := Json.readFound_small gathered readAdmn
      attributes := Json.readMap_tidy (gathered.named foundAttr) readAttr
      btpl := ObjectId.read_small (gathered.named foundBtpl).small readBtpl
      criteria := Json.readFound_tidy gathered readCrit
      ctr := Json.textAt_plain gathered readGctr
      name := Json.textAt_plain gathered readGnam
      type := Json.textAt_plain gathered readGtyp
      url := Json.textAt_plain gathered readGurl
      matr := Json.readFound_tidy gathered readMatr
      playerAttributes := Json.readFound_tidy gathered readPatt
      playgroupId := Json.textAt_plain gathered readPgid
      seat := Json.readFound_small gathered readSeat
      version := Json.textAt_plain gathered readVstr }
  · cases read

end Recap.Blaze
