import Recap.Blaze.Fields
import Recap.Blaze.ReadRequests
import Recap.Blaze.StubLists
import Recap.Core.DataBufferAppend

/-! Reading a request for a game from what a request for a game was written as. -/

namespace Recap.Blaze

open Packet Call

namespace CreateGameRequest

/-! ## The tree of a request -/

/-- The fields in front of the addresses of the host, with what is kept of each list of integers. -/
def front (keep : List Nat → List Nat) (request : CreateGameRequest) : List (Bytes × Value) :=
  [(ascii "ADMN", .integers (keep (request.administrators.map fun value => value.toUInt64.toNat))),
    (ascii "ATTR", .textMap request.attributes),
    (ascii "BTPL", .objectId request.btpl.x.toNat request.btpl.y.toNat request.btpl.z.toNat),
    (ascii "CRIT", .textMap request.criteria), (ascii "GCTR", .string request.ctr),
    (ascii "GNAM", .string request.name), (ascii "GSET", .integer request.settings.toNat),
    (ascii "GTYP", .string request.type), (ascii "GURL", .string request.url)]

/-- The fields behind them. -/
def back (keep : List Nat → List Nat) (request : CreateGameRequest) : List (Bytes × Value) :=
  [(ascii "IGNO", .integer (if request.ignore then 1 else 0)), (ascii "MATR", .textMap request.matr),
    (ascii "NRES", .integer (if !request.resetable then 1 else 0)),
    (ascii "NTOP", .integer request.networkTopology.toNat),
    (ascii "PATT", .textMap request.playerAttributes),
    (ascii "PCAP", .integers (keep (request.capacity.map UInt16.toNat))),
    (ascii "PGID", .string request.playgroupId), (ascii "PGSR", .blob []),
    (ascii "PMAX", .integer request.maxPlayers.toNat), (ascii "PRES", .integer request.presence.toNat),
    (ascii "QCAP", .integer request.queueCapacity.toNat), (ascii "RGID", .integer request.rgid.toNat),
    (ascii "SEAT", .integers (keep (request.seat.map fun value => value.toUInt64.toNat))),
    (ascii "SIDL", .integers (keep (request.sidl.map UInt32.toNat))),
    (ascii "SLOT", .integer request.slot.toNat), (ascii "TCAP", .integer request.tcap.toNat),
    (ascii "TIDS", .integers (keep (request.tids.map UInt16.toNat))),
    (ascii "TIDX", .integer request.tIndex.toNat), (ascii "VOIP", .integer 0),
    (ascii "VSTR", .string request.version)]

/-- The members of an address. -/
def address (ip : IpAddress) : Value :=
  .struct (.of [(ascii "IP", .integer ip.address.toNat), (ascii "PORT", .integer ip.port.toNat)])

/-- The addresses of the host. -/
def hosts (pair : IpPairAddress) : Members :=
  .of [(ascii "EXIP", address pair.exip), (ascii "INIP", address pair.inip)]

/-- The list of the addresses, which has one struct with both. -/
def hostList (pair : IpPairAddress) : Members := .cons (ascii "") (.struct (hosts pair)) .nil

/-- The calls that write a request put its fields, the list of addresses, and its other fields. -/
theorem write_eq (request : CreateGameRequest) :
    request.write = (Members.of (front id request)).calls ++ hostAddresses request.hostNetwork ++
      (Members.of (back id request)).calls := by
  simp only [Members.calls_of, front, back, List.flatMap_cons, List.flatMap_nil, Value.integers_calls,
    Value.textMap_calls, id]
  simp only [write, List.append_assoc, Value.calls, List.cons_append, List.nil_append, List.append_nil]
  rfl

theorem hosts_adds (pair : IpPairAddress) :
    Adds (hostAddresses pair) [(ascii "HNET", stubList (hostList pair))] :=
  fun packet => packet.calls_stubList (ascii "HNET") (hostList pair)

/-- What the builder holds for a request. -/
theorem document_eq (request : CreateGameRequest) :
    (Packet.empty.calls request.write).document = .object
      ((Members.of (front id request)).document ++
        [(ascii "HNET", stubList (hostList request.hostNetwork))] ++
        (Members.of (back id request)).document) := by
  have adds := (Adds.append (fun packet => packet.calls_members (.of (front id request)))
    (hosts_adds request.hostNetwork)).append fun packet => packet.calls_members (.of (back id request))
  rw [← write_eq] at adds
  rw [adds]
  simp only [Packet.empty, Json.modifyAt, Json.addAll_object, List.nil_append]

end CreateGameRequest

/-! ## What a tidy request is written as -/

/-- A value that is well formed, and takes no more than a fixed number of bytes. -/
def Value.Fits (value : Value) : Prop := value.WellFormed ∧ value.bytes.length ≤ 2 ^ 43

namespace Value

theorem fits_integer {value : Nat} (small : value < 2 ^ 55) : (integer value).Fits := by
  have length : (tdfBytes value).length ≤ 10 := tdfBytes_length_le (Nat.lt_trans small (by decide))
  exact ⟨small, Nat.le_trans length (by decide)⟩

theorem fits_string {text : Bytes} (plain : Plain text) : (string text).Fits :=
  ⟨plain, Nat.le_trans (textBytes_length_le plain) (by decide)⟩

theorem fits_integers {values : List Nat} (small : ∀ value ∈ values, value < 2 ^ 55) :
    (integers (fewer values)).Fits :=
  ⟨integers_wellFormed small, Nat.le_trans (integers_length small) (by decide)⟩

theorem fits_textMap {map : TextMap} (tidy : TidyMap map) : (textMap map).Fits :=
  ⟨textMap_wellFormed tidy.few tidy.plain, textMap_length tidy.few tidy.plain⟩

theorem fits_objectId {x y z : Nat} (one : x < 2 ^ 16) (two : y < 2 ^ 16) (three : z < 2 ^ 55) :
    (objectId x y z).Fits := by
  refine ⟨⟨one, two, three⟩, ?_⟩
  have first : (tdfBytes x).length ≤ 10 := tdfBytes_length_le (by omega)
  have second : (tdfBytes y).length ≤ 10 := tdfBytes_length_le (by omega)
  have third : (tdfBytes z).length ≤ 10 := tdfBytes_length_le (by omega)
  simp only [Value.bytes, List.length_append]
  omega

theorem fits_flag (on : Bool) : (integer (if on then 1 else 0)).Fits := by
  apply fits_integer
  split <;> decide

theorem fits_uint16 (value : UInt16) : (integer value.toNat).Fits :=
  fits_integer (Nat.lt_trans value.toNat_lt (by decide))

theorem fits_uint32 (value : UInt32) : (integer value.toNat).Fits :=
  fits_integer (Nat.lt_trans value.toNat_lt (by decide))

theorem fits_int64s {values : List Int64} (small : ∀ value ∈ values, value.toUInt64.toNat < 2 ^ 55) :
    (integers (fewer (values.map fun value => value.toUInt64.toNat))).Fits := by
  apply fits_integers
  simpa using small

theorem fits_uint16s (values : List UInt16) : (integers (fewer (values.map UInt16.toNat))).Fits := by
  apply fits_integers
  simp only [List.forall_mem_map]
  exact fun value _ => (fits_uint16 value).1

theorem fits_uint32s (values : List UInt32) : (integers (fewer (values.map UInt32.toNat))).Fits := by
  apply fits_integers
  simp only [List.forall_mem_map]
  exact fun value _ => (fits_uint32 value).1

theorem fits_noBlob : (blob []).Fits := ⟨⟨by simp, by decide⟩, by decide⟩

end Value

namespace Members

variable {fields : List (Bytes × Value)}

/-- Values that fit are the fields of an object, under labels that differ. -/
theorem fields_of_fits (labels : ∀ name ∈ fields.map Prod.fst, Label name)
    (differ : (fields.map Prod.fst).Nodup) (fit : ∀ field ∈ fields, field.2.Fits) :
    (of fields).Fields :=
  fields_of (fun field present => labels field.1 (List.mem_map_of_mem present)) differ
    fun field present => (fit field present).1

/-- A few dozen fields that fit take far less than a buffer can hold. -/
theorem fieldBytes_of_fits (few : fields.length ≤ 32) (fit : ∀ field ∈ fields, field.2.Fits) :
    (of fields).fieldBytes.length ≤ 2 ^ 49 := by
  have most := fieldBytes_length_le fields (2 ^ 43) fun field present => (fit field present).2
  have product : fields.length * (2 ^ 43 + 4) ≤ 32 * (2 ^ 43 + 4) := Nat.mul_le_mul_right _ few
  omega

end Members

namespace CreateGameRequest

variable {request : CreateGameRequest}

theorem front_fits (tidy : request.Tidy) : ∀ field ∈ front Value.fewer request, field.2.Fits := by
  simp only [front, List.forall_mem_cons, List.not_mem_nil, false_implies, implies_true, and_true]
  exact ⟨Value.fits_int64s tidy.administrators, Value.fits_textMap tidy.attributes,
    Value.fits_objectId request.btpl.x.toNat_lt request.btpl.y.toNat_lt tidy.btpl,
    Value.fits_textMap tidy.criteria, Value.fits_string tidy.ctr, Value.fits_string tidy.name,
    Value.fits_uint32 request.settings, Value.fits_string tidy.type, Value.fits_string tidy.url⟩

theorem topology_small (topology : GameNetworkTopology) : topology.toNat < 2 ^ 55 := by
  cases topology <;> decide

theorem presence_small (presence : PresenceMode) : presence.toNat < 2 ^ 55 := by
  cases presence <;> decide

theorem back_fits (tidy : request.Tidy) : ∀ field ∈ back Value.fewer request, field.2.Fits := by
  simp only [back, List.forall_mem_cons, List.not_mem_nil, false_implies, implies_true, and_true]
  exact ⟨Value.fits_flag request.ignore, Value.fits_textMap tidy.matr,
    Value.fits_flag (!request.resetable), Value.fits_integer (topology_small request.networkTopology),
    Value.fits_textMap tidy.playerAttributes, Value.fits_uint16s request.capacity,
    Value.fits_string tidy.playgroupId, Value.fits_noBlob, Value.fits_uint16 request.maxPlayers,
    Value.fits_integer (presence_small request.presence), Value.fits_uint16 request.queueCapacity,
    Value.fits_uint32 request.rgid, Value.fits_int64s tidy.seat, Value.fits_uint32s request.sidl,
    Value.fits_uint32 request.slot, Value.fits_uint16 request.tcap, Value.fits_uint16s request.tids,
    Value.fits_uint16 request.tIndex, Value.fits_integer (by decide), Value.fits_string tidy.version⟩

set_option maxRecDepth 8192 in
theorem front_fields (tidy : request.Tidy) : (Members.of (front Value.fewer request)).Fields := by
  refine Members.fields_of_fits ?_ ?_ (front_fits tidy)
  · simp only [front, List.map_cons, List.map_nil]
    decide
  · simp only [front, List.map_cons, List.map_nil]
    decide

set_option maxRecDepth 8192 in
theorem back_fields (tidy : request.Tidy) : (Members.of (back Value.fewer request)).Fields := by
  refine Members.fields_of_fits ?_ ?_ (back_fits tidy)
  · simp only [back, List.map_cons, List.map_nil]
    decide
  · simp only [back, List.map_cons, List.map_nil]
    decide

set_option maxRecDepth 8192 in
theorem address_fits (ip : IpAddress) : (address ip).Fits := by
  have fit : ∀ field ∈ [(ascii "IP", Value.integer ip.address.toNat),
      (ascii "PORT", Value.integer ip.port.toNat)], field.2.Fits := by
    simp only [List.forall_mem_cons, List.not_mem_nil, false_implies, implies_true, and_true]
    exact ⟨Value.fits_uint32 ip.address, Value.fits_uint16 ip.port⟩
  refine ⟨Members.fields_of_fits ?_ ?_ fit, ?_⟩
  · simp only [List.map_cons, List.map_nil]
    decide
  · simp only [List.map_cons, List.map_nil]
    decide
  · have number : (tdfBytes ip.address.toNat).length ≤ 10 :=
      tdfBytes_length_le (Nat.lt_trans ip.address.toNat_lt (by decide))
    have port : (tdfBytes ip.port.toNat).length ≤ 10 :=
      tdfBytes_length_le (Nat.lt_trans ip.port.toNat_lt (by decide))
    simp only [address, Members.of, Value.bytes, Members.fieldBytes, List.length_append,
      headerBytes_length, List.length_cons, List.length_nil]
    omega

set_option maxRecDepth 8192 in
theorem hosts_fields (pair : IpPairAddress) : (hosts pair).Fields := by
  apply Members.fields_of_fits
  · simp only [List.map_cons, List.map_nil]
    decide
  · simp only [List.map_cons, List.map_nil]
    decide
  · simp only [List.forall_mem_cons, List.not_mem_nil, false_implies, implies_true, and_true]
    exact ⟨address_fits pair.exip, address_fits pair.inip⟩

/-- The bytes of the list of addresses. -/
def hostBytes (pair : IpPairAddress) : Bytes :=
  headerBytes (ascii "HNET") .list ++ stubBytes (hostList pair)

theorem hostBytes_length (pair : IpPairAddress) : (hostBytes pair).length ≤ 2 ^ 49 := by
  have bound := Members.fieldBytes_length_le [(ascii "EXIP", address pair.exip),
    (ascii "INIP", address pair.inip)] (2 ^ 43) (by
      simp only [List.forall_mem_cons, List.not_mem_nil, false_implies, implies_true, and_true]
      exact ⟨(address_fits pair.exip).2, (address_fits pair.inip).2⟩)
  simp only [hostBytes, stubBytes, hostList, Members.itemBytes, Value.bytes, List.length_append,
    List.length_cons, List.length_nil, headerBytes_length]
  simp only [List.length_cons, List.length_nil] at bound
  rw [hosts]
  omega

/-- The bytes of a request. -/
def layout (request : CreateGameRequest) : Bytes :=
  (Members.of (front Value.fewer request)).fieldBytes ++
    (hostBytes request.hostNetwork ++ (Members.of (back Value.fewer request)).fieldBytes)

theorem layout_length (tidy : request.Tidy) : request.layout.length < maxCapacity := by
  have few : (front Value.fewer request).length ≤ 32 := (by decide : 9 ≤ 32)
  have others : (back Value.fewer request).length ≤ 32 := (by decide : 20 ≤ 32)
  have first := Members.fieldBytes_of_fits few (front_fits tidy)
  have middle := hostBytes_length request.hostNetwork
  have last := Members.fieldBytes_of_fits others (back_fits tidy)
  simp only [layout, List.length_append]
  have sum : 2 ^ 49 + (2 ^ 49 + 2 ^ 49) < maxCapacity := by decide
  omega

/-- Lists that are too long are written as if they had been cut. -/
theorem front_alike (request : CreateGameRequest) (b : DataBuffer) :
    writeMembers b (Members.of (front id request)).document =
      writeMembers b (Members.of (front Value.fewer request)).document := by
  apply writeMembers_alike
  simp only [front, id, List.forall₂_cons, List.forall₂_nil_left_iff, and_true,
    WrittenAlike.refl, integers_alike]

theorem back_alike (request : CreateGameRequest) (b : DataBuffer) :
    writeMembers b (Members.of (back id request)).document =
      writeMembers b (Members.of (back Value.fewer request)).document := by
  apply writeMembers_alike
  simp only [back, id, List.forall₂_cons, List.forall₂_nil_left_iff, and_true,
    WrittenAlike.refl, integers_alike]

/-- The list of addresses is written as its bytes. -/
theorem write_hosts (pair : IpPairAddress) {b : DataBuffer}
    (room : b.position + (hostBytes pair).length < wordBound) :
    ∃ after, writeMembers b [(ascii "HNET", stubList (hostList pair))] = .ok after ∧
      DataBuffer.Wrote b (hostBytes pair) after := by
  have header := writeHeader_wrote (ascii "HNET") .list (show b.position + 4 < wordBound by
    simp only [hostBytes, List.length_append, headerBytes_length] at room
    omega)
  have moved := header.position
  simp only [headerBytes_length] at moved
  obtain ⟨after, written, wrote⟩ := writeType_stubList (writeHeader b (ascii "HNET") .list)
    (hostList pair) ⟨rfl, trivial⟩ ⟨hosts_fields pair, trivial⟩ (by
      simp only [hostBytes, List.length_append, headerBytes_length] at room
      omega)
  refine ⟨after, ?_, header.trans wrote⟩
  have typed : Packet.write b (some (ascii "HNET")) (stubList (hostList pair)) =
      writeType b .list (some (ascii "HNET")) (stubList (hostList pair)) := by
    simp only [stubList, Packet.write]
    rfl
  have plain : Json.cString (ascii "HNET") = ascii "HNET" := by decide
  rw [writeMembers, typed, writeType_name, plain, written, Json.ok_bind, writeMembers]

/-- Writing a tidy request into an empty buffer makes its bytes the content. -/
theorem writeAll_content (tidy : request.Tidy) :
    ∃ written, (Packet.empty.calls request.write).writeAll .empty = .ok written ∧
      written.content = request.layout := by
  have short := layout_length tidy
  have bounded : maxCapacity < wordBound := by decide
  simp only [layout, List.length_append] at short
  have start : DataBuffer.empty.position = 0 := rfl
  obtain ⟨one, first, wroteFront⟩ := writeMembers_fields .empty _ (front_fields tidy) (by omega)
  have afterFront := wroteFront.position
  obtain ⟨two, middle, wroteHosts⟩ := @write_hosts request.hostNetwork one (by omega)
  have afterHosts := wroteHosts.position
  obtain ⟨written, last, wroteBack⟩ := writeMembers_fields two _ (back_fields tidy) (by omega)
  refine ⟨written, ?_, ?_⟩
  · rw [writeAll, document_eq]
    change writeMembers .empty _ = _
    rw [writeMembers_append, writeMembers_append, front_alike, first, Json.ok_bind, middle, Json.ok_bind,
      back_alike, last]
  · have wrote := wroteFront.trans (wroteHosts.trans wroteBack)
    exact (wrote.content (Nat.le_refl _) rfl).1

end CreateGameRequest

/-! ## What the bytes of a request are parsed as -/

namespace Parser

variable {env : Env}

/-- Whatever a loop over the last fields of the content returns has them behind its members. -/
theorem loop_fields_end (source : env.strict = false) (roomy : 2 ^ 32 ≤ env.maxSize) {fuel limit : Nat}
    {fields : Members} (wellFormed : fields.Fields) (enough : fields.fieldBytes.length ≤ fuel)
    {r last : Reader} (holds : Holds r fields.fieldBytes)
    (whole : r.buffer.position + fields.fieldBytes.length = r.buffer.size) {held : List (Bytes × Json)}
    (fresh : ∀ name ∈ fields.names, name ∉ held.map Prod.fst) (closed : ¬ fields.Open) {document : Json}
    (returned : Program.loop (starving env) moreContent (readValue env fuel) limit (.object held) r =
      .done (document, last)) : document = .object (held ++ fields.parsed) := by
  -- With as many rounds as there are bytes, the loop returns the same.
  have never : starving env = fun _ => false := funext fun r => by rw [starving, source, Bool.false_and]
  have longer : Program.loop (fun _ => false) moreContent (readValue env fuel)
      (limit + (fields.fieldBytes.length + 1)) (.object held) r = .done (document, last) :=
    (Program.Completes.loop (fun value => Program.Completes.refl (readValue env fuel value))
      (Nat.le_add_right limit _) (.object held)).done returned
  rw [← never] at longer
  obtain ⟨left, final, same, -, looped⟩ := loop_fields source roomy moreContent moreContent_passes fuel
    fields wellFormed enough (limit + (fields.fieldBytes.length + 1)) (by omega) r holds held fresh
    fun opened => absurd opened closed
  have finished : final.buffer.eof = true := by
    rw [same]
    exact decide_eq_true (Nat.le_of_eq whole.symm)
  have ended : moreContent final = .done (false, final) := by
    rw [moreContent_eq, finished]
    rfl
  rw [looped, Program.loop_exit left _ ended] at longer
  cases longer
  rfl

/-- A stub list of one struct is read as a field like any other, whatever it is read as. -/
theorem readValue_single (source : env.strict = false) (roomy : 2 ^ 32 ≤ env.maxSize) {fuel : Nat}
    {name label : Bytes} {fields : Members} {r : Reader} (named : Label name) (wellFormed : fields.Fields)
    (holds : Holds r (headerBytes name .list ++ stubBytes (.cons label (.struct fields) .nil)))
    (enough : fields.fieldBytes.length + 1 < fuel) (parent : Json) :
    ∃ found, Reads (readValue env fuel parent) r
      (headerBytes name .list ++ stubBytes (.cons label (.struct fields) .nil))
      (addObject ⟨name, .list⟩ found parent) := by
  obtain ⟨fuel, rfl⟩ : ∃ less, fuel = less + 1 := ⟨fuel - 1, by omega⟩
  have list := readList_single source roomy wellFormed (holds.right _)
    (show fields.fieldBytes.length < fuel by omega)
  have some_bytes : stubBytes (.cons label (.struct fields) .nil) ≠ [] := by simp [stubBytes]
  exact ⟨_, @readValue_field env fuel name _ (.list .struct .nil) _ _ r parent named rfl some_bytes holds
    list⟩

/-- Whatever is read from fields around a stub list of one struct has their members around another one. -/
theorem read_around (source : env.strict = false) (roomy : 2 ^ 32 ≤ env.maxSize) {fuel : Nat}
    {first second fields : Members} {name label : Bytes} {r last : Reader} {document : Json}
    (firstFormed : first.Fields) (secondFormed : second.Fields) (closed : ¬ first.Open)
    (ends : ¬ second.Open) (more : second.fieldBytes ≠ []) (named : Label name)
    (wellFormed : fields.Fields) (fresh : name ∉ first.parsed.map Prod.fst)
    (differ : ∀ other ∈ second.names, ∀ found : Json,
      other ∉ (first.parsed ++ [(name, found)]).map Prod.fst)
    (holds : Holds r (first.fieldBytes ++ ((headerBytes name .list ++
      stubBytes (.cons label (.struct fields) .nil)) ++ second.fieldBytes)))
    (whole : r.buffer.position + (first.fieldBytes ++ ((headerBytes name .list ++
      stubBytes (.cons label (.struct fields) .nil)) ++ second.fieldBytes)).length = r.buffer.size)
    (enough : r.buffer.size < fuel) (returned : read env fuel r = .done (document, last)) :
    ∃ found, document = .object (first.parsed ++ [(name, found)] ++ second.parsed) := by
  have lengths := whole
  simp only [List.length_append, headerBytes_length, stubBytes, Members.itemBytes, Value.bytes,
    List.length_cons, List.length_nil] at lengths
  have behind := holds.right first.fieldBytes
  have next_some := List.append_ne_nil_of_right_ne_nil
    (headerBytes name .list ++ stubBytes (.cons label (.struct fields) .nil)) more
  -- The loop goes through the fields in front of the list, which no open value ends.
  obtain ⟨left, before, -, exact_end, looped⟩ := loop_fields source roomy moreContent
    moreContent_passes fuel first firstFormed (by omega) fuel (by omega) r holds.left [] (by simp)
    fun opened => absurd opened closed
  rw [exact_end (behind.rest_ne_nil next_some), List.nil_append] at looped
  rw [read, looped] at returned
  -- Then it goes through the list.
  have header := behind
  rw [List.append_assoc] at header
  have passed := moreContent_passes _ name .list _ named header
  obtain ⟨between, middle, rounds, ran, onward⟩ := loop_started passed returned
  obtain ⟨found, reads⟩ := readValue_single source roomy named wellFormed behind.left
    (show _ < fuel by omega) (.object first.parsed)
  rw [reads.done behind more, addObject_fresh fresh] at ran
  cases ran
  -- And then it goes through the other fields, which are the end of the content.
  refine ⟨found, loop_fields_end source roomy secondFormed (by omega) (behind.right _) ?_
    (fun other member => differ other member found) ends onward⟩
  simp only [Reader.advance_advance, Reader.advance_position, List.length_append, headerBytes_length,
    stubBytes, Members.itemBytes, Value.bytes, List.length_cons, List.length_nil]
  change _ = r.buffer.size
  omega

end Parser

namespace CreateGameRequest

variable {request : CreateGameRequest}

/-- Whether a request that is written, and whose packet is then parsed, can be read back as it was. -/
def RoundTrips (request : CreateGameRequest) : Prop :=
  ∃ (env : Env) (fresh : CreateGameRequest) (written : DataBuffer) (r last : Reader) (fuel : Nat)
    (document : Json), env.strict = false ∧ 2 ^ 32 ≤ env.maxSize ∧ fresh.Fresh ∧
    (Packet.empty.calls request.write).writeAll .empty = .ok written ∧ r.buffer.Sound ∧
    r.buffer.content = written.content ∧ r.buffer.position = 0 ∧ r.buffer.size < fuel ∧
    Parser.read env fuel r = .done (document, last) ∧ fresh.read document = .ok (some request)

/-- The names of the fields that are written. -/
theorem names_written (keep : List Nat → List Nat) (request : CreateGameRequest) (found : Json) :
    ((Members.of (front keep request)).parsed ++ [(ascii "HNET", found)] ++
      (Members.of (back keep request)).parsed).map Prod.fst =
    [ascii "ADMN", ascii "ATTR", ascii "BTPL", ascii "CRIT", ascii "GCTR", ascii "GNAM", ascii "GSET",
      ascii "GTYP", ascii "GURL", ascii "HNET", ascii "IGNO", ascii "MATR", ascii "NRES", ascii "NTOP",
      ascii "PATT", ascii "PCAP", ascii "PGID", ascii "PGSR", ascii "PMAX", ascii "PRES", ascii "QCAP",
      ascii "RGID", ascii "SEAT", ascii "SIDL", ascii "SLOT", ascii "TCAP", ascii "TIDS", ascii "TIDX",
      ascii "VOIP", ascii "VSTR"] := by
  rw [Members.parsed_of, Members.parsed_of]
  rfl

set_option maxRecDepth 8192 in
/-- Whatever is parsed from the bytes of a tidy request has the names that were written. -/
theorem parsed_of_layout {env : Env} (source : env.strict = false) (roomy : 2 ^ 32 ≤ env.maxSize)
    {fuel : Nat} {r last : Reader} {document : Json} (tidy : request.Tidy) (sound : r.buffer.Sound)
    (same : r.buffer.content = request.layout) (start : r.buffer.position = 0)
    (enough : r.buffer.size < fuel) (returned : Parser.read env fuel r = .done (document, last)) :
    ∃ found, document = .object ((Members.of (front Value.fewer request)).parsed ++
      [(ascii "HNET", found)] ++ (Members.of (back Value.fewer request)).parsed) := by
  obtain ⟨size, holds⟩ := Holds.of_content sound same start (layout_length tidy)
  have whole : r.buffer.position + request.layout.length = r.buffer.size := by omega
  have fresh : ascii "HNET" ∉ (Members.of (front Value.fewer request)).parsed.map Prod.fst := by
    rw [Members.parsed_of]
    simp only [front, List.map_cons, List.map_nil]
    decide
  refine Parser.read_around source roomy (front_fields tidy) (back_fields tidy) ?_ ?_ ?_
    (by decide) (hosts_fields request.hostNetwork) fresh ?_ holds whole enough returned
  · simp [front, Members.of, Members.Open, Value.Open]
  · simp [back, Members.of, Members.Open, Value.Open]
  · simp [back, Members.of, Members.fieldBytes, headerBytes]
  · -- No name comes twice, in the order in which they are written.
    intro other member found present
    have differ : (((Members.of (front Value.fewer request)).parsed ++ [(ascii "HNET", found)] ++
        (Members.of (back Value.fewer request)).parsed).map Prod.fst).Nodup := by
      rw [names_written]
      decide
    rw [List.map_append, List.nodup_append] at differ
    rw [Members.names_of] at member
    apply differ.2.2 other present other ?_ rfl
    rwa [Members.parsed_of, List.map_map]

/-- A request that is read asks for a name that no request is written with. -/
theorem not_readable {found : Json} : ¬ Readable ((Members.of (front Value.fewer request)).parsed ++
    [(ascii "HNET", found)] ++ (Members.of (back Value.fewer request)).parsed) := by
  intro readable
  have absent : ascii "PGSC" ∉ ((Members.of (front Value.fewer request)).parsed ++
      [(ascii "HNET", found)] ++ (Members.of (back Value.fewer request)).parsed).map Prod.fst := by
    rw [names_written]
    decide
  obtain ⟨-, -, -, -, -, -, -, -, -, -, -, -, -, -, -, -, -, asked, -⟩ := readable
  obtain ⟨members, text, same, there, -⟩ := asked
  rw [← Json.object.inj same, Json.find_none absent] at there
  cases there

/-- Whatever the parser makes of the bytes of a request, it is not read back as that request. -/
theorem read_ne {env : Env} (source : env.strict = false) (roomy : 2 ^ 32 ≤ env.maxSize)
    {fuel : Nat} {r last : Reader} {document : Json} {fresh : CreateGameRequest} {written : DataBuffer}
    (empty : fresh.Fresh) (wrote : (Packet.empty.calls request.write).writeAll .empty = .ok written)
    (sound : r.buffer.Sound) (same : r.buffer.content = written.content) (start : r.buffer.position = 0)
    (enough : r.buffer.size < fuel) (returned : Parser.read env fuel r = .done (document, last)) :
    fresh.read document ≠ .ok (some request) := by
  -- A request that comes out of a document is tidy, and then its bytes are known.
  intro read
  have gathered := Parser.read_gives env fuel _ _ _ returned
  obtain ⟨members, rfl⟩ := Parser.read_object env fuel _ _ _ returned
  have tidy := read_tidy empty gathered read
  obtain ⟨other, again, content⟩ := writeAll_content tidy
  cases wrote.symm.trans again
  obtain ⟨found, same⟩ := parsed_of_layout source roomy tidy sound (same.trans content) start enough returned
  rw [same] at read
  exact not_readable ((fresh.read_succeeds _).mp ⟨_, read⟩)

/-- No request for a game is read back from what it is written as. -/
theorem never_roundTrips (request : CreateGameRequest) : ¬ request.RoundTrips := by
  intro back
  obtain ⟨env, fresh, written, r, last, fuel, document, source, roomy, empty, wrote, sound, same, start,
    enough, returned, read⟩ := back
  exact read_ne source roomy empty wrote sound same start enough returned read

/-- Not even the request with nothing in it comes back. -/
theorem not_roundTrips : ¬ ∀ request : CreateGameRequest, request.RoundTrips := by
  intro always
  obtain ⟨env, fresh, written, r, last, fuel, document, source, roomy, empty, wrote, sound, same, start,
    enough, returned, read⟩ := always .blank
  exact read_ne source roomy empty wrote sound same start enough returned read

end CreateGameRequest
end Recap.Blaze
