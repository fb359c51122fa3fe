import Recap.Blaze.Serialisation

/-! Every structure that packets are made of, with the values of it that can be laid out as bytes. -/

namespace Recap.Blaze

open Packet Call

/-- One of the structures that write themselves into a packet. -/
inductive Structure where
  | clientData (data : ClientData)
  | presenceInfo (info : PresenceInfo)
  | ipAddress (ip : IpAddress)
  | hostNameAddress (host : HostNameAddress)
  | ipPairAddress (pair : IpPairAddress)
  | userOptions (options : UserOptions)
  | tickerServer (server : TickerServer)
  | telemetryServer (server : TelemetryServer)
  | pssConfig (config : PssConfig)
  | networkQosData (data : NetworkQosData)
  | qosPingSiteInfo (info : QosPingSiteInfo)
  | qosConfigInfo (config : QosConfigInfo)
  | userSessionExtendedData (data : UserSessionExtendedData)
  | hostInfo (info : HostInfo)
  | personaDetails (details : PersonaDetails)
  | sessionInfo (info : SessionInfo)
  | listIdentification (identification : ListIdentification)
  | listInfo (info : ListInfo)
  | listMemberId (member : ListMemberId)
  | listMemberInfo (info : ListMemberInfo)
  | listMemberInfoUpdate (update : ListMemberInfoUpdate)
  | listMembers (members : ListMembers)
  | clientMessage (message : ClientMessage)
  | serverMessage (server : ServerMessage)
  | userIdentification (user : UserIdentification)
  | userData (data : UserData)
  | playgroupInfo (info : PlaygroupInfo)
  | playgroupMemberInfo (info : PlaygroupMemberInfo)
  | playerConnectionStatus (status : PlayerConnectionStatus)
  | replicatedGamePlayer (player : ReplicatedGamePlayer)
  | replicatedGameData (data : ReplicatedGameData)
  | userDetails (details : UserDetails)
  | passwordRulesInfo (info : PasswordRulesInfo)
  | roomMemberData (data : RoomMemberData)
  | createGameRequest (request : CreateGameRequest)

/-- `Write`, for whichever structure it is -/
def Structure.write : Structure → List Packet.Call
  | clientData data => data.write
  | presenceInfo info => info.write
  | ipAddress ip => ip.write
  | hostNameAddress host => host.write
  | ipPairAddress pair => pair.write
  | userOptions options => options.write
  | tickerServer server => server.write
  | telemetryServer server => server.write
  | pssConfig config => config.write
  | networkQosData data => data.write
  | qosPingSiteInfo info => info.write
  | qosConfigInfo config => config.write
  | userSessionExtendedData data => data.write
  | hostInfo info => info.write
  | personaDetails details => details.write
  | sessionInfo info => info.write
  | listIdentification identification => identification.write
  | listInfo info => info.write
  | listMemberId member => member.write
  | listMemberInfo info => info.write
  | listMemberInfoUpdate update => update.write
  | listMembers members => members.write
  | clientMessage message => message.write
  | serverMessage server => server.write
  | userIdentification user => user.write
  | userData data => data.write
  | playgroupInfo info => info.write
  | playgroupMemberInfo info => info.write
  | playerConnectionStatus status => status.write
  | replicatedGamePlayer player => player.write
  | replicatedGameData data => data.write
  | userDetails details => details.write
  | passwordRulesInfo info => info.write
  | roomMemberData data => data.write
  | createGameRequest request => request.write

/--
Whether every text that a structure puts in an integer's place starts with a number.

Only as many object ids count as the byte in front of the list says.
-/
def Structure.Convertible : Structure → Prop
  | pssConfig config => ∀ oid ∈ config.oids.take (config.oids.length % 256), Numeral (cutText oid)
  | playgroupInfo info => ∀ entry ∈ info.attributes.toList, Numeral (Json.cString entry.1)
  | playgroupMemberInfo info => ∀ entry ∈ info.attributes.toList, Numeral (Json.cString entry.1)
  | _ => True

/-! ## Parts that structures share -/

namespace Packet

@[simp] theorem leaf_integer (label : String) (value : Nat) : Leaf (integer label value) := trivial

@[simp] theorem leaf_signed (label : String) (value : Int64) : Leaf (signed label value) := trivial

@[simp] theorem leaf_enumerator (label : String) (value : Enumerator) :
    Leaf (enumerator label value) := trivial

@[simp] theorem leaf_flag (label : String) (value : Bool) : Leaf (flag label value) := trivial

@[simp] theorem leaf_string (label : String) (value : Bytes) : Leaf (string label value) := trivial

@[simp] theorem leaf_noBlob (label : String) : Leaf (noBlob label) := trivial

@[simp] theorem leaf_objectId (label : String) (value : ObjectId) : Leaf (objectId label value) := trivial

/-- A struct that is always written, as a field. -/
theorem Serialisable.struct {filling : List Packet.Call} (label : String)
    (fields : Serialisable filling) : Serialisable (struct label filling) :=
  (Puts.struct (ascii label) fields).serialises

/-- A list is written whose items always are. -/
theorem Serialisable.list {α : Type} (label : Bytes) (kind : Kind) (stub : Bool) (named : Named kind)
    (values : List α) {item : α → List Packet.Call} {name : α → Bytes}
    (each : ∀ value, Puts (item value) (name value) kind True) :
    Serialisable (inside (.pushList label kind stub) (values.flatMap item)) :=
  (Puts.list label kind stub named values fun value _ => (each value).item).serialises.iff (by simp)

theorem Serialisable.integers (label : String) (values : List Nat) :
    Serialisable (integers label values) := by
  have listed := Serialisable.list (ascii label) .integer false ⟨by decide, rfl⟩ values
    fun value => Puts.single (ascii "") (.integer value) trivial
  have single : (fun value : Nat => (Value.integer value).calls (ascii "")) =
      fun value => [integer "" value] := rfl
  rw [single, ← List.map_eq_flatMap] at listed
  exact listed

/-- A map of texts is written where its keys fit. -/
theorem serialises_texts (label : String) {keys : Kind} (key : keys = .integer ∨ keys = .string)
    (entries : List (Bytes × Bytes)) :
    Serialises (texts label keys entries) (∀ entry ∈ entries, KeyFits keys entry.1) := by
  have mapped := Puts.map (ascii label) keys .string key ⟨by decide, rfl⟩ entries
    fun entry _ => (Puts.single entry.1 (.string entry.2) trivial).item
  have single : (fun entry : Bytes × Bytes => (Value.string entry.2).calls entry.1) =
      fun entry => [.putString entry.1 entry.2] := rfl
  rw [single, ← List.map_eq_flatMap] at mapped
  exact mapped.serialises.iff (by simp only [and_true])

/-- A map between texts is always written. -/
theorem Serialisable.texts (label : String) (entries : List (Bytes × Bytes)) :
    Serialisable (texts label .string entries) :=
  (serialises_texts label (.inr rfl) entries).iff
    (iff_true_intro fun _ _ other => absurd other (by decide))

/-- A list of structs that are always written, each put without a name. -/
theorem Serialisable.structs {α : Type} (label : String) (stub : Bool) (values : List α)
    {fields : α → List Packet.Call} (each : ∀ value, Serialisable (fields value)) :
    Serialisable (inside (.pushList (ascii label) .struct stub)
      (values.flatMap fun value => Call.struct "" (fields value))) :=
  Serialisable.list (ascii label) .struct stub ⟨by decide, rfl⟩ values
    fun value => Puts.struct (ascii "") (each value)

/-- An address that is not set, as a field. -/
theorem Serialisable.unset (label : String) :
    Serialisable (inside (.pushUnion (ascii label) addressUnset) []) :=
  (Puts.union (ascii label) addressUnset (by decide) Serialises.nil).serialises

/-- A map between integers is always written, as its keys are in decimal. -/
theorem Serialisable.integerMap (label : String) (entries : List (UInt32 × Int64)) :
    Serialisable (UserSessionExtendedData.integerMap label entries) := by
  have mapped := Puts.map (ascii label) .integer .integer (.inl rfl) ⟨by decide, rfl⟩ entries
    fun entry _ =>
      (Puts.single (toDecimal entry.1.toNat) (.integer entry.2.toUInt64.toNat) trivial).item
  have single : (fun entry : UInt32 × Int64 =>
      (Value.integer entry.2.toUInt64.toNat).calls (toDecimal entry.1.toNat)) =
      fun entry => [.putInteger (toDecimal entry.1.toNat) entry.2.toUInt64.toNat] := rfl
  rw [single, ← List.map_eq_flatMap] at mapped
  refine mapped.serialises.iff (iff_true_intro fun entry _ => ⟨fun _ => ?_, trivial⟩)
  exact numeral_toDecimal (Nat.lt_trans entry.1.toNat_lt (by decide))

end Packet

/-! ## The structures -/

theorem IpAddress.serialisable (ip : IpAddress) : Serialisable ip.write :=
  Serialises.leaves (by simp [IpAddress.write])

theorem IpPairAddress.serialisable (pair : IpPairAddress) : Serialisable pair.write :=
  (Serialisable.struct "EXIP" pair.exip.serialisable).then
    (Serialisable.struct "INIP" pair.inip.serialisable)

theorem hostAddresses_serialisable (pair : IpPairAddress) : Serialisable (hostAddresses pair) := by
  have listed := Serialisable.structs "HNET" true [pair] IpPairAddress.serialisable
  rw [List.flatMap_singleton] at listed
  exact listed

theorem NetworkQosData.serialisable (data : NetworkQosData) : Serialisable data.write :=
  Serialises.leaves (by simp [NetworkQosData.write])

theorem QosPingSiteInfo.serialisable (info : QosPingSiteInfo) : Serialisable info.write :=
  Serialises.leaves (by simp [QosPingSiteInfo.write])

theorem HostInfo.serialisable (info : HostInfo) : Serialisable info.write :=
  Serialises.leaves (by simp [HostInfo.write])

theorem PersonaDetails.serialisable (details : PersonaDetails) : Serialisable details.write :=
  Serialises.leaves (by simp [PersonaDetails.write])

theorem ListIdentification.serialisable (identification : ListIdentification) :
    Serialisable identification.write :=
  Serialises.leaves (by simp [ListIdentification.write])

theorem ListMemberId.serialisable (member : ListMemberId) : Serialisable member.write :=
  Serialises.leaves (by simp [ListMemberId.write])

theorem UserIdentification.serialisable (user : UserIdentification) : Serialisable user.write :=
  Serialises.leaves (by simp [UserIdentification.write])

/-- Only integers stand in the list of object ids, and its loop stops at the list's count. -/
theorem PssConfig.serialises (config : PssConfig) : Serialises config.write
    (∀ oid ∈ config.oids.take (config.oids.length % 256), Numeral (cutText oid)) := by
  have listed := Puts.list (ascii "OIDS") .integer false ⟨by decide, rfl⟩ config.oids fun oid _ =>
    Item.text (ascii "") oid
  have single : (fun oid : Bytes => [Packet.Call.putString (ascii "") oid]) =
      fun oid => [string "" oid] := rfl
  rw [single, ← List.map_eq_flatMap] at listed
  have before : Serialisable [string "ADRS" config.address, noBlob "CSIG"] :=
    Serialises.leaves (by simp)
  refine ((before.append listed.serialises).iff (iff_of_eq (true_and _))).then ?_
  exact Serialises.leaves (by simp)

theorem QosConfigInfo.serialisable (config : QosConfigInfo) : Serialisable config.write := by
  have first : Serialisable ((config.bandwidthPingSiteInfo.head?.map QosPingSiteInfo.write).getD []) := by
    cases config.bandwidthPingSiteInfo.head? with
    | none => exact Serialises.nil
    | some info => exact info.serialisable
  have sites := Puts.map (ascii "LTPS") .string .struct (.inr rfl) ⟨by decide, rfl⟩
    config.pingSiteInfoByAlias.toList fun entry _ => (Puts.struct entry.1 entry.2.serialisable).item
  have probes : Serialisable [integer "LNP" config.latencyProbes.toNat] := Serialises.leaves (by simp)
  have service : Serialisable [integer "SVID" config.serviceId.toNat] := Serialises.leaves (by simp)
  refine (((Serialisable.struct "BWPS" first).then probes).then
    (sites.serialises.iff (iff_true_intro fun _ _ => ⟨fun other => absurd other (by decide), trivial⟩))).then
    service

theorem UserSessionExtendedData.serialisable (data : UserSessionExtendedData) :
    Serialisable data.write := by
  have addresses : Serialisable (if data.ip.exip.address = 0 ∧ data.ip.inip.address = 0 then
      inside (.pushUnion (ascii "ADDR") addressUnset) []
    else inside (.pushUnion (ascii "ADDR") ipPairAddress) (struct "VALU" data.ip.write)) := by
    split
    · exact Serialisable.unset "ADDR"
    · exact (Puts.union (ascii "ADDR") ipPairAddress (by decide)
        (Serialisable.struct "VALU" data.ip.serialisable)).serialises
  have ids := Serialisable.list (ascii "ULST") .objectId false ⟨by decide, rfl⟩
    data.blazeObjectIdList fun value => Puts.single (ascii "")
      (.objectId value.x.toNat value.y.toNat value.z.toNat) trivial
  have single : (fun value : ObjectId =>
      (Value.objectId value.x.toNat value.y.toNat value.z.toNat).calls (ascii "")) =
      fun value => [objectId "" value] := rfl
  rw [single, ← List.map_eq_flatMap] at ids
  refine ((((((((((addresses.then (Serialises.leaves ?_)).then (Serialisable.integerMap _ _)).then
    (Serialises.leaves ?_)).then (Puts.noIntegers _).serialises).then
    (Serialisable.integerMap _ _)).then (Serialises.leaves ?_)).then
    (Serialisable.integers _ _)).then (Serialisable.struct _ data.qos.serialisable)).then
    (Serialises.leaves ?_)).then ids)
  all_goals simp

theorem SessionInfo.serialisable (info : SessionInfo) : Serialisable info.write := by
  refine (Serialises.then (Serialises.leaves ?_)
    (Serialisable.struct _ info.personaDetails.serialisable)).then (Serialises.leaves ?_)
  all_goals simp

theorem ListInfo.serialisable (info : ListInfo) : Serialisable info.write := by
  refine (Serialises.then (Serialises.leaves ?_)
    (Serialisable.struct _ info.identification.serialisable)).then (Serialises.leaves ?_)
  all_goals simp

theorem ListMemberInfo.serialisable (info : ListMemberInfo) : Serialisable info.write :=
  (Serialisable.struct _ info.id.serialisable).then (Serialises.leaves (by simp))

theorem ListMembers.serialisable (members : ListMembers) : Serialisable members.write :=
  ((Serialisable.struct _ members.info.serialisable).then
    (Serialisable.structs "MEML" false _ ListMemberInfo.serialisable)).then
    (Serialises.leaves (by simp))

/-- The attributes of a message are put under decimal numbers. -/
theorem ClientMessage.serialisable (message : ClientMessage) : Serialisable message.write := by
  have attributes := serialises_texts "ATTR" (.inl rfl)
    (message.attributes.toList.map fun entry => (toDecimal entry.1.toNat, entry.2))
  refine (attributes.iff (iff_true_intro fun entry member _ => ?_)).then (Serialises.leaves ?_)
  · obtain ⟨⟨id, text⟩, -, rfl⟩ := List.mem_map.mp member
    exact numeral_toDecimal (Nat.lt_trans id.toNat_lt (by decide))
  · simp

theorem PlaygroupInfo.serialises (info : PlaygroupInfo) : Serialises info.write
    (∀ entry ∈ info.attributes.toList, Numeral (Json.cString entry.1)) := by
  have attributes := (serialises_texts "ATTR" (.inl rfl) info.attributes.toList).iff
    (by simp only [KeyFits, forall_const] :
      _ ↔ ∀ entry ∈ info.attributes.toList, Numeral (Json.cString entry.1))
  refine (((attributes.then (Serialises.leaves ?_)).then (Serialisable.unset _)).then
    (Serialises.leaves ?_))
  all_goals simp

theorem PlaygroupMemberInfo.serialises (info : PlaygroupMemberInfo) : Serialises info.write
    (∀ entry ∈ info.attributes.toList, Numeral (Json.cString entry.1)) := by
  have attributes := (serialises_texts "ATTR" (.inl rfl) info.attributes.toList).iff
    (by simp only [KeyFits, forall_const] :
      _ ↔ ∀ entry ∈ info.attributes.toList, Numeral (Json.cString entry.1))
  refine (((attributes.then (Serialises.leaves ?_)).then (Serialisable.unset _)).then
    (Serialises.leaves ?_)).then (Serialisable.struct _ info.user.serialisable)
  all_goals simp

theorem ReplicatedGamePlayer.serialisable (player : ReplicatedGamePlayer) :
    Serialisable player.write := by
  have network := (Puts.union (ascii "PNET") UserSessionExtendedData.ipPairAddress
    (by decide) (Serialisable.struct "VALU" player.hostNetwork.serialisable)).serialises
  refine ((((Serialises.then (Serialises.leaves ?_) (Serialisable.texts _ _)).then
    (Serialises.leaves ?_)).then network).then (Serialises.leaves ?_))
  all_goals simp

theorem ReplicatedGameData.serialisable (data : ReplicatedGameData) : Serialisable data.write := by
  refine ((((((((((((((Serialisable.integers _ _).then (Serialisable.texts _ _)).then
    (Serialisable.integers _ _)).then (Serialisable.texts _ _)).then (Serialises.leaves ?_)).then
    (hostAddresses_serialisable _)).then (Serialises.leaves ?_)).then
    (Serialisable.struct _ data.networkQos.serialisable)).then (Serialises.leaves ?_)).then
    (Serialisable.struct _ data.pHost.serialisable)).then (Serialises.leaves ?_)).then
    (Serialisable.struct _ data.tHost.serialisable)).then (Serialisable.integers _ _)).then
    (Serialises.leaves ?_))
  all_goals simp

theorem CreateGameRequest.serialisable (request : CreateGameRequest) : Serialisable request.write := by
  refine (((((((((((((((((Serialisable.integers _ _).then (Serialisable.texts _ _)).then
    (Serialises.leaves ?_)).then (Serialisable.texts _ _)).then (Serialises.leaves ?_)).then
    (hostAddresses_serialisable _)).then (Serialises.leaves ?_)).then (Serialisable.texts _ _)).then
    (Serialises.leaves ?_)).then (Serialisable.texts _ _)).then (Serialisable.integers _ _)).then
    (Serialises.leaves ?_)).then (Serialisable.integers _ _)).then (Serialisable.integers _ _)).then
    (Serialises.leaves ?_)).then (Serialisable.integers _ _)).then (Serialises.leaves ?_))
  all_goals simp

/-- Every structure is written exactly where the texts that it puts for integers can be converted. -/
theorem Structure.serialises (data : Structure) : Serialises data.write data.Convertible := by
  -- Only the PSS configuration, the playgroups and their members come with a condition.
  cases data with
  | clientData data => exact Serialises.leaves (by simp [write, ClientData.write])
  | presenceInfo info => exact Serialises.leaves (by simp [write, PresenceInfo.write])
  | ipAddress ip => exact ip.serialisable
  | hostNameAddress host => exact Serialises.leaves (by simp [write, HostNameAddress.write])
  | ipPairAddress pair => exact pair.serialisable
  | userOptions options => exact Serialises.leaves (by simp [write, UserOptions.write])
  | tickerServer server => exact Serialises.leaves (by simp [write, TickerServer.write])
  | telemetryServer server => exact Serialises.leaves (by simp [write, TelemetryServer.write])
  | pssConfig config => exact config.serialises
  | networkQosData data => exact data.serialisable
  | qosPingSiteInfo info => exact info.serialisable
  | qosConfigInfo config => exact config.serialisable
  | userSessionExtendedData data => exact data.serialisable
  | hostInfo info => exact info.serialisable
  | personaDetails details => exact details.serialisable
  | sessionInfo info => exact info.serialisable
  | listIdentification identification => exact identification.serialisable
  | listInfo info => exact info.serialisable
  | listMemberId member => exact member.serialisable
  | listMemberInfo info => exact info.serialisable
  | listMemberInfoUpdate update =>
    exact (Serialisable.struct _ update.info.serialisable).then (Serialises.leaves (by simp))
  | listMembers members => exact members.serialisable
  | clientMessage message => exact message.serialisable
  | serverMessage server =>
    refine (Serialises.then (Serialises.leaves ?_)
      (Serialisable.struct _ server.message.serialisable)).then (Serialises.leaves ?_)
    all_goals simp
  | userIdentification user => exact user.serialisable
  | userData data =>
    exact ((Serialisable.struct _ data.extendedData.serialisable).then
      (Serialises.leaves (by simp))).then (Serialisable.struct _ data.user.serialisable)
  | playgroupInfo info => exact info.serialises
  | playgroupMemberInfo info => exact info.serialises
  | playerConnectionStatus status =>
    exact Serialises.leaves (by simp [write, PlayerConnectionStatus.write])
  | replicatedGamePlayer player => exact player.serialisable
  | replicatedGameData data => exact data.serialisable
  | userDetails details =>
    exact Serialises.then (Serialises.leaves (by simp))
      (Serialisable.structs "PLST" false _ PersonaDetails.serialisable)
  | passwordRulesInfo info => exact Serialises.leaves (by simp [write, PasswordRulesInfo.write])
  | roomMemberData data => exact Serialises.leaves (by simp [write, RoomMemberData.write])
  | createGameRequest request => exact request.serialisable

/-! ## Packets made of structures -/

/-- What a packet is made of: structures, and structs that hold structures in turn. -/
inductive Parts where
  | nil
  | put (data : Structure) (rest : Parts)
  | struct (label : Bytes) (fields rest : Parts)

namespace Parts

/-- The calls that put all of it. -/
def calls : Parts → List Packet.Call
  | nil => []
  | put data rest => data.write ++ rest.calls
  | struct label fields rest => inside (.pushStruct label) fields.calls ++ rest.calls

/-- Every structure in it. -/
def structures : Parts → List Structure
  | nil => []
  | put data rest => data :: rest.structures
  | struct _ fields rest => fields.structures ++ rest.structures

theorem serialises (parts : Parts) :
    Serialises parts.calls (∀ data ∈ parts.structures, data.Convertible) := by
  induction parts with
  | nil => exact Serialises.nil.iff (by simp [structures])
  | put data rest ih =>
    refine (data.serialises.append ih).iff ?_
    rw [structures, List.forall_mem_cons]
  | struct label fields rest inner ih =>
    refine ((Puts.struct label inner).serialises.append ih).iff ?_
    rw [structures, List.forall_mem_append]

/--
A packet made of structures is written exactly where the texts in all of them can be converted.

A playgroup and its members put their attributes into maps whose keys are integers, and the
configuration of a server puts its object ids into a list of integers.
These texts may be any, and one that does not start with a number makes the conversion throw.
-/
theorem written_iff_convertible (parts : Parts) (b : DataBuffer) :
    (∃ after, (Packet.empty.calls parts.calls).writeAll b = .ok after) ↔
      ∀ data ∈ parts.structures, data.Convertible :=
  parts.serialises.writeAll b

end Parts

/-- A playgroup without anything but an attribute under a name that is no number. -/
def namedAttribute : PlaygroupInfo where
  attributes := (∅ : TextMap).insert (ascii "mode") (ascii "ranked")
  uuid := []
  ukey := []
  name := []
  ownerId := 0
  playgroupId := 0
  memberLimit := 0
  hostSlotId := 0
  state := 0
  ntop := .clientServerDedicated
  pres := .standard
  uprs := false
  enbv := false

/-- A packet with that playgroup is not written. -/
theorem Parts.not_written :
    ¬ ∀ (parts : Parts) (b : DataBuffer),
      ∃ after, (Packet.empty.calls parts.calls).writeAll b = .ok after := by
  intro always
  let parts := Parts.put (.playgroupInfo namedAttribute) .nil
  have convertible := (parts.serialises.writeAll .empty).mp (always parts .empty)
  have numeral := convertible (.playgroupInfo namedAttribute) List.mem_cons_self
    (ascii "mode", ascii "ranked") (by decide)
  exact absurd numeral (by decide)

end Recap.Blaze
