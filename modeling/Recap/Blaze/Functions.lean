import Recap.Blaze.Packet

/-! The structures that Blaze packets are made of, and the calls that put them into a packet. -/

namespace Recap.Blaze

open Packet (Call)

/-- A value of an enumeration that nothing but its number is used of, which is an `int`. -/
abbrev Enumerator := Int32

/-- `object_id` -/
structure ObjectId where
  x : UInt16
  y : UInt16
  z : UInt64
deriving DecidableEq

/-- `GameNetworkTopology` -/
inductive GameNetworkTopology where
  | clientServerPeerHosted | clientServerDedicated | peerToPeerFullMesh | peerToPeerPartialMesh
  | peerToPeerDirtyCastFailover
deriving DecidableEq

namespace GameNetworkTopology

def toNat : GameNetworkTopology → Nat
  | clientServerPeerHosted => 0
  | clientServerDedicated => 1
  | peerToPeerFullMesh => 0x82
  | peerToPeerPartialMesh => 0x83
  | peerToPeerDirtyCastFailover => 0x84

def ofNumber : Nat → Option GameNetworkTopology
  | 0 => some clientServerPeerHosted
  | 1 => some clientServerDedicated
  | 0x82 => some peerToPeerFullMesh
  | 0x83 => some peerToPeerPartialMesh
  | 0x84 => some peerToPeerDirtyCastFailover
  | _ => none

end GameNetworkTopology

/-- `PresenceMode` -/
inductive PresenceMode where
  | none | standard | private_
deriving DecidableEq

namespace PresenceMode

def toNat : PresenceMode → Nat
  | none => 0
  | standard => 1
  | private_ => 2

def ofNumber : Nat → Option PresenceMode
  | 0 => some none
  | 1 => some standard
  | 2 => some private_
  | _ => Option.none

end PresenceMode

/-- `std::map<std::string, std::string>` -/
abbrev TextMap := Std.TreeMap Bytes Bytes

/-! ## Calls -/

namespace Call

def integer (label : String) (value : Nat) : Call := .putInteger (ascii label) value

/-- A signed number is put as the unsigned one that stands for it. -/
def signed (label : String) (value : Int64) : Call := integer label value.toUInt64.toNat

def enumerator (label : String) (value : Enumerator) : Call := signed label value.toInt64

def flag (label : String) (value : Bool) : Call := integer label (if value then 1 else 0)

def string (label : String) (value : Bytes) : Call := .putString (ascii label) value

/-- `put_blob` without data -/
def noBlob (label : String) : Call := .putBlob (ascii label) []

def objectId (label : String) (value : ObjectId) : Call :=
  .putObjectId (ascii label) value.x.toNat value.y.toNat value.z.toNat

/-- A container is pushed, filled and popped. -/
def inside (push : Call) (filling : List Call) : List Call := push :: (filling ++ [.pop])

def struct (label : String) (filling : List Call) : List Call :=
  inside (.pushStruct (ascii label)) filling

/-- A list of numbers, which are put without a name. -/
def integers (label : String) (values : List Nat) : List Call :=
  inside (.pushList (ascii label) .integer false) (values.map fun value => integer "" value)

/-- A map with the given type of keys, whose values are texts. -/
def texts (label : String) (keys : Kind) (entries : List (Bytes × Bytes)) : List Call :=
  inside (.pushMap (ascii label) keys .string)
    (entries.map fun (key, value) => .putString key value)

end Call

open Call

/-! ## Structures -/

structure ClientData where
  serviceName : Bytes
  type : Enumerator
  lang : UInt32
  iito : Bool

def ClientData.write (data : ClientData) : List Call :=
  [flag "IITO" data.iito, integer "LANG" data.lang.toNat, string "SVCN" data.serviceName,
    enumerator "TYPE" data.type]

structure PresenceInfo where
  state : Enumerator
  level : UInt32
  playgroupId : UInt16
  extra : UInt16

def PresenceInfo.write (info : PresenceInfo) : List Call :=
  [integer "GRP" info.playgroupId.toNat, integer "LVL" info.level.toNat,
    enumerator "STAT" info.state, integer "XTRA" info.extra.toNat]

structure IpAddress where
  address : UInt32
  port : UInt16
deriving DecidableEq

def IpAddress.write (ip : IpAddress) : List Call :=
  [integer "IP" ip.address.toNat, integer "PORT" ip.port.toNat]

structure HostNameAddress where
  name : Bytes
  port : UInt16

def HostNameAddress.write (host : HostNameAddress) : List Call :=
  [string "NAME" host.name, integer "PORT" host.port.toNat]

structure IpPairAddress where
  exip : IpAddress
  inip : IpAddress
deriving DecidableEq

def IpPairAddress.write (pair : IpPairAddress) : List Call :=
  struct "EXIP" pair.exip.write ++ struct "INIP" pair.inip.write

structure UserOptions where
  value : Enumerator

def UserOptions.write (options : UserOptions) : List Call := [enumerator "TMOP" options.value]

structure TickerServer where
  address : Bytes
  key : Bytes
  port : UInt16

def TickerServer.write (server : TickerServer) : List Call :=
  [string "ADRS" server.address, integer "PORT" server.port.toNat, string "SKEY" server.key]

structure TelemetryServer where
  address : Bytes
  disable : Bytes
  filter : Bytes
  noToggleOk : Bytes
  session : Bytes
  key : Bytes
  location : UInt32
  port : UInt32
  sendDelay : UInt32
  sendPercentage : UInt32
  anonymous : Bool

def TelemetryServer.write (server : TelemetryServer) : List Call :=
  [string "ADRS" server.address, flag "ANON" server.anonymous, string "DISA" server.disable,
    string "FILT" server.filter, integer "LOC" server.location.toNat,
    string "NOOK" server.noToggleOk, integer "PORT" server.port.toNat,
    integer "SDLY" server.sendDelay.toNat, string "SESS" server.session, string "SKEY" server.key,
    integer "SPCT" server.sendPercentage.toNat]

structure PssConfig where
  oids : List Bytes
  address : Bytes
  pjid : Bytes
  port : UInt32
  rprt : UInt32
  tiid : UInt32

/-- The object ids are put as texts into a list of integers. -/
def PssConfig.write (config : PssConfig) : List Call :=
  [string "ADRS" config.address, noBlob "CSIG"] ++
    inside (.pushList (ascii "OIDS") .integer false) (config.oids.map fun oid => string "" oid) ++
    [string "PJID" config.pjid, integer "PORT" config.port.toNat,
      integer "RPRT" config.rprt.toNat, integer "TIID" config.tiid.toNat]

structure NetworkQosData where
  dbps : UInt32
  type : Enumerator
  ubps : UInt32

def NetworkQosData.write (data : NetworkQosData) : List Call :=
  [integer "DBPS" data.dbps.toNat, enumerator "NATT" data.type, integer "UBPS" data.ubps.toNat]

structure QosPingSiteInfo where
  name : Bytes
  address : Bytes
  port : UInt16

def QosPingSiteInfo.write (info : QosPingSiteInfo) : List Call :=
  [string "PSA" info.address, integer "PSP" info.port.toNat, string "SNA" info.name]

structure QosConfigInfo where
  bandwidthPingSiteInfo : List QosPingSiteInfo
  pingSiteInfoByAlias : Std.TreeMap Bytes QosPingSiteInfo
  serviceId : UInt32
  latencyProbes : UInt16

def QosConfigInfo.write (config : QosConfigInfo) : List Call :=
  struct "BWPS" ((config.bandwidthPingSiteInfo.head?.map QosPingSiteInfo.write).getD []) ++
    [integer "LNP" config.latencyProbes.toNat] ++
    inside (.pushMap (ascii "LTPS") .string .struct)
      (config.pingSiteInfoByAlias.toList.flatMap fun (name, siteInfo) =>
        inside (.pushStruct name) siteInfo.write) ++
    [integer "SVID" config.serviceId.toNat]

structure UserSessionExtendedData where
  qos : NetworkQosData
  ip : IpPairAddress
  clientAttributes : Std.TreeMap UInt32 Int32
  dataMap : Std.TreeMap UInt32 Int64
  latencyList : List Int32
  blazeObjectIdList : List ObjectId
  country : Bytes
  userAttributes : UInt64
  hardwareFlags : UInt32

namespace UserSessionExtendedData

/-- `NetworkAddressMember::IpPairAddress` -/
def ipPairAddress : Nat := 2

/-- A map between integers, whose keys are put as their decimal digits. -/
def integerMap (label : String) (entries : List (UInt32 × Int64)) : List Call :=
  inside (.pushMap (ascii label) .integer .integer)
    (entries.map fun (key, value) => .putInteger (toDecimal key.toNat) value.toUInt64.toNat)

def write (data : UserSessionExtendedData) : List Call :=
  (if data.ip.exip.address = 0 ∧ data.ip.inip.address = 0 then
      inside (.pushUnion (ascii "ADDR") addressUnset) []
    else inside (.pushUnion (ascii "ADDR") ipPairAddress) (struct "VALU" data.ip.write)) ++
    [string "BPS" (ascii "gva")] ++
    integerMap "CMAP" (data.clientAttributes.toList.map fun (key, value) => (key, value.toInt64)) ++
    [string "CTY" data.country] ++
    inside (.pushIntegerList (ascii "CVAR")) [] ++
    integerMap "DMAP" data.dataMap.toList ++
    [integer "HWFG" data.hardwareFlags.toNat] ++
    integers "PSLM" (data.latencyList.map fun value => value.toInt64.toUInt64.toNat) ++
    struct "QDAT" data.qos.write ++
    [integer "UATT" data.userAttributes.toNat] ++
    inside (.pushList (ascii "ULST") .objectId false)
      (data.blazeObjectIdList.map fun value => objectId "" value)

end UserSessionExtendedData

structure HostInfo where
  id : Int64
  slot : UInt8

def HostInfo.write (info : HostInfo) : List Call :=
  [signed "HPID" info.id, integer "HSLT" info.slot.toNat]

structure PersonaDetails where
  name : Bytes
  id : Int64
  last : UInt32
  status : Enumerator
  externalReference : UInt64
  externalReferenceType : Enumerator

def PersonaDetails.write (details : PersonaDetails) : List Call :=
  [string "DSNM" details.name, integer "LAST" details.last.toNat, signed "PID" details.id,
    enumerator "STAS" details.status, integer "XREF" details.externalReference.toNat,
    enumerator "XTYP" details.externalReferenceType]

structure SessionInfo where
  personaDetails : PersonaDetails
  email : Bytes
  key : Bytes
  blazeId : Int64
  uid : Int64
  lastLogin : Int64
  firstLogin : Bool

def SessionInfo.write (info : SessionInfo) : List Call :=
  [signed "BUID" info.blazeId, flag "FRST" info.firstLogin, string "KEY" info.key,
    signed "LLOG" info.lastLogin, string "MAIL" info.email] ++
    struct "PDTL" info.personaDetails.write ++ [signed "UID" info.uid]

structure ListIdentification where
  name : Bytes
  type : UInt32

def ListIdentification.write (identification : ListIdentification) : List Call :=
  [string "LNM" identification.name, integer "TYPE" identification.type.toNat]

structure ListInfo where
  blazeObjectId : ObjectId
  identification : ListIdentification
  flags : UInt32
  lms : UInt32
  prid : UInt32

def ListInfo.write (info : ListInfo) : List Call :=
  [objectId "BOID" info.blazeObjectId, integer "FLGS" info.flags.toNat] ++
    struct "LID" info.identification.write ++
    [integer "LMS" info.lms.toNat, integer "PRID" info.prid.toNat]

structure ListMemberId where
  name : Bytes
  id : Int64
  externalReference : UInt64
  externalReferenceType : Enumerator

def ListMemberId.write (member : ListMemberId) : List Call :=
  [signed "BLID" member.id, string "PNAM" member.name,
    integer "XREF" member.externalReference.toNat, enumerator "XTYP" member.externalReferenceType]

structure ListMemberInfo where
  id : ListMemberId
  time : Int64

def ListMemberInfo.write (info : ListMemberInfo) : List Call :=
  struct "LMID" info.id.write ++ [signed "TIME" info.time]

structure ListMemberInfoUpdate where
  info : ListMemberInfo
  type : Enumerator

def ListMemberInfoUpdate.write (update : ListMemberInfoUpdate) : List Call :=
  struct "LMID" update.info.write ++ [enumerator "LUPT" update.type]

structure ListMembers where
  memberList : List ListMemberInfo
  info : ListInfo
  ofrc : UInt32
  toct : UInt32

def ListMembers.write (members : ListMembers) : List Call :=
  struct "INFO" members.info.write ++
    inside (.pushList (ascii "MEML") .struct false)
      (members.memberList.flatMap fun memberInfo => struct "" memberInfo.write) ++
    [integer "OFRC" members.ofrc.toNat, integer "TOCT" members.toct.toNat]

structure ClientMessage where
  attributes : Std.TreeMap UInt32 Bytes
  target : ObjectId
  flags : UInt32
  stat : UInt32
  tag : UInt32
  type : UInt32

def ClientMessage.write (message : ClientMessage) : List Call :=
  texts "ATTR" .integer (message.attributes.toList.map fun (id, text) => (toDecimal id.toNat, text)) ++
    [integer "FLAG" message.flags.toNat, integer "STAT" message.stat.toNat,
      integer "TAG" message.tag.toNat, objectId "TARG" message.target,
      integer "TYPE" message.type.toNat]

structure ServerMessage where
  message : ClientMessage
  name : Bytes
  source : ObjectId
  flags : UInt32
  messageId : UInt32
  time : UInt32

def ServerMessage.write (server : ServerMessage) : List Call :=
  [integer "FLAG" server.flags.toNat, integer "MGID" server.messageId.toNat,
    string "NAME" server.name] ++
    struct "PYLD" server.message.write ++
    [objectId "SRCE" server.source, integer "TIME" server.time.toNat]

structure UserIdentification where
  name : Bytes
  id : Int64
  localization : UInt32

def UserIdentification.write (user : UserIdentification) : List Call :=
  [signed "AID" user.id, integer "ALOC" user.localization.toNat, noBlob "EXBB", integer "EXID" 0,
    signed "ID" user.id, string "NAME" user.name]

structure UserData where
  extendedData : UserSessionExtendedData
  user : UserIdentification
  statusFlags : UInt32

def UserData.write (data : UserData) : List Call :=
  struct "EDAT" data.extendedData.write ++ [integer "FLGS" data.statusFlags.toNat] ++
    struct "USER" data.user.write

structure PlaygroupInfo where
  attributes : TextMap
  uuid : Bytes
  ukey : Bytes
  name : Bytes
  ownerId : Int64
  playgroupId : UInt32
  memberLimit : UInt16
  hostSlotId : UInt8
  state : Enumerator
  ntop : GameNetworkTopology
  pres : PresenceMode
  uprs : Bool
  enbv : Bool

/-- The attributes have texts for keys, and stand in a map whose keys are integers. -/
def PlaygroupInfo.write (info : PlaygroupInfo) : List Call :=
  texts "ATTR" .integer info.attributes.toList ++ [flag "ENBV" info.enbv] ++
    inside (.pushUnion (ascii "HNET") addressUnset) [] ++
    [integer "HSID" info.hostSlotId.toNat, enumerator "JOIN" info.state,
      integer "MLIM" info.memberLimit.toNat, string "NAME" info.name, integer "NTOP" info.ntop.toNat,
      signed "OWNR" info.ownerId, integer "PGID" info.playgroupId.toNat,
      integer "PRES" info.pres.toNat, string "UKEY" info.ukey, flag "UPRS" info.uprs,
      string "UUID" info.uuid, integer "VOIP" 0, noBlob "XNNC", noBlob "XSES"]

structure PlaygroupMemberInfo where
  attributes : TextMap
  user : UserIdentification
  jtim : UInt32
  permissions : UInt32
  slot : UInt8

/-- The same goes for the attributes of a member. -/
def PlaygroupMemberInfo.write (info : PlaygroupMemberInfo) : List Call :=
  texts "ATTR" .integer info.attributes.toList ++
    [integer "JTIM" info.jtim.toNat, integer "PERM" info.permissions.toNat] ++
    inside (.pushUnion (ascii "PNET") addressUnset) [] ++
    [integer "SID" info.slot.toNat] ++ struct "USER" info.user.write

structure PlayerConnectionStatus where
  id : Int64
  flags : UInt32
  status : Enumerator

def PlayerConnectionStatus.write (status : PlayerConnectionStatus) : List Call :=
  [integer "FLGS" status.flags.toNat, signed "PID" status.id, enumerator "STAT" status.status]

structure ReplicatedGamePlayer where
  ugid : ObjectId
  name : Bytes
  hostNetwork : IpPairAddress
  id : Int64
  time : Int64
  gameId : UInt32
  localization : UInt32
  uid : UInt32
  tIndex : UInt16
  slot : UInt8
  slotType : Enumerator
  state : Enumerator

def ReplicatedGamePlayer.write (player : ReplicatedGamePlayer) : List Call :=
  [noBlob "BLOB", integer "EXID" 0, integer "GID" player.gameId.toNat,
    integer "LOC" player.localization.toNat, string "NAME" player.name] ++
    texts "PATT" .string [] ++ [signed "PID" player.id] ++
    inside (.pushUnion (ascii "PNET") UserSessionExtendedData.ipPairAddress)
      (struct "VALU" player.hostNetwork.write) ++
    [integer "SID" player.slot.toNat, enumerator "SLOT" player.slotType,
      enumerator "STAT" player.state, integer "TIDX" player.tIndex.toNat,
      signed "TIME" player.time, objectId "UGID" player.ugid, integer "UID" player.uid.toNat]

structure ReplicatedGameData where
  attributes : TextMap
  criteria : TextMap
  administrators : List Int64
  capacity : List UInt16
  tids : List UInt16
  name : Bytes
  type : Bytes
  playgroupId : Bytes
  psas : Bytes
  uuid : Bytes
  version : Bytes
  hostNetwork : IpPairAddress
  networkQos : NetworkQosData
  pHost : HostInfo
  tHost : HostInfo
  gpvh : UInt64
  gsid : UInt64
  id : UInt32
  settings : UInt32
  hses : UInt32
  seed : UInt32
  maxPlayers : UInt16
  queueCapacity : UInt16
  tcap : UInt16
  state : Enumerator
  networkTopology : GameNetworkTopology
  presence : PresenceMode
  ignore : Bool
  resetable : Bool

/-- The host's addresses as a stub list, which holds one struct with both of them. -/
def hostAddresses (pair : IpPairAddress) : List Call :=
  inside (.pushList (ascii "HNET") .struct true) (struct "" pair.write)

def ReplicatedGameData.write (data : ReplicatedGameData) : List Call :=
  integers "ADMN" (data.administrators.map fun value => value.toUInt64.toNat) ++
    texts "ATTR" .string data.attributes.toList ++
    integers "CAP" (data.capacity.map UInt16.toNat) ++
    texts "CRIT" .string data.criteria.toList ++
    [integer "GID" data.id.toNat, string "GNAM" data.name, integer "GPVH" data.gpvh.toNat,
      integer "GSET" data.settings.toNat, integer "GSID" data.gsid.toNat,
      enumerator "GSTA" data.state, string "GTYP" data.type] ++
    hostAddresses data.hostNetwork ++
    [integer "HSES" data.hses.toNat, flag "IGNO" data.ignore,
      integer "MCAP" data.maxPlayers.toNat] ++
    struct "NQOS" data.networkQos.write ++
    [flag "NRES" (!data.resetable), integer "NTOP" data.networkTopology.toNat,
      string "PGID" data.playgroupId, noBlob "PGSR"] ++
    struct "PHST" data.pHost.write ++
    [integer "PRES" data.presence.toNat, string "PSAS" data.psas,
      integer "QCAP" data.queueCapacity.toNat, integer "SEED" data.seed.toNat,
      integer "TCAP" data.tcap.toNat] ++
    struct "THST" data.tHost.write ++
    integers "TIDS" (data.tids.map UInt16.toNat) ++
    [string "UUID" data.uuid, integer "VOIP" 0, string "VSTR" data.version, noBlob "XNNC",
      noBlob "XSES"]

structure UserDetails where
  personaDetailsList : List PersonaDetails
  mail : Bytes

def UserDetails.write (details : UserDetails) : List Call :=
  [string "MAIL" details.mail] ++
    inside (.pushList (ascii "PLST") .struct false)
      (details.personaDetailsList.flatMap fun value => struct "" value.write)

structure PasswordRulesInfo where
  vdch : Bytes
  minS : UInt16
  maxS : UInt16

def PasswordRulesInfo.write (info : PasswordRulesInfo) : List Call :=
  [integer "MAXS" info.maxS.toNat, integer "MINS" info.minS.toNat, string "VDCH" info.vdch]

structure RoomMemberData where
  memberId : Int64
  roomId : UInt32

def RoomMemberData.write (data : RoomMemberData) : List Call :=
  [signed "BZID" data.memberId, integer "RMID" data.roomId.toNat]

structure CreateGameRequest where
  attributes : TextMap
  playerAttributes : TextMap
  criteria : TextMap
  matr : TextMap
  administrators : List Int64
  seat : List Int64
  sidl : List UInt32
  capacity : List UInt16
  tids : List UInt16
  name : Bytes
  type : Bytes
  playgroupId : Bytes
  playgroupSc : Bytes
  version : Bytes
  ctr : Bytes
  url : Bytes
  hostNetwork : IpPairAddress
  btpl : ObjectId
  rgid : UInt32
  settings : UInt32
  slot : UInt32
  maxPlayers : UInt16
  queueCapacity : UInt16
  tcap : UInt16
  tIndex : UInt16
  networkTopology : GameNetworkTopology
  presence : PresenceMode
  ignore : Bool
  resetable : Bool

def CreateGameRequest.write (request : CreateGameRequest) : List Call :=
  integers "ADMN" (request.administrators.map fun value => value.toUInt64.toNat) ++
    texts "ATTR" .string request.attributes.toList ++
    [objectId "BTPL" request.btpl] ++
    texts "CRIT" .string request.criteria.toList ++
    [string "GCTR" request.ctr, string "GNAM" request.name, integer "GSET" request.settings.toNat,
      string "GTYP" request.type, string "GURL" request.url] ++
    hostAddresses request.hostNetwork ++
    [flag "IGNO" request.ignore] ++
    texts "MATR" .string request.matr.toList ++
    [flag "NRES" (!request.resetable), integer "NTOP" request.networkTopology.toNat] ++
    texts "PATT" .string request.playerAttributes.toList ++
    integers "PCAP" (request.capacity.map UInt16.toNat) ++
    [string "PGID" request.playgroupId, noBlob "PGSR", integer "PMAX" request.maxPlayers.toNat,
      integer "PRES" request.presence.toNat, integer "QCAP" request.queueCapacity.toNat,
      integer "RGID" request.rgid.toNat] ++
    integers "SEAT" (request.seat.map fun value => value.toUInt64.toNat) ++
    integers "SIDL" (request.sidl.map UInt32.toNat) ++
    [integer "SLOT" request.slot.toNat, integer "TCAP" request.tcap.toNat] ++
    integers "TIDS" (request.tids.map UInt16.toNat) ++
    [integer "TIDX" request.tIndex.toNat, integer "VOIP" 0, string "VSTR" request.version]

end Recap.Blaze
