import Recap.Blaze.Functions
import Recap.Lib.Succeeds

/-! Structures that are read from documents, and the documents that they can be read from. -/

namespace Recap.Blaze

namespace Json

/-! ## Accessors -/

/-- `GetInt64()` -/
def getInt64 : Json → Except Fault Int64
  | number value => if value < 2 ^ 63 then .ok (Int64.ofNat value) else .error .assertion
  | _ => .error .assertion

/-- `value[index]`, which asserts that there are more items than the index says. -/
def item (value : Json) (index : Nat) : Except Fault Json :=
  match value with
  | array items => items[index]?.elim (.error .assertion) .ok
  | _ => .error .assertion

/-- `value[label]` -/
def named (value : Json) (label : String) : Except Fault Json := value.member (ascii label)

/-- `value[label].GetUint()` -/
def uintAt (value : Json) (label : String) : Except Fault Nat := do (← value.named label).getUint

/-- `value[label].GetUint64()` -/
def uint64At (value : Json) (label : String) : Except Fault Nat := do (← value.named label).getUint64

/-- `value[label].GetInt64()` -/
def int64At (value : Json) (label : String) : Except Fault Int64 := do (← value.named label).getInt64

/-- `value[label].GetString()` -/
def textAt (value : Json) (label : String) : Except Fault Bytes := do (← value.named label).getString

/-- A loop over `value["_Content"].GetArray()`. -/
def readItems {α : Type} (value : Json) (body : Json → Except Fault α) : Except Fault (List α) := do
  (← (← value.named "_Content").getArray).mapM body

/-- Entries that are added to a map, where a key that it has keeps its text. -/
def readTexts (map : TextMap) : List (Bytes × Json) → Except Fault TextMap
  | [] => .ok map
  | (name, value) :: rest => do
    readTexts (map.insertIfNew (cString name) (← value.getString)) rest

/-- A loop over `value["_Content"].GetObject()` that adds every entry to a map of texts. -/
def readMap (value : Json) (map : TextMap) : Except Fault TextMap := do
  readTexts map (← (← value.named "_Content").getObject)

/-- Read a member where `FindMember` finds it. -/
def readFound {α : Type} (value : Json) (label : String) (unread : α)
    (read : Json → Except Fault α) : Except Fault α :=
  match value with
  | object members => (find (ascii label) members).elim (.ok unread) read
  | _ => .error .assertion

end Json

/-! ## Structures -/

/-- `IpAddress::Read` -/
def IpAddress.read (ip : IpAddress) (value : Json) : Except Fault IpAddress :=
  match value with
  | .object _ => do
    let address ← value.uintAt "IP"
    let port ← value.uintAt "PORT"
    return ⟨.ofNat address, .ofNat port⟩
  | _ => .ok ip

/-- The two addresses of a host, the first of which is read as the internal one. -/
def IpPairAddress.readList (pair : IpPairAddress) (value : Json) : Except Fault IpPairAddress := do
  let hnetData ← value.named "_Content"
  let inip ← pair.inip.read (← hnetData.item 0)
  let exip ← pair.exip.read (← hnetData.item 1)
  return ⟨exip, inip⟩

/-- `PlayerConnectionStatus::Read` -/
def PlayerConnectionStatus.read (status : PlayerConnectionStatus) (value : Json) :
    Except Fault PlayerConnectionStatus :=
  match value with
  | .object _ => do
    let flags ← value.uintAt "FLGS"
    let id ← value.int64At "PID"
    let number ← value.uintAt "STAT"
    return ⟨id, .ofNat flags, .ofNat number⟩
  | _ => .ok status

/-- `object_id`, from its three members -/
def ObjectId.read (value : Json) : Except Fault ObjectId := do
  let x ← value.uintAt "_X"
  let y ← value.uintAt "_Y"
  let z ← value.uint64At "_Z"
  return ⟨.ofNat x, .ofNat y, .ofNat z⟩

/--
`CreateGameRequest::Read`

Nothing comes of it where a number stands for a topology or a presence that has no name.
-/
def CreateGameRequest.read (request : CreateGameRequest) (value : Json) :
    Except Fault (Option CreateGameRequest) :=
  match value with
  | .object _ => do
    let administrators ← value.readFound "ADMN" [] fun found => found.readItems Json.getInt64
    let attributes ← (← value.named "ATTR").readMap request.attributes
    let btpl ← ObjectId.read (← value.named "BTPL")
    let criteria ← value.readFound "CRIT" request.criteria fun found => found.readMap request.criteria
    let ctr ← value.textAt "GCTR"
    let name ← value.textAt "GNAM"
    let settings ← value.uintAt "GSET"
    let type ← value.textAt "GTYP"
    let url ← value.textAt "GURL"
    let hostNetwork ← request.hostNetwork.readList (← value.named "HNET")
    let ignore ← value.uintAt "IGNO"
    let matr ← value.readFound "MATR" request.matr fun found => found.readMap request.matr
    let resetable ← value.uintAt "NRES"
    let networkTopology ← value.uintAt "NTOP"
    let playerAttributes ← value.readFound "PATT" request.playerAttributes
      fun found => found.readMap request.playerAttributes
    let capacity ← (← value.named "PCAP").readItems Json.getUint
    let playgroupId ← value.textAt "PGID"
    let playgroupSc ← value.textAt "PGSC"
    let maxPlayers ← value.uintAt "PMAX"
    let presence ← value.uintAt "PRES"
    let queueCapacity ← value.uintAt "QCAP"
    let rgid ← value.uintAt "RGID"
    let seat ← value.readFound "SEAT" [] fun found => found.readItems Json.getInt64
    let sidl ← value.readFound "SIDL" [] fun found => found.readItems Json.getUint
    let slot ← value.uintAt "SLOT"
    let tcap ← value.uintAt "TCAP"
    let tids ← value.readFound "TIDS" [] fun found => found.readItems Json.getUint
    let tIndex ← value.uintAt "TIDX"
    let version ← value.textAt "VSTR"
    match GameNetworkTopology.ofNumber networkTopology, PresenceMode.ofNumber presence with
    | some networkTopology, some presence => return some {
        attributes, playerAttributes, criteria, matr
        administrators := request.administrators ++ administrators
        seat := request.seat ++ seat
        sidl := request.sidl ++ sidl.map .ofNat
        capacity := request.capacity ++ capacity.map .ofNat
        tids := request.tids ++ tids.map .ofNat
        name, type, playgroupId, playgroupSc, version, ctr, url
        hostNetwork, btpl
        rgid := .ofNat rgid
        settings := .ofNat settings
        slot := .ofNat slot
        maxPlayers := .ofNat maxPlayers
        queueCapacity := .ofNat queueCapacity
        tcap := .ofNat tcap
        tIndex := .ofNat tIndex
        networkTopology, presence
        ignore := ignore ≠ 0
        resetable := resetable ≠ 0 }
    | _, _ => return none
  | _ => .ok (some request)

/-- A request that nothing has been read into, with zero in every number. -/
def CreateGameRequest.blank : CreateGameRequest where
  attributes := ∅
  playerAttributes := ∅
  criteria := ∅
  matr := ∅
  administrators := []
  seat := []
  sidl := []
  capacity := []
  tids := []
  name := []
  type := []
  playgroupId := []
  playgroupSc := []
  version := []
  ctr := []
  url := []
  hostNetwork := ⟨⟨0, 0⟩, ⟨0, 0⟩⟩
  btpl := ⟨0, 0, 0⟩
  rgid := 0
  settings := 0
  slot := 0
  maxPlayers := 0
  queueCapacity := 0
  tcap := 0
  tIndex := 0
  networkTopology := .clientServerPeerHosted
  presence := .none
  ignore := false
  resetable := false

/-! ## Documents that can be read -/

namespace Json

/-- What `GetUint` can be asked of. -/
def IsUint : Json → Prop
  | number value => value < 2 ^ 32
  | _ => False

/-- What `GetUint64` can be asked of. -/
def IsUint64 : Json → Prop
  | number _ => True
  | _ => False

/-- What `GetInt64` can be asked of. -/
def IsInt64 : Json → Prop
  | number value => value < 2 ^ 63
  | _ => False

/-- What `GetString` can be asked of. -/
def IsText : Json → Prop
  | string _ => True
  | _ => False

/-- Whether a value is an object with a member of some kind under a label. -/
def Has (value : Json) (label : String) (kind : Json → Prop) : Prop :=
  ∃ members found, value = object members ∧ find (ascii label) members = some found ∧ kind found

/-- Whether a value is an array with an item of some kind at an index. -/
def HasItem (value : Json) (index : Nat) (kind : Json → Prop) : Prop :=
  ∃ items found, value = array items ∧ items[index]? = some found ∧ kind found

/-- Whether a member under a label is of some kind, where an object has one. -/
def May (members : List (Bytes × Json)) (label : String) (kind : Json → Prop) : Prop :=
  ∀ found, find (ascii label) members = some found → kind found

/-- Whether the content of a value is an array whose items are of some kind. -/
def Items (kind : Json → Prop) (value : Json) : Prop :=
  value.Has "_Content" fun content => ∃ items, content = array items ∧ ∀ item ∈ items, kind item

/-- Whether the content of a value is an object whose members are texts. -/
def Texts (value : Json) : Prop :=
  value.Has "_Content" fun content =>
    ∃ members, content = object members ∧ ∀ member ∈ members, member.2.IsText

theorem getUint_succeeds (value : Json) : Succeeds value.getUint value.IsUint := by
  cases value with
  | number value =>
    rw [getUint, IsUint]
    by_cases small : value < 2 ^ 32
    · rw [if_pos small]
      exact (Succeeds.ok value).iff (iff_of_true trivial small)
    · rw [if_neg small]
      exact (Succeeds.error _).iff (iff_of_false not_false small)
  | _ => exact Succeeds.error _

theorem getInt64_succeeds (value : Json) : Succeeds value.getInt64 value.IsInt64 := by
  cases value with
  | number value =>
    rw [getInt64, IsInt64]
    by_cases small : value < 2 ^ 63
    · rw [if_pos small]
      exact (Succeeds.ok _).iff (iff_of_true trivial small)
    · rw [if_neg small]
      exact (Succeeds.error _).iff (iff_of_false not_false small)
  | _ => exact Succeeds.error _

theorem getUint64_succeeds (value : Json) : Succeeds value.getUint64 value.IsUint64 := by
  cases value with
  | number value => exact Succeeds.ok value
  | _ => exact Succeeds.error _

theorem getString_succeeds (value : Json) : Succeeds value.getString value.IsText := by
  cases value with
  | string text => exact Succeeds.ok _
  | _ => exact Succeeds.error _

/-- What is done with a member succeeds where the member is there and of the kind that it takes. -/
theorem named_succeeds {α : Type} (value : Json) (label : String) {kind : Json → Prop}
    {next : Json → Except Fault α} (behind : ∀ found, Succeeds (next found) (kind found)) :
    Succeeds (value.named label >>= next) (value.Has label kind) := by
  refine (Succeeds.andThen fun found _ => behind found).iff ?_
  rw [Has, named]
  cases value with
  | object members =>
    -- The label is looked up among the members, and the first one counts.
    rw [member]
    cases looked : find (ascii label) members with
    | none => simp [looked]
    | some found => simp [looked]
  | _ => simp [member]

/-- What comes behind what is done with a member succeeds or fails on its own. -/
theorem named_then {α β : Type} (value : Json) (label : String) {kind : Json → Prop} {later : Prop}
    {first : Json → Except Fault α} {next : α → Except Fault β}
    (before : ∀ found, Succeeds (first found) (kind found))
    (behind : ∀ result, Succeeds (next result) later) :
    Succeeds (value.named label >>= fun found => first found >>= next)
      (value.Has label kind ∧ later) := by
  rw [← bind_assoc]
  exact (value.named_succeeds label before).bind behind

/-- What is done with an item succeeds where the item is there and of the kind that it takes. -/
theorem item_then {α β : Type} (value : Json) (index : Nat) {kind : Json → Prop} {later : Prop}
    {first : Json → Except Fault α} {next : α → Except Fault β}
    (before : ∀ found, Succeeds (first found) (kind found))
    (behind : ∀ result, Succeeds (next result) later) :
    Succeeds (value.item index >>= fun found => first found >>= next)
      (value.HasItem index kind ∧ later) := by
  have items : Succeeds (value.item index >>= first) (value.HasItem index kind) := by
    refine (Succeeds.andThen fun found _ => before found).iff ?_
    cases value with
    | array items =>
      rw [item]
      cases looked : items[index]? with
      | none => simp [HasItem, looked]
      | some found => simp [HasItem, looked]
    | _ => simp [HasItem, item]
  rw [← bind_assoc]
  exact items.bind behind

theorem uintAt_succeeds (value : Json) (label : String) :
    Succeeds (value.uintAt label) (value.Has label IsUint) :=
  value.named_succeeds label getUint_succeeds

theorem uint64At_succeeds (value : Json) (label : String) :
    Succeeds (value.uint64At label) (value.Has label IsUint64) :=
  value.named_succeeds label getUint64_succeeds

theorem int64At_succeeds (value : Json) (label : String) :
    Succeeds (value.int64At label) (value.Has label IsInt64) :=
  value.named_succeeds label getInt64_succeeds

theorem textAt_succeeds (value : Json) (label : String) :
    Succeeds (value.textAt label) (value.Has label IsText) :=
  value.named_succeeds label getString_succeeds

theorem getArray_succeeds {α : Type} (value : Json) {kind : List Json → Prop}
    {next : List Json → Except Fault α} (behind : ∀ items, Succeeds (next items) (kind items)) :
    Succeeds (value.getArray >>= next) (∃ items, value = array items ∧ kind items) := by
  cases value with
  | array items => exact (behind items).iff (by simp)
  | _ => exact (Succeeds.error _).iff (by simp)

theorem getObject_succeeds {α : Type} (value : Json) {kind : List (Bytes × Json) → Prop}
    {next : List (Bytes × Json) → Except Fault α}
    (behind : ∀ members, Succeeds (next members) (kind members)) :
    Succeeds (value.getObject >>= next) (∃ members, value = object members ∧ kind members) := by
  cases value with
  | object members => exact (behind members).iff (by simp)
  | _ => exact (Succeeds.error _).iff (by simp)

theorem readItems_succeeds {α : Type} (value : Json) {body : Json → Except Fault α}
    {kind : Json → Prop} (round : ∀ item, Succeeds (body item) (kind item)) :
    Succeeds (value.readItems body) (value.Items kind) := by
  unfold readItems
  exact value.named_succeeds "_Content" fun content =>
    content.getArray_succeeds fun items => Succeeds.each round

theorem readTexts_succeeds (map : TextMap) (members : List (Bytes × Json)) :
    Succeeds (readTexts map members) (∀ member ∈ members, member.2.IsText) := by
  induction members generalizing map with
  | nil => exact (Succeeds.ok map).iff (by simp)
  | cons member rest ih =>
    obtain ⟨name, value⟩ := member
    rw [readTexts, List.forall_mem_cons]
    exact (getString_succeeds value).bind fun text => ih _

theorem readMap_succeeds (value : Json) (map : TextMap) : Succeeds (value.readMap map) value.Texts := by
  unfold readMap
  exact value.named_succeeds "_Content" fun content =>
    content.getObject_succeeds fun members => readTexts_succeeds map members

theorem readFound_succeeds {α : Type} (members : List (Bytes × Json)) (label : String) (unread : α)
    {kind : Json → Prop} {read : Json → Except Fault α}
    (found : ∀ held, Succeeds (read held) (kind held)) :
    Succeeds ((object members).readFound label unread read) (May members label kind) := by
  rw [readFound, May]
  cases looked : find (ascii label) members with
  | none => exact (Succeeds.ok unread).iff (by simp)
  | some held => exact (found held).iff (by simp)

end Json

/-- The values that `IpAddress::Read` can be given. -/
def IpAddress.Readable (value : Json) : Prop :=
  ∀ members, value = .object members → value.Has "IP" Json.IsUint ∧ value.Has "PORT" Json.IsUint

theorem IpAddress.read_succeeds (ip : IpAddress) (value : Json) :
    Succeeds (ip.read value) (IpAddress.Readable value) := by
  cases value with
  | object members =>
    refine Succeeds.iff (((Json.object members).uintAt_succeeds "IP").bind fun address =>
      ((Json.object members).uintAt_succeeds "PORT").map _) ?_
    simp [Readable]
  | _ => exact (Succeeds.ok ip).iff (by simp [Readable])

/-- The values that `PlayerConnectionStatus::Read` can be given. -/
def PlayerConnectionStatus.Readable (value : Json) : Prop :=
  ∀ members, value = .object members →
    value.Has "FLGS" Json.IsUint ∧ value.Has "PID" Json.IsInt64 ∧ value.Has "STAT" Json.IsUint

theorem PlayerConnectionStatus.read_succeeds (status : PlayerConnectionStatus) (value : Json) :
    Succeeds (status.read value) (PlayerConnectionStatus.Readable value) := by
  cases value with
  | object members =>
    refine Succeeds.iff (((Json.object members).uintAt_succeeds "FLGS").bind fun flags =>
      ((Json.object members).int64At_succeeds "PID").bind fun id =>
        ((Json.object members).uintAt_succeeds "STAT").map _) ?_
    simp [Readable]
  | _ => exact (Succeeds.ok status).iff (by simp [Readable])

/-- The values that an `object_id` can be read from. -/
def ObjectId.Readable (value : Json) : Prop :=
  value.Has "_X" Json.IsUint ∧ value.Has "_Y" Json.IsUint ∧ value.Has "_Z" Json.IsUint64

theorem ObjectId.read_succeeds (value : Json) :
    Succeeds (ObjectId.read value) (ObjectId.Readable value) :=
  (value.uintAt_succeeds "_X").bind fun _ => (value.uintAt_succeeds "_Y").bind fun _ =>
    (value.uint64At_succeeds "_Z").map _

/-- The values that the two addresses of a host can be read from. -/
def IpPairAddress.Listed (value : Json) : Prop :=
  value.Has "_Content" fun content =>
    content.HasItem 0 IpAddress.Readable ∧ content.HasItem 1 IpAddress.Readable

theorem IpPairAddress.readList_succeeds (pair : IpPairAddress) (value : Json) :
    Succeeds (pair.readList value) (IpPairAddress.Listed value) :=
  value.named_succeeds "_Content" fun content =>
    content.item_then 0 pair.inip.read_succeeds fun _ =>
      (content.item_then 1 pair.exip.read_succeeds fun _ => Succeeds.ok _).iff
        (iff_of_eq (and_true _))

/-- The members that `CreateGameRequest::Read` can be given. -/
def CreateGameRequest.Readable (members : List (Bytes × Json)) : Prop :=
  let value := Json.object members
  Json.May members "ADMN" (Json.Items Json.IsInt64) ∧ value.Has "ATTR" Json.Texts ∧
  value.Has "BTPL" ObjectId.Readable ∧ Json.May members "CRIT" Json.Texts ∧
  value.Has "GCTR" Json.IsText ∧ value.Has "GNAM" Json.IsText ∧ value.Has "GSET" Json.IsUint ∧
  value.Has "GTYP" Json.IsText ∧ value.Has "GURL" Json.IsText ∧
  value.Has "HNET" IpPairAddress.Listed ∧ value.Has "IGNO" Json.IsUint ∧
  Json.May members "MATR" Json.Texts ∧ value.Has "NRES" Json.IsUint ∧ value.Has "NTOP" Json.IsUint ∧
  Json.May members "PATT" Json.Texts ∧ value.Has "PCAP" (Json.Items Json.IsUint) ∧
  value.Has "PGID" Json.IsText ∧ value.Has "PGSC" Json.IsText ∧ value.Has "PMAX" Json.IsUint ∧
  value.Has "PRES" Json.IsUint ∧ value.Has "QCAP" Json.IsUint ∧ value.Has "RGID" Json.IsUint ∧
  Json.May members "SEAT" (Json.Items Json.IsInt64) ∧
  Json.May members "SIDL" (Json.Items Json.IsUint) ∧ value.Has "SLOT" Json.IsUint ∧
  value.Has "TCAP" Json.IsUint ∧ Json.May members "TIDS" (Json.Items Json.IsUint) ∧
  value.Has "TIDX" Json.IsUint ∧ value.Has "VSTR" Json.IsText

open Json in
/-- A request is read where its members are there and of the right kinds. -/
theorem CreateGameRequest.read_succeeds (request : CreateGameRequest) (members : List (Bytes × Json)) :
    Succeeds (request.read (.object members)) (CreateGameRequest.Readable members) := by
  unfold read Readable
  -- One line for each member, in the order in which they are read.
  refine (readFound_succeeds _ _ _ fun held => held.readItems_succeeds getInt64_succeeds).bind fun _ => ?_
  refine named_then _ _ (fun found => found.readMap_succeeds _) fun _ => ?_
  refine named_then _ _ ObjectId.read_succeeds fun _ => ?_
  refine (readFound_succeeds _ _ _ fun held => held.readMap_succeeds _).bind fun _ => ?_
  refine (textAt_succeeds _ _).bind fun _ => ?_
  refine (textAt_succeeds _ _).bind fun _ => ?_
  refine (uintAt_succeeds _ _).bind fun _ => ?_
  refine (textAt_succeeds _ _).bind fun _ => ?_
  refine (textAt_succeeds _ _).bind fun _ => ?_
  refine named_then _ _ request.hostNetwork.readList_succeeds fun _ => ?_
  refine (uintAt_succeeds _ _).bind fun _ => ?_
  refine (readFound_succeeds _ _ _ fun held => held.readMap_succeeds _).bind fun _ => ?_
  refine (uintAt_succeeds _ _).bind fun _ => ?_
  refine (uintAt_succeeds _ _).bind fun _ => ?_
  refine (readFound_succeeds _ _ _ fun held => held.readMap_succeeds _).bind fun _ => ?_
  refine named_then _ _ (fun found => found.readItems_succeeds getUint_succeeds) fun _ => ?_
  refine (textAt_succeeds _ _).bind fun _ => ?_
  refine (textAt_succeeds _ _).bind fun _ => ?_
  refine (uintAt_succeeds _ _).bind fun _ => ?_
  refine (uintAt_succeeds _ _).bind fun _ => ?_
  refine (uintAt_succeeds _ _).bind fun _ => ?_
  refine (uintAt_succeeds _ _).bind fun _ => ?_
  refine (readFound_succeeds _ _ _ fun held => held.readItems_succeeds getInt64_succeeds).bind fun _ => ?_
  refine (readFound_succeeds _ _ _ fun held => held.readItems_succeeds getUint_succeeds).bind fun _ => ?_
  refine (uintAt_succeeds _ _).bind fun _ => ?_
  refine (uintAt_succeeds _ _).bind fun _ => ?_
  refine (readFound_succeeds _ _ _ fun held => held.readItems_succeeds getUint_succeeds).bind fun _ => ?_
  refine (uintAt_succeeds _ _).bind fun _ => ?_
  refine ((textAt_succeeds _ _).bind fun _ => ?_).iff (iff_of_eq (and_true _))
  -- Whatever the numbers of the topology and of the presence are, nothing is asked of them.
  split
  · exact Succeeds.ok _
  · exact Succeeds.ok _

end Recap.Blaze
