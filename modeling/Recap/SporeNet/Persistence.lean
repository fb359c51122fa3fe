import Recap.SporeNet.SquadOwnership

/-! The squads and the feed of a user, which are read back from the nodes that they are written to. -/

namespace Recap.SporeNet

open Recap.Blaze

/-- A message type in 32 bits, as a file may hold any. -/
abbrev FeedMessageType := UInt32

namespace FeedMessageType

def friend : FeedMessageType := 1
def creature : FeedMessageType := 2
def upgrade : FeedMessageType := 3

def Known (type : FeedMessageType) : Prop := type = friend ∨ type = creature ∨ type = upgrade

instance (type : FeedMessageType) : Decidable type.Known :=
  inferInstanceAs (Decidable (type = friend ∨ type = creature ∨ type = upgrade))

end FeedMessageType

structure FeedItem where
  metadata : Bytes := []
  name : Bytes := []
  timestamp : UInt64 := 0
  accountId : UInt32 := 0
  id : UInt32 := 0
  messageId : FeedMessageType := 0
deriving DecidableEq

section Nodes

variable {Node : Type} [XmlElement Node]

/-- An item of a feed, which keeps no message type that is not known. -/
def FeedItem.read (item : Node) : FeedItem :=
  let messageId := toUint32 (xmlGetTextNode item "message_id")
  { accountId := toUint32 (xmlGetTextNode item "account_id")
    id := toUint32 (xmlGetTextNode item "id")
    messageId := if FeedMessageType.Known messageId then messageId else 0
    metadata := xmlGetTextNode item "metadata"
    name := xmlGetTextNode item "name"
    timestamp := toUint64 (xmlGetTextNode item "time") }

def FeedItem.texts (item : FeedItem) : List (String × Bytes) :=
  [("account_id", ofUint32 item.accountId), ("id", ofUint32 item.id),
    ("message_id", ofUint32 item.messageId), ("metadata", item.metadata), ("name", item.name),
    ("time", toDecimal item.timestamp.toNat)]

def FeedItem.write (item : FeedItem) : Node := xmlAddTextNodes element item.texts

/-- `Feed::Read`, which adds the items of a feed to those that are there. -/
def readFeed (mItems : List FeedItem) (node : Node) : List FeedItem :=
  match child node "feed" with
  | none => mItems
  | some feed =>
    match child feed "items" with
    | none => mItems
    | some items => mItems ++ (children items).map fun entry => FeedItem.read entry.2

/-- `Feed::Write`, which writes no list for an empty feed. -/
def writeFeed (mItems : List FeedItem) (node : Node) : Node :=
  appendChild node "feed"
    (if mItems.isEmpty then element
      else appendChild element "items" (appendAll "item" (mItems.map FeedItem.write)))

/-- The squads of the node of a user. Children that are no squads are left out. -/
def readSquads (node : Node) : List Squad :=
  match child node "squads" with
  | none => []
  | some squads => (children squads).filterMap Squad.read

/-- The squads in the node of a user, as `User::Save` writes them. -/
def writeSquads (mSquads : List Squad) (node : Node) : Node :=
  appendChild node "squads" (appendAll "squad" (mSquads.map Squad.write))

/-- A text is not hidden by a child of another name. -/
theorem xmlGetTextNode_append {name other : String} (different : name ≠ other) (node added : Node) :
    xmlGetTextNode (appendChild node other added) name = xmlGetTextNode node name := by
  unfold xmlGetTextNode
  rw [XmlNode.child_append, if_neg different, Option.or_none]

/-- An item of a known type is read back as it was written. -/
theorem FeedItem.read_write {item : FeedItem} (known : item.messageId.Known) :
    FeedItem.read (item.write : Node) = item := by
  -- Each text is found under its own name.
  have written : ∀ name, xmlGetTextNode (item.write : Node) name =
      (item.texts.lookup name).getD [] := xmlGetTextNode_addAll item.texts
  unfold FeedItem.read
  simp only [written, FeedItem.texts, List.lookup, String.reduceBEq, Option.getD_some,
    toUint32_ofUint32, toUint64_toDecimal, if_pos known]

/-- A squad is read back as it was written. -/
theorem Squad.read_write (squad : Squad) :
    Squad.read ("squad", (squad.write : Node)) = some squad := by
  -- The creatures come after the texts, and hide none of them.
  have plain : ∀ name, name ≠ "creatures" → xmlGetTextNode (squad.write : Node) name =
      (([("name", squad.mName), ("id", ofUint32 squad.mId), ("category", squad.mCategory),
        ("slot", ofUint32 squad.mSlot),
        ("locked", toDecimal (if squad.mLocked then 1 else 0))] : List (String × Bytes)).lookup
          name).getD [] := by
    intro name different
    unfold Squad.write
    rw [xmlGetTextNode_append different]
    exact xmlGetTextNode_addAll _ name
  have locked : decide (toUint32 (xmlGetTextNode (squad.write : Node) "locked") ≠ 0) =
      squad.mLocked := by
    have text : xmlGetTextNode (squad.write : Node) "locked" =
        toDecimal (if squad.mLocked then 1 else 0) := plain "locked" (by decide)
    rw [text]
    cases squad.mLocked <;> decide
  have ids := User.squad_read_write Node squad
  unfold Squad.read at ids ⊢
  rw [if_neg (not_not.mpr rfl)] at ids ⊢
  rw [Option.map_some, Option.some_inj] at ids
  dsimp only at ids ⊢
  rw [ids, locked, plain "name" (by decide), plain "category" (by decide), plain "id" (by decide),
    plain "slot" (by decide)]
  simp only [List.lookup, String.reduceBEq, Option.getD_some, toUint32_ofUint32]

theorem readSquads_writeSquads (mSquads : List Squad) {node : Node}
    (bare : child node "squads" = none) : readSquads (writeSquads mSquads node) = mSquads := by
  have found : child (writeSquads mSquads node) "squads" =
      some (appendAll "squad" (mSquads.map Squad.write)) := by
    unfold writeSquads
    rw [XmlNode.child_append, bare]
    rfl
  -- No squad is left out, as each of them was written as one.
  have listed (squads : List Squad) : ((squads.map Squad.write).map fun (node : Node) =>
      ("squad", node)).filterMap Squad.read = squads := by
    induction squads with
    | nil => rfl
    | cons squad later ih =>
      rw [List.map_cons, List.map_cons, List.filterMap_cons_some squad.read_write, ih]
  unfold readSquads
  simp only [found, children_appendAll]
  exact listed mSquads

theorem readFeed_writeFeed {mItems : List FeedItem} (known : ∀ item ∈ mItems, item.messageId.Known)
    {node : Node} (bare : child node "feed" = none) : readFeed [] (writeFeed mItems node) = mItems := by
  unfold readFeed writeFeed
  rw [XmlNode.child_append, bare, if_pos rfl]
  cases mItems with
  | nil =>
    -- An empty feed has no list of items.
    simp only [List.isEmpty_nil, if_true, Option.none_or, XmlNode.child_element]
  | cons item later =>
    simp only [List.isEmpty_cons, Bool.false_eq_true, if_false, Option.none_or, XmlNode.child_append,
      XmlNode.child_element, if_true, children_appendAll, List.nil_append]
    rw [List.map_map, List.map_map]
    refine (List.map_congr_left fun other member => ?_).trans (List.map_id (item :: later))
    exact FeedItem.read_write (known other member)

/--
The squads and the feed of a user are read back as they were written into one node after another,
in order.
-/
theorem persistent (mSquads : List Squad) {mItems : List FeedItem}
    (known : ∀ item ∈ mItems, item.messageId.Known) {node : Node}
    (squads : child node "squads" = none) (feed : child node "feed" = none) :
    readSquads (writeFeed mItems (writeSquads mSquads node)) = mSquads ∧
      readFeed [] (writeFeed mItems (writeSquads mSquads node)) = mItems := by
  constructor
  · -- The feed does not hide the squads.
    have same : readSquads (writeFeed mItems (writeSquads mSquads node)) =
        readSquads (writeSquads mSquads node) := by
      unfold readSquads writeFeed
      rw [XmlNode.child_append, if_neg (by decide), Option.or_none]
    rw [same]
    exact readSquads_writeSquads mSquads squads
  · apply readFeed_writeFeed known
    unfold writeSquads
    rw [XmlNode.child_append, feed, if_neg (by decide)]
    rfl

end Nodes

/-- Squads with an empty place and without a name, and a feed with every type of message. -/
theorem persistent_everything :
    let squads : List Squad :=
      [{ mCreatureIds := ![3, 0, 4294967295], mName := ascii "Slot 1", mId := 1, mLocked := false }, {}]
    let items : List FeedItem :=
      [{ messageId := .friend, timestamp := 1296011517000 },
        { messageId := .creature, metadata := ascii "7;8" }, { messageId := .upgrade }]
    readSquads (writeFeed items (writeSquads squads (element : XmlTree))) = squads ∧
      readFeed [] (writeFeed items (writeSquads squads (element : XmlTree))) = items :=
  persistent _ (by decide) rfl rfl

end Recap.SporeNet
