import Recap.SporeNet.Xml

/-! A player's account, and the text nodes that it is kept in. -/

namespace Recap.SporeNet

open Recap.Blaze

structure Account where
  tutorialCompleted : Bool := false
  grantAllAccess : Bool := false
  grantOnlineAccess : Bool := false
  id : Int64 := 1
  chainProgression : UInt32 := 0
  creatureRewards : UInt32 := 0
  currentGameId : UInt32 := 1
  currentPlaygroupId : UInt32 := 1
  defaultDeckPveId : UInt32 := 1
  defaultDeckPvpId : UInt32 := 1
  level : UInt32 := 1
  xp : UInt32 := 0
  dna : UInt32 := 0
  avatarId : UInt32 := 0
  newPlayerInventory : UInt32 := 0
  newPlayerProgress : UInt32 := 0
  cashoutBonusTime : UInt32 := 0
  starLevel : UInt32 := 0
  unlockCatalysts : UInt32 := 0
  unlockDiagonalCatalysts : UInt32 := 0
  unlockInventory : UInt32 := 0
  unlockFuelTanks : UInt32 := 0
  unlockPveDecks : UInt32 := 0
  unlockPvpDecks : UInt32 := 0
  unlockStats : UInt32 := 0
  unlockInventoryIdentify : UInt32 := 0
  unlockEditorFlairSlots : UInt32 := 0
  upsell : UInt32 := 0
  capLevel : UInt32 := 0
  capProgression : UInt32 := 0
deriving DecidableEq

namespace Account

variable {Node : Type} [XmlNode Node]

/-- Reads the account that a node has as a child, if it has one. -/
def read (before : Account) (node : Node) : Account :=
  match child node "account" with
  | none => before
  | some account =>
    let number (name : String) : UInt32 := toUint32 (xmlGetTextNode account name)
    { before with
      tutorialCompleted := xmlGetTextNode account "tutorial_completed" = ascii "Y"
      grantAllAccess := number "grant_all_access" ≠ 0
      grantOnlineAccess := number "grant_online_access" ≠ 0
      chainProgression := number "chain_progression"
      creatureRewards := number "creature_rewards"
      currentGameId := number "current_game_id"
      currentPlaygroupId := number "current_playgroup_id"
      defaultDeckPveId := number "default_deck_pve_id"
      defaultDeckPvpId := number "default_deck_pvp_id"
      level := number "level"
      xp := number "xp"
      dna := number "dna"
      avatarId := min (number "avatar_id") 16
      id := toInt64 (xmlGetTextNode account "id")
      newPlayerInventory := number "new_player_inventory"
      newPlayerProgress := number "new_player_progress"
      cashoutBonusTime := number "cashout_bonus_time"
      starLevel := number "star_level"
      unlockCatalysts := number "unlock_catalysts"
      unlockDiagonalCatalysts := number "unlock_diagonal_catalysts"
      unlockFuelTanks := number "unlock_fuel_tanks"
      unlockPveDecks := number "unlock_pve_decks"
      unlockPvpDecks := number "unlock_pvp_decks"
      unlockStats := number "unlock_stats"
      -- The source assigns this field twice, first from "unlock_inventory".
      unlockInventoryIdentify := number "unlock_inventory_identify"
      unlockEditorFlairSlots := number "unlock_editor_flair_slots"
      upsell := number "upsell"
      capLevel := number "cap_level"
      capProgression := number "cap_progression" }

/-- The texts that an account is written as. -/
def texts (account : Account) : List (String × Bytes) :=
  [("tutorial_completed", if account.tutorialCompleted then ascii "Y" else ascii "N"),
    ("chain_progression", ofUint32 account.chainProgression),
    ("creature_rewards", ofUint32 account.creatureRewards),
    ("current_game_id", ofUint32 account.currentGameId),
    ("current_playgroup_id", ofUint32 account.currentPlaygroupId),
    ("default_deck_pve_id", ofUint32 account.defaultDeckPveId),
    ("default_deck_pvp_id", ofUint32 account.defaultDeckPvpId),
    ("dna", ofUint32 account.dna),
    ("level", ofUint32 account.level),
    ("avatar_id", ofUint32 account.avatarId),
    ("id", ofInt64 account.id),
    ("new_player_inventory", ofUint32 account.newPlayerInventory),
    ("new_player_progress", ofUint32 account.newPlayerProgress),
    ("cashout_bonus_time", ofUint32 account.cashoutBonusTime),
    ("star_level", ofUint32 account.starLevel),
    ("unlock_catalysts", ofUint32 account.unlockCatalysts),
    ("unlock_diagonal_catalysts", ofUint32 account.unlockDiagonalCatalysts),
    ("unlock_fuel_tanks", ofUint32 account.unlockFuelTanks),
    ("unlock_inventory", ofUint32 account.unlockInventoryIdentify),
    ("unlock_pve_decks", ofUint32 account.unlockPveDecks),
    ("unlock_pvp_decks", ofUint32 account.unlockPvpDecks),
    ("unlock_stats", ofUint32 account.unlockStats),
    ("unlock_inventory_identify", ofUint32 account.unlockInventoryIdentify),
    ("unlock_editor_flair_slots", ofUint32 account.unlockEditorFlairSlots),
    ("upsell", ofUint32 account.upsell),
    ("xp", ofUint32 account.xp),
    ("grant_all_access", toDecimal (if account.grantAllAccess then 1 else 0)),
    ("cap_level", ofUint32 account.capLevel),
    ("cap_progression", ofUint32 account.capProgression)]

/-- Writes the account into the node that is made for it. -/
def write (account : Account) (node : Node) : Node :=
  xmlAddTextNodes node account.texts

/-- The node of a user whose account has been written. -/
def saved (account : Account) : Node :=
  appendChild element "account" (account.write element)

/--
What reading makes of a saved account.

One field is not read and keeps what it was, another one is not written and is read as false.
-/
theorem read_saved (before account : Account) (avatar : account.avatarId ≤ 16) :
    before.read (account.saved : Node) =
      { account with unlockInventory := before.unlockInventory, grantOnlineAccess := false } := by
  -- Each field is found under the name that it was written with, if it was written at all.
  have found : child (account.saved : Node) "account" = some (account.write element) := by
    unfold saved
    rw [XmlNode.child_append, XmlNode.child_element]
    rfl
  have written : ∀ name, xmlGetTextNode (account.write (element : Node)) name =
      (account.texts.lookup name).getD [] := xmlGetTextNode_addAll account.texts
  have tutorial : ((if account.tutorialCompleted then ascii "Y" else ascii "N") = ascii "Y") =
      account.tutorialCompleted := by
    cases account.tutorialCompleted <;> decide
  have granted : (¬ toUint32 (toDecimal (if account.grantAllAccess then 1 else 0)) = 0) =
      account.grantAllAccess := by
    cases account.grantAllAccess <;> decide
  have absent : toUint32 [] = 0 := rfl
  have clamp : min account.avatarId 16 = account.avatarId := if_pos avatar
  unfold read
  rw [found]
  simp only [written, texts, List.lookup, String.reduceBEq, Option.getD_some, Option.getD_none,
    toUint32_ofUint32, toInt64_ofInt64, ne_eq, tutorial, granted, absent, not_true_eq_false,
    decide_false, Bool.decide_eq_true, clamp]

/--
An account is read back as it was saved exactly when the two fields that are not kept allow it.

That is so for every other value, also above the signed ranges.
-/
theorem read_saved_iff (before account : Account) (avatar : account.avatarId ≤ 16) :
    before.read (account.saved : Node) = account ↔
      account.unlockInventory = before.unlockInventory ∧ account.grantOnlineAccess = false := by
  -- All other fields are the ones that were written.
  rw [read_saved before account avatar]
  constructor
  · intro same
    exact ⟨(congrArg unlockInventory same).symm, (congrArg grantOnlineAccess same).symm⟩
  · rintro ⟨inventory, online⟩
    rw [← inventory, ← online]

end Account

/-- A document that is a tree of named elements with attributes, and of texts. -/
inductive XmlTree where
  | element (attributes : List (String × Bytes)) (children : List (String × XmlTree))
  | pcdata (value : Bytes)

namespace XmlTree

def children : XmlTree → List (String × XmlTree)
  | .element _ children => children
  | .pcdata _ => []

def attributes : XmlTree → List (String × Bytes)
  | .element attributes _ => attributes
  | .pcdata _ => []

instance : XmlNode XmlTree where
  element := .element [] []
  pcdata := .pcdata
  appendChild node name added := .element node.attributes (node.children ++ [(name, added)])
  child node name := node.children.lookup name
  text
    | .element _ _ => []
    | .pcdata value => value
  child_element := fun _ => rfl
  child_append := by
    intro node name added other
    simp only [children, List.lookup_append, List.lookup_cons, List.lookup_nil]
    by_cases same : other = name
    · simp [same]
    · simp [same, beq_eq_false_iff_ne.mpr same]
  text_pcdata := fun _ => rfl

/-- Numbers are read from attributes as they are from texts. -/
instance : XmlElement XmlTree where
  children := children
  attributeOf node name := node.attributes.lookup name
  appendAttribute node name value := .element (node.attributes ++ [(name, value)]) node.children
  asUint := toUint32
  children_element := rfl
  children_append := fun _ _ _ => rfl
  attribute_element := fun _ => rfl
  attribute_append := by
    intro node name value other
    simp only [attributes, List.lookup_append, List.lookup_cons, List.lookup_nil]
    by_cases same : other = name
    · simp [same]
    · simp [same, beq_eq_false_iff_ne.mpr same]
  child_attribute := fun _ _ _ _ => rfl
  asUint_ofUint32 := toUint32_ofUint32

end XmlTree

namespace Account

/-- An account of the least id with more experience than a signed number holds. -/
def veteran : Account := { id := Int64.minValue, xp := 4294967295, avatarId := 16 }

theorem read_saved_veteran : ({} : Account).read (veteran.saved : XmlTree) = veteran :=
  (read_saved_iff {} veteran (by decide)).mpr ⟨rfl, rfl⟩

/-- A new account with the inventory that a registration gives it. -/
def registered : Account := { unlockInventory := 1 }

/-- Its inventory is gone once it is read again. -/
theorem not_read_saved :
    registered.avatarId ≤ 16 ∧ ({} : Account).read (registered.saved : XmlTree) ≠ registered := by
  refine ⟨by decide, fun same => ?_⟩
  have inventory := congrArg unlockInventory same
  rw [read_saved {} registered (by decide)] at inventory
  exact absurd inventory (by decide)

end Account

end Recap.SporeNet
