import Recap.Game.Characters
import Recap.Game.Cooldown
import Recap.Lib.Runs


/-! The deck of a player: which of its characters is deployed, and which abilities are locked. -/

namespace Recap.Game

open Recap.RakNet Recap.Runs

/-- A character with what it has left. -/
structure DeckCharacter (Points : Type) extends Character where
  mHealthPoints : Points
  mMaxHealthPoints : Points
  mManaPoints : Points
  mMaxManaPoints : Points

/-- A player, by its three slots and by what is deployed and locked of them. -/
structure DeckPlayer (Points : Type) where
  mCharacterObjects : Vector (Option ObjectPtr) 3
  mCharacterData : Vector (DeckCharacter Points) 3
  mLockedAbilityMin : UInt32
  mCurrentDeckIndex : Int32
  mQueuedDeckIndex : Int32
  mUpdateBits : UInt16

/-- What an object has, as it is copied to the character. -/
structure ObjectPoints (Points : Type) where
  health : Points
  maxHealth : Points
  mana : Points
  maxMana : Points

namespace DeckPlayer

variable {Points : Type} [∀ n, OfNat Points n]

/-- `PlayerUpdateBits::PlayerBits` -/
def playerBits : UInt16 := (1 : UInt16) <<< 12

/-- A character that nothing has been set of. -/
def noCharacter : DeckCharacter Points where
  mHealthPoints := 0
  mMaxHealthPoints := 0
  mManaPoints := 0
  mMaxManaPoints := 0

/-- A player as it is constructed, which sets it up. -/
def initial : DeckPlayer Points where
  mCharacterObjects := Vector.replicate 3 none
  mCharacterData := Vector.replicate 3 noCharacter
  mLockedAbilityMin := 0xFF
  mCurrentDeckIndex := 0
  mQueuedDeckIndex := 0
  mUpdateBits := playerBits

variable (player : DeckPlayer Points)

def setUpdateBits (bits : UInt16) : DeckPlayer Points :=
  { player with mUpdateBits := player.mUpdateBits ||| bits }

def getCurrentDeckIndex : UInt32 := player.mCurrentDeckIndex.toUInt32

def isAbilityLocked (abilityIndex : UInt8) : Bool :=
  if abilityIndex.toUInt32 < player.mLockedAbilityMin then true
  else if player.mLockedAbilityMin = 5 then
    (abilityIndex.toNat : Int) - 6 = player.mCurrentDeckIndex.toInt
  else false

def getCharacterObject (index : UInt32) : Option ObjectPtr :=
  if index.toNat ≥ 3 then none else (player.mCharacterObjects[index.toNat]?).join

def getDeployedCharacterObject : Option ObjectPtr :=
  player.getCharacterObject player.getCurrentDeckIndex

/-- `Player::GetCharacter`, which is undefined beyond the slots. -/
def getCharacter (index : UInt32) : Option (DeckCharacter Points) :=
  player.mCharacterData[index.toNat]?

def swapCharacter (index : UInt32) : Bool × DeckPlayer Points :=
  (true, { player with mCurrentDeckIndex := index.toInt32 }.setUpdateBits playerBits)

/-- `Player::SyncCharacterData`, which is undefined for a character beyond the slots. -/
def syncCharacterData (points : ObjectPtr → ObjectPoints Points) :
    Option (Bool × DeckPlayer Points) :=
  match player.getDeployedCharacterObject with
  | none => some (false, player)
  | some characterObject => do
    let characterIndex := player.getCurrentDeckIndex
    let character ← player.getCharacter characterIndex
    let character := { character with
      mHealthPoints := (points characterObject).health
      mMaxHealthPoints := (points characterObject).maxHealth
      mManaPoints := (points characterObject).mana
      mMaxManaPoints := (points characterObject).maxMana }
    let player := { player with
      mCharacterData := player.mCharacterData.setIfInBounds characterIndex.toNat character }
    return (true, player.setUpdateBits ((1 : UInt16) <<< characterIndex.toUInt16))

/-- `Player::SetCharacter`, with the object that is made for the noun. -/
def setCharacter (character : DeckCharacter Points) (index : UInt32) (made : Option ObjectPtr) :
    DeckPlayer Points :=
  if index.toNat ≥ 3 then player
  else
    { player with
      mCharacterData := player.mCharacterData.setIfInBounds index.toNat character
      mCharacterObjects := player.mCharacterObjects.setIfInBounds index.toNat
        (if character.mNounId ≠ 0 then made else none) }.setUpdateBits
      ((1 : UInt16) <<< index.toUInt16)

/-- The character that a squad brings in for a creature. -/
def squadCharacter (creature : Option SporeNet.Creature) : DeckCharacter Points where
  toCharacter := Cast.characterOf creature
  mHealthPoints := 200
  mMaxHealthPoints := 200
  mManaPoints := 200
  mMaxManaPoints := 200

def setSquad (squad : Option SporeNet.Squad) (user : SporeNet.User)
    (made : Fin 3 → Option ObjectPtr) : DeckPlayer Points :=
  let player := { player with mCurrentDeckIndex := 0, mQueuedDeckIndex := 0 }
  let player :=
    match squad with
    | none => player
    | some squad =>
      (List.finRange 3).foldl
        (fun player index =>
          player.setCharacter (squadCharacter (user.getCreatureById (squad.mCreatureIds index)))
            (UInt32.ofNat index.val) (made index))
        player
  player.setUpdateBits playerBits

/-- `Server::SendPlayerCharacterDeploy`, by what it sends of the character. -/
def sendPlayerCharacterDeploy (creatureIndex : UInt32) : Option (UInt32 × ObjectPtr) :=
  (player.getCharacterObject creatureIndex).map fun characterObject =>
    (creatureIndex, characterObject)

end DeckPlayer

/-- What happens to the deck of a player. -/
inductive DeckInput (Points : Type) where
  | setSquad (squad : Option SporeNet.Squad) (user : SporeNet.User)
      (made : Fin 3 → Option ObjectPtr)
  | swapCharacter (index : UInt32)
  | sendPlayerCharacterDeploy (creatureIndex : UInt32)
  | syncCharacterData (points : ObjectPtr → ObjectPoints Points)

namespace DeckPlayer

section Step

variable {Points : Type} [∀ n, OfNat Points n]

def step (player : DeckPlayer Points) : DeckInput Points → Option (DeckPlayer Points)
  | .setSquad squad user made => some (player.setSquad squad user made)
  | .swapCharacter index => some (player.swapCharacter index).2
  | .sendPlayerCharacterDeploy _ => some player
  | .syncCharacterData points => (player.syncCharacterData points).map Prod.snd

end Step

variable {Points : Type} (player : DeckPlayer Points)

/-- The deployed index is one of the three, and there is a character in that slot. -/
structure DeploysSlot : Prop where
  nonneg : 0 ≤ player.mCurrentDeckIndex.toInt
  atMost : player.mCurrentDeckIndex.toInt ≤ 2
  slot : (player.getCharacter player.getCurrentDeckIndex).isSome

theorem getCharacter_isSome (index : UInt32) :
    (player.getCharacter index).isSome ↔ index.toNat < 3 := by
  simp [getCharacter]

/-- The slot of an index is there exactly when the index, signed as it is kept, is in range. -/
theorem deploysSlot_iff : player.DeploysSlot ↔ player.getCurrentDeckIndex.toNat < 3 := by
  have signed : player.mCurrentDeckIndex.toInt =
      (player.getCurrentDeckIndex.toNat : Int).bmod (2 ^ 32) :=
    BitVec.toInt_eq_toNat_bmod player.mCurrentDeckIndex.toBitVec
  constructor
  · intro deployed
    exact (player.getCharacter_isSome _).mp deployed.slot
  · intro small
    have same : player.mCurrentDeckIndex.toInt = player.getCurrentDeckIndex.toNat := by
      rw [signed]
      exact Int.bmod_eq_of_le (by omega) (by omega)
    exact ⟨by omega, by omega, (player.getCharacter_isSome _).mpr small⟩

/-- The object of a character is only found for an index that has a slot. -/
theorem syncCharacterData_isSome (points : ObjectPtr → ObjectPoints Points) :
    (player.syncCharacterData points).isSome := by
  -- Without a deployed object, the slot is not looked at.
  unfold syncCharacterData
  cases found : player.getDeployedCharacterObject with
  | none => rfl
  | some object =>
    have small : player.getCurrentDeckIndex.toNat < 3 := by
      unfold getDeployedCharacterObject getCharacterObject at found
      split at found
      · cases found
      · omega
    obtain ⟨character, slot⟩ := Option.isSome_iff_exists.mp ((player.getCharacter_isSome _).mpr small)
    simp [slot]

@[simp] theorem setUpdateBits_index (bits : UInt16) :
    (player.setUpdateBits bits).getCurrentDeckIndex = player.getCurrentDeckIndex := rfl

@[simp] theorem setCharacter_index (character : DeckCharacter Points) (index : UInt32)
    (made : Option ObjectPtr) :
    (player.setCharacter character index made).getCurrentDeckIndex =
      player.getCurrentDeckIndex := by
  unfold setCharacter
  split <;> rfl

@[simp] theorem setCharacter_locked (character : DeckCharacter Points) (index : UInt32)
    (made : Option ObjectPtr) :
    (player.setCharacter character index made).mLockedAbilityMin = player.mLockedAbilityMin := by
  unfold setCharacter
  split <;> rfl

/-- To copy the points of an object leaves the index and the locks as they are. -/
theorem syncCharacterData_eq {points : ObjectPtr → ObjectPoints Points} {done : Bool}
    {after : DeckPlayer Points} (synced : player.syncCharacterData points = some (done, after)) :
    after.getCurrentDeckIndex = player.getCurrentDeckIndex ∧
      after.mLockedAbilityMin = player.mLockedAbilityMin := by
  -- The index chooses the slot, and only the slot is written.
  unfold syncCharacterData at synced
  cases deployed : player.getDeployedCharacterObject with
  | none =>
    simp only [deployed, Option.some.injEq, Prod.mk.injEq] at synced
    rw [← synced.2]
    exact ⟨rfl, rfl⟩
  | some object =>
    cases slot : player.getCharacter player.getCurrentDeckIndex with
    | none => simp [deployed, slot] at synced
    | some character =>
      simp only [deployed, slot, Option.bind_eq_bind, Option.bind_some, Option.pure_def,
        Option.some.injEq, Prod.mk.injEq] at synced
      rw [← synced.2]
      exact ⟨rfl, rfl⟩

/-- All abilities are locked but for the one index that the comparison leaves out. -/
theorem isAbilityLocked_iff {player : DeckPlayer Points} (locked : player.mLockedAbilityMin = 0xFF)
    (abilityIndex : UInt8) : player.isAbilityLocked abilityIndex ↔ abilityIndex ≠ 255 := by
  have below : abilityIndex.toUInt32 < 0xFF ↔ abilityIndex ≠ 255 := by
    rw [UInt32.lt_iff_toNat_lt, UInt8.toNat_toUInt32, ne_eq, ← UInt8.toNat_inj]
    have := abilityIndex.toNat_lt
    simp
    omega
  simp [isAbilityLocked, locked, below]

section Runs

variable [∀ n, OfNat Points n]

@[simp] theorem setSquad_index (squad : Option SporeNet.Squad) (user : SporeNet.User)
    (made : Fin 3 → Option ObjectPtr) :
    (player.setSquad squad user made).getCurrentDeckIndex = 0 := by
  cases squad with
  | none => rfl
  | some squad =>
    simp only [setSquad, List.finRange_succ, List.finRange_zero, List.map_cons, List.map_nil,
      List.foldl_cons, List.foldl_nil, setUpdateBits_index, setCharacter_index]
    rfl

/-- A swap to an index that has a slot. Nothing else chooses the index. -/
def SwapsToSlot (input : DeckInput Points) : Prop :=
  ∀ index, input = .swapCharacter index → index.toNat < 3

theorem step_isSome (input : DeckInput Points) : (player.step input).isSome := by
  cases input with
  | syncCharacterData points => simp [step, player.syncCharacterData_isSome points]
  | setSquad | swapCharacter | sendPlayerCharacterDeploy => rfl

/-- A step deploys a slot exactly when it is no swap to another index. -/
theorem deploysSlot_step_iff {input : DeckInput Points} {after : DeckPlayer Points}
    (deployed : player.DeploysSlot) (taken : player.step input = some after) :
    after.DeploysSlot ↔ SwapsToSlot input := by
  -- A swap chooses the index, a squad resets it, and nothing else writes it.
  rw [deploysSlot_iff] at deployed ⊢
  cases input with
  | setSquad squad user made =>
    simp only [step, Option.some.injEq] at taken
    simp [← taken, SwapsToSlot]
  | swapCharacter index =>
    simp only [step, Option.some.injEq] at taken
    have chosen : after.getCurrentDeckIndex = index := by rw [← taken]; rfl
    simp [chosen, SwapsToSlot]
  | sendPlayerCharacterDeploy =>
    simp only [step, Option.some.injEq] at taken
    simp [← taken, deployed, SwapsToSlot]
  | syncCharacterData points =>
    -- What is copied goes into the slot, and the index stays.
    simp only [step, Option.map_eq_some_iff] at taken
    obtain ⟨⟨done, next⟩, synced, rfl⟩ := taken
    simp [(player.syncCharacterData_eq synced).1, deployed, SwapsToSlot]

theorem deploysSlot_initial : (initial : DeckPlayer Points).DeploysSlot :=
  (deploysSlot_iff _).mpr (show 0 < 3 by decide)

/-- A slot is deployed throughout exactly when every swap that is asked for is to one of the three. -/
theorem deploysSlot_iff_swaps (inputs : List (DeckInput Points)) :
    (∀ front, front <+: inputs → (final step initial front).DeploysSlot) ↔
      ∀ index, .swapCharacter index ∈ inputs → index.toNat < 3 := by
  have refused : ∀ (player : DeckPlayer Points) (input : DeckInput Points),
      player.step input = none → SwapsToSlot input := by
    intro player input stuck
    simpa [stuck] using player.step_isSome input
  have along := Along.iff_final
    (fun (_ : DeckPlayer Points) _ _ (_ : True) _ _ => trivial) refused
    (fun player input after _ deployed taken => player.deploysSlot_step_iff deployed taken)
    inputs trivial deploysSlot_initial
  rw [← along, Along.iff_forall_mem fun player input => player.step_isSome input]
  constructor
  · intro all index asked
    exact all _ asked index rfl
  · intro all input taken index swap
    exact all index (swap ▸ taken)

/-- A player may ask for a fourth character. -/
theorem not_deploysSlot : ¬ ∀ inputs : List (DeckInput Nat), ∀ front, front <+: inputs →
    (final step initial front).DeploysSlot := by
  intro all
  have deployed := all [.swapCharacter 3] _ List.prefix_rfl
  have last : (final step (initial : DeckPlayer Nat)
    [.swapCharacter 3]).mCurrentDeckIndex.toInt = 3 := by decide
  have within := deployed.atMost
  omega

/-- Nothing unlocks an ability of a player. -/
theorem kept_locked : Kept step fun player : DeckPlayer Points => player.mLockedAbilityMin = 0xFF := by
  -- The lock is written by the setup alone.
  intro player input after locked taken
  cases input with
  | setSquad squad user made =>
    simp only [step, Option.some.injEq] at taken
    rw [← taken, ← locked]
    cases squad with
    | none => rfl
    | some squad =>
      simp [setSquad, setUpdateBits, List.finRange_succ]
  | swapCharacter | sendPlayerCharacterDeploy =>
    simp only [step, Option.some.injEq] at taken
    rw [← taken]
    exact locked
  | syncCharacterData points =>
    simp only [step, Option.map_eq_some_iff] at taken
    obtain ⟨⟨done, next⟩, synced, rfl⟩ := taken
    exact (player.syncCharacterData_eq synced).2.trans locked

end Runs

end DeckPlayer

/-- An ability, by what is asked of it for one user, target and position. -/
structure Ability (Points : Type) where
  mId : UInt32
  mDescriptors : UInt32
  mScalingAttribute : UInt8
  mShouldPursue : Bool
  /-- `Ability::GetManaCost`, by the rank and the value of the scaling attribute. -/
  getManaCost : Int32 → Points → Points
  /-- `Ability::IsInRange`, by the rank. -/
  isInRange : Int32 → Bool

/-- An object that uses abilities. -/
structure AbilityUser (Points : Type) where
  mbPlayerControlled : Bool
  getAttributeValue : UInt8 → Points
  getPrimaryAttribute : UInt8
  getMana : Points
  mCooldowns : Cooldowns

section Abilities

variable {Points : Type} [∀ n, OfNat Points n] [LE Points] [DecidableLE Points]

/--
What `CanUseAbility` checks of the index for the player, with the number it refuses with, if any.

A character beyond the slots is undefined.
-/
def DeckPlayer.checkAbilityIndex (player : DeckPlayer Points) (abilityIndex : UInt32) :
    Option (Option Int32) :=
  if player.isAbilityLocked abilityIndex.toUInt8 then some (some (-9988))
  else if abilityIndex ≥ 6 then
    (player.getCharacter (abilityIndex - 6)).map fun character =>
      if character.mHealthPoints ≤ 0 then some (-9990) else none
  else some none

/-- An index whose low byte is left out is refused no more, and none of them has a character. -/
theorem DeckPlayer.checkAbilityIndex_eq {player : DeckPlayer Points}
    (locked : player.mLockedAbilityMin = 0xFF) (abilityIndex : UInt32) :
    player.checkAbilityIndex abilityIndex =
      if abilityIndex.toUInt8 ≠ 255 then some (some (-9988)) else none := by
  -- What passes the lock is far beyond the slots.
  unfold checkAbilityIndex
  by_cases left : abilityIndex.toUInt8 = 255
  · -- The low byte alone is beyond all the slots.
    have least : 255 ≤ abilityIndex.toNat := by
      have low := congrArg UInt8.toNat left
      rw [UInt32.toNat_toUInt8] at low
      simp at low
      omega
    have squad : 6 ≤ abilityIndex := by
      rw [UInt32.le_iff_toNat_le]
      simp
      omega
    have beyond : player.getCharacter (abilityIndex - 6) = none := by
      rw [← Option.not_isSome_iff_eq_none, getCharacter_isSome, UInt32.toNat_sub_of_le _ _ squad]
      simp
      omega
    have unlocked : player.isAbilityLocked 255 = false := by
      simpa using (isAbilityLocked_iff locked 255).not_left
    simp [left, unlocked, squad, beyond]
  · have refused := (isAbilityLocked_iff locked _).mpr left
    simp [refused, left]

variable [LT Points] [DecidableLT Points] [DecidableEq Points]

namespace AbilityUser

variable (user : AbilityUser Points) (time : UInt64)

/-- What `CanUseAbility` goes on with for an ability, with the health of the target, if any. -/
def checkAbility (ability : Ability Points) (rank : Int32) (target : Option Points) : Int32 :=
  let basic : Bool := ability.mDescriptors &&& 2 ≠ 0
  if basic ∧ target.any (· ≤ 0) then -9989
  else if ¬ basic ∧ user.getAttributeValue 14 ≠ 0 then -9993
  else if user.mCooldowns.hasCooldown time ability.mId then -10000
  else
    let scalingAttribute :=
      if ability.mScalingAttribute = 0xFF then user.getPrimaryAttribute
      else ability.mScalingAttribute
    if user.getMana < ability.getManaCost rank (user.getAttributeValue scalingAttribute) then -9997
    else if ¬ ability.isInRange rank then (if ability.mShouldPursue then 1 else 0)
    else 0

/-- `Object::CanUseAbility`, which is negative where it refuses. -/
def canUseAbility (player : Option (DeckPlayer Points)) (ability : Option (Ability Points))
    (abilityIndex : UInt32) (rank : Int32) (target : Option Points) : Option Int32 :=
  match ability with
  | none => some (-9984)
  | some ability =>
    if rank > 7 then some (-9994)
    else
      match player with
      | some player =>
        if user.mbPlayerControlled then
          (player.checkAbilityIndex abilityIndex).map fun refused =>
            refused.getD (user.checkAbility time ability rank target)
        else some (user.checkAbility time ability rank target)
      | none => some (user.checkAbility time ability rank target)

/-- The indices that `Player::GetAbilityId` knows an ability for. -/
def DesignatesAbility (abilityIndex : UInt32) : Prop := abilityIndex ∈ [0, 2, 3, 6, 7, 8]

/--
The index leads to nothing that is not there, and the player is refused if it means no ability.

The index of an object that no player controls means nothing.
-/
def IndexSafe (player : Option (DeckPlayer Points)) (ability : Option (Ability Points))
    (abilityIndex : UInt32) (rank : Int32) (target : Option Points) : Prop :=
  ∃ result, user.canUseAbility time player ability abilityIndex rank target = some result ∧
    (user.mbPlayerControlled → ¬ DesignatesAbility abilityIndex → result < 0)

/--
The index is safe unless an object of a player gets as far as the lock with 255 as its low byte.
-/
theorem indexSafe_iff (inputs : List (DeckInput Points)) (ability : Option (Ability Points))
    (abilityIndex : UInt32) (rank : Int32) (target : Option Points) :
    user.IndexSafe time (some (final DeckPlayer.step DeckPlayer.initial inputs)) ability
        abilityIndex rank target ↔
      ability = none ∨ 7 < rank ∨ user.mbPlayerControlled = false ∨
        abilityIndex.toUInt8 ≠ 255 := by
  -- The checks come in the order of the code.
  have locked : (final DeckPlayer.step DeckPlayer.initial inputs).mLockedAbilityMin = 0xFF :=
    DeckPlayer.kept_locked.final inputs rfl
  unfold IndexSafe canUseAbility
  cases ability with
  | none => simp
  | some ability =>
    by_cases high : rank > 7
    · simp [high]
    · cases controlled : user.mbPlayerControlled with
      | false => simp [high]
      | true =>
        -- Only here is the index looked at.
        simp only [DeckPlayer.checkAbilityIndex_eq locked]
        by_cases left : abilityIndex.toUInt8 = 255
        · simp [left, high]
        · simp [left, high]

/-- The index 255 gets past the lock, and asks for the character 249. -/
theorem not_indexSafe : ¬ ∀ (inputs : List (DeckInput Nat)) (user : AbilityUser Nat) (time : UInt64)
    (ability : Option (Ability Nat)) (abilityIndex : UInt32) (rank : Int32) (target : Option Nat),
    user.IndexSafe time (some (final DeckPlayer.step DeckPlayer.initial inputs)) ability
      abilityIndex rank target := by
  intro all
  have safe := all [] ⟨true, fun _ => 0, 0, 0, fun _ => none⟩ 0
    (some ⟨1, 0, 0, false, fun _ _ => 0, fun _ => true⟩) 255 0 none
  obtain ⟨result, used, -⟩ := safe
  cases used

end AbilityUser

end Abilities

end Recap.Game
