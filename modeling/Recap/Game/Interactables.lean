import Recap.Game.Octree
import Recap.Lib.Runs

/-! How often an object is used by players, and how often loot is dropped for it. -/

namespace Recap.Game

open Recap.Runs

structure InteractableData where
  mTimesUsed : Int32
  mUsesAllowed : Int32
deriving DecidableEq

/-- The noun of an object, by what there is to interact with. -/
structure InteractableNoun where
  type : NounType
  doorData : Bool
  switchData : Bool
  pressureSwitchData : Bool
deriving DecidableEq

/-- A player at the time of an interaction. -/
structure InteractingPlayer where
  /-- Whether its deployed character has an object. -/
  deployed : Bool
  /-- `Player::GetOpenCatalystSlot`, which is `0xFFFFFFFF` if there is none. -/
  openCatalystSlot : UInt32
deriving DecidableEq

/-- An object that is interacted with, and how often it was used and has dropped loot so far. -/
structure Interactable where
  noun : Option InteractableNoun
  interactableData : Option InteractableData
  markedForDeletion : Bool
  uses : Nat
  drops : Nat
deriving DecidableEq

/-- What happens to an object. -/
inductive Interaction where
  | interact (player : Option InteractingPlayer)
  | incrementNumTimesUsed
  | markForDeletion
deriving DecidableEq

namespace Interactable

/-- An object that was not used yet, with the uses it is allowed if it counts them. -/
def create (noun : Option InteractableNoun) (usesAllowed : Option Int32) : Interactable where
  noun := noun
  interactableData := usesAllowed.map fun usesAllowed => ⟨0, usesAllowed⟩
  markedForDeletion := false
  uses := 0
  drops := 0

variable (object : Interactable)

/-- Doors and switches can be used without end. -/
def unlimited : Bool :=
  object.noun.any fun noun => noun.doorData || noun.switchData || noun.pressureSwitchData

def hasInteractableUsesLeft : Bool :=
  if object.unlimited then true
  else
    match object.interactableData with
    | some data => data.mTimesUsed < data.mUsesAllowed
    | none => false

/-- One more use, where uses are counted. -/
def use : Interactable :=
  match object.interactableData with
  | none => object
  | some data =>
    { object with
      interactableData := some { data with mTimesUsed := data.mTimesUsed + 1 }
      uses := object.uses + 1 }

def markForDeletion : Interactable := { object with markedForDeletion := true }

/-- `Instance::DropLoot` for the deployed character of a player. -/
def dropLoot (player : InteractingPlayer) : Interactable :=
  if player.deployed then { object with drops := object.drops + 1 } else object

def pickupLoot : Interactable :=
  if object.markedForDeletion then object else object.markForDeletion

/-- `Instance::PickupCatalyst`, which leaves the object where it is if there is no open slot. -/
def pickupCatalyst (player : InteractingPlayer) : Interactable :=
  if object.markedForDeletion then object
  else if player.openCatalystSlot ≠ 0xFFFFFFFF then object.markForDeletion
  else object

/-- What an interaction goes on with, by the type of the noun. -/
def reward (player : InteractingPlayer) : Interactable :=
  match object.noun with
  | none => object.dropLoot player
  | some noun =>
    match noun.type with
    | .loot => object.pickupLoot
    | .crystal => object.pickupCatalyst player
    | _ => object.dropLoot player

/-- `Instance::InteractWithObject`, which does not ask whether there are uses left. -/
def interactWithObject (player : Option InteractingPlayer) : Interactable :=
  match player with
  | none => object
  | some player => if object.markedForDeletion then object else object.use.reward player

def after : Interaction → Interactable
  | .interact player => object.interactWithObject player
  | .incrementNumTimesUsed => object.use
  | .markForDeletion => object.markForDeletion

/-- The uses that the object is allowed, which are none where they are not counted. -/
def allowed : Int :=
  match object.interactableData with
  | none => 0
  | some data => max 0 data.mUsesAllowed.toInt

/-- The object was not used, and no loot was dropped for it, more often than it may be. -/
def WithinUses : Prop :=
  object.unlimited = true ∨ ((object.uses : Int) ≤ object.allowed ∧ (object.drops : Int) ≤ object.allowed)

/-- The player gets loot of an object that is none itself. -/
def DropsFor (player : InteractingPlayer) : Prop :=
  player.deployed = true ∧ ∀ noun, object.noun = some noun → noun.type ≠ .loot ∧ noun.type ≠ .crystal

/--
Every use finds one left.

An object that does not count its uses may be interacted with as long as it drops nothing.
-/
def FindsUseLeft : Interaction → Prop
  | .interact player => ∀ player' ∈ player, object.markedForDeletion = false →
      object.hasInteractableUsesLeft = true ∨
        (object.interactableData = none ∧ ¬ object.DropsFor player')
  | .incrementNumTimesUsed =>
    object.hasInteractableUsesLeft = true ∨ object.interactableData = none
  | .markForDeletion => True

/-- The count of an object agrees with its uses, of which no drop is without one. -/
structure Counted : Prop where
  times : ∀ data ∈ object.interactableData, data.mTimesUsed = Int32.ofNat object.uses ∧
    object.drops ≤ object.uses
  uncounted : object.interactableData = none → object.uses = 0

variable {object : Interactable} {player : InteractingPlayer}

@[simp] theorem use_noun : object.use.noun = object.noun := by
  unfold use
  split <;> rfl

@[simp] theorem use_drops : object.use.drops = object.drops := by
  unfold use
  split <;> rfl

@[simp] theorem use_allowed : object.use.allowed = object.allowed := by
  unfold use allowed
  cases stored : object.interactableData <;> simp [stored]

@[simp] theorem use_interactableData_eq_none :
    object.use.interactableData = none ↔ object.interactableData = none := by
  unfold use
  cases stored : object.interactableData <;> simp [stored]

/-- What a reward leaves as it is, for a noun that is loot or not. -/
theorem reward_kept : (object.reward player).noun = object.noun ∧
    (object.reward player).interactableData = object.interactableData ∧
    (object.reward player).uses = object.uses := by
  -- The branches are those of the noun, and within them those of the player.
  unfold reward dropLoot pickupLoot pickupCatalyst
  split
  · split <;> exact ⟨rfl, rfl, rfl⟩
  · split
    · split <;> exact ⟨rfl, rfl, rfl⟩
    · split
      · exact ⟨rfl, rfl, rfl⟩
      · split <;> exact ⟨rfl, rfl, rfl⟩
    · split <;> exact ⟨rfl, rfl, rfl⟩

theorem reward_drops (drops : object.DropsFor player) :
    (object.reward player).drops = object.drops + 1 := by
  -- Neither of the two types that are picked up is the one at hand.
  obtain ⟨deployed, type⟩ := drops
  unfold reward
  split
  · simp [dropLoot, deployed]
  · rename_i noun present
    obtain ⟨loot, crystal⟩ := type noun present
    split
    · rename_i same
      exact absurd same loot
    · rename_i same
      exact absurd same crystal
    · simp [dropLoot, deployed]

theorem reward_drops_not (none : ¬ object.DropsFor player) :
    (object.reward player).drops = object.drops := by
  -- Where the object is neither loot nor a catalyst, it must be the player who is not deployed.
  unfold reward
  split
  · rename_i missing
    have away : player.deployed = false := by
      rw [← Bool.not_eq_true]
      intro deployed
      exact none ⟨deployed, fun noun present => by rw [missing] at present; cases present⟩
    simp [dropLoot, away]
  · rename_i noun present
    split
    · unfold pickupLoot
      split <;> rfl
    · unfold pickupCatalyst
      split
      · rfl
      · split <;> rfl
    · rename_i loot crystal
      have away : player.deployed = false := by
        rw [← Bool.not_eq_true]
        intro deployed
        refine none ⟨deployed, fun other present' => ?_⟩
        rw [present] at present'
        cases present'
        exact ⟨loot, crystal⟩
      simp [dropLoot, away]

@[simp] theorem reward_unlimited : (object.reward player).unlimited = object.unlimited := by
  simp [unlimited, reward_kept.1]

@[simp] theorem reward_allowed : (object.reward player).allowed = object.allowed := by
  simp [allowed, reward_kept.2.1]

@[simp] theorem use_unlimited : object.use.unlimited = object.unlimited := by
  simp [unlimited]

theorem Counted.use (counted : object.Counted) : object.use.Counted := by
  -- The count and the uses go up together.
  unfold Interactable.use
  cases stored : object.interactableData with
  | none => exact counted
  | some data =>
    obtain ⟨times, fewer⟩ := counted.times data stored
    constructor
    · intro data' same
      cases same
      refine ⟨?_, fewer.trans (Nat.le_succ _)⟩
      rw [times, Int32.ofNat_add]
      rfl
    · intro missing
      cases missing

/-- An object with a use left was used less often than it may be. -/
theorem Counted.hasUsesLeft_iff (counted : object.Counted) (limited : object.unlimited = false)
    (within : (object.uses : Int) ≤ object.allowed) {data : InteractableData}
    (stored : object.interactableData = some data) :
    object.hasInteractableUsesLeft = true ↔ (object.uses : Int) + 1 ≤ object.allowed := by
  -- The two numbers are compared as they are counted.
  have allowed : object.allowed = max 0 data.mUsesAllowed.toInt := by simp [allowed, stored]
  have least := data.mUsesAllowed.toInt_lt
  -- As many uses as are allowed are still counted without an overflow.
  have times : data.mTimesUsed.toInt = object.uses := by
    rw [(counted.times data stored).1, Int32.toInt_ofNat']
    exact Int.bmod_eq_of_le (by simp [Int32.size]) (by simp [Int32.size]; omega)
  simp only [hasInteractableUsesLeft, limited, stored, decide_eq_true_eq, Int32.lt_iff_toInt_lt,
    times, Bool.false_eq_true, if_false]
  omega

/-- The loot of a player comes with the use that was counted for it, if there is a count. -/
theorem Counted.drops_interact (counted : object.Counted) (player : InteractingPlayer) {data : InteractableData}
    (stored : object.interactableData = some data) :
    (object.use.reward player).drops ≤ (object.use.reward player).uses := by
  have fewer := (counted.times data stored).2
  have one : object.use.uses = object.uses + 1 := by simp [Interactable.use, stored]
  rw [reward_kept.2.2, one]
  by_cases drops : object.use.DropsFor player
  · rw [reward_drops drops, use_drops]
    omega
  · rw [reward_drops_not drops, use_drops]
    omega

theorem Counted.after (counted : object.Counted) (interaction : Interaction) :
    (object.after interaction).Counted := by
  -- What drops loot has counted a use just before.
  cases interaction with
  | incrementNumTimesUsed => exact counted.use
  | markForDeletion => exact ⟨counted.times, counted.uncounted⟩
  | interact player =>
    cases player with
    | none => exact counted
    | some player =>
      simp only [Interactable.after, interactWithObject]
      split
      · exact counted
      · constructor
        · intro data stored
          rw [reward_kept.2.1] at stored
          have times := (counted.use.times data stored).1
          rw [reward_kept.2.2]
          refine ⟨times, ?_⟩
          cases before : object.interactableData with
          | none => simp [Interactable.use, before] at stored
          | some data =>
            have fewer := counted.drops_interact player before
            rwa [reward_kept.2.2] at fewer
        · intro missing
          rw [reward_kept.2.1] at missing
          rw [reward_kept.2.2]
          exact counted.use.uncounted missing

/-- An interaction with an object that is there stays within its uses if it finds one left. -/
theorem Counted.withinUses_interact_iff (counted : object.Counted) (limited : object.unlimited = false)
    (used : (object.uses : Int) ≤ object.allowed) (dropped : (object.drops : Int) ≤ object.allowed) :
    (object.use.reward player).WithinUses ↔ object.hasInteractableUsesLeft = true ∨
      (object.interactableData = none ∧ ¬ object.DropsFor player) := by
  -- Uses are counted or they are not.
  simp only [WithinUses, reward_unlimited, use_unlimited, limited, Bool.false_eq_true, false_or,
    reward_allowed, use_allowed]
  cases stored : object.interactableData with
  | none =>
    -- Nothing is allowed, so that only the loot matters.
    have nothing : object.allowed = 0 := by simp [allowed, stored]
    have unused := counted.uncounted stored
    have same : object.use = object := by simp [Interactable.use, stored]
    have none : object.hasInteractableUsesLeft = false := by
      simp [hasInteractableUsesLeft, limited, stored]
    rw [same, reward_kept.2.2, nothing, none]
    rw [nothing] at dropped
    by_cases drops : object.DropsFor player
    · rw [reward_drops drops]
      simp [drops]
    · rw [reward_drops_not drops]
      simpa [drops, unused] using dropped
  | some data =>
    have fewer := counted.drops_interact player stored
    have one : (object.use.reward player).uses = object.uses + 1 := by
      rw [reward_kept.2.2]
      simp [Interactable.use, stored]
    rw [counted.hasUsesLeft_iff limited used stored, one]
    rw [one] at fewer
    constructor
    · rintro ⟨enough, -⟩
      exact .inl (by exact_mod_cast enough)
    · rintro (enough | ⟨missing, -⟩)
      · exact ⟨by exact_mod_cast enough, by omega⟩
      · cases missing

/-- An object stays within its uses exactly if what happens finds one left. -/
theorem withinUses_after_iff (counted : object.Counted) (within : object.WithinUses)
    (interaction : Interaction) :
    (object.after interaction).WithinUses ↔ object.FindsUseLeft interaction := by
  -- Doors and switches are apart from what is limited.
  cases limited : object.unlimited with
  | true =>
    -- What is unlimited stays so, and always has uses left.
    have left : object.hasInteractableUsesLeft = true := by
      simp [hasInteractableUsesLeft, limited]
    have still : (object.after interaction).unlimited = true := by
      cases interaction with
      | incrementNumTimesUsed => simpa [Interactable.after] using limited
      | markForDeletion => exact limited
      | interact player =>
        simp only [Interactable.after, interactWithObject]
        split
        · exact limited
        · split
          · exact limited
          · simpa using limited
    constructor
    · intro _
      cases interaction with
      | interact player => exact fun _ _ _ => .inl left
      | incrementNumTimesUsed => exact .inl left
      | markForDeletion => trivial
    · exact fun _ => .inl still
  | false =>
    have bounds : (object.uses : Int) ≤ object.allowed ∧ (object.drops : Int) ≤ object.allowed := by
      simpa [WithinUses, limited] using within
    cases interaction with
    | markForDeletion => exact ⟨fun _ => trivial, fun _ => within⟩
    | incrementNumTimesUsed =>
      simp only [Interactable.after, WithinUses, FindsUseLeft, use_unlimited, use_allowed, use_drops,
        limited, Bool.false_eq_true, false_or]
      cases stored : object.interactableData with
      | none => simpa [use, stored] using bounds
      | some data =>
        rw [counted.hasUsesLeft_iff limited bounds.1 stored]
        simp [use, stored, bounds.2]
    | interact player =>
      cases player with
      | none =>
        refine ⟨fun _ => ?_, fun _ => within⟩
        intro player missing
        cases missing
      | some player =>
        simp only [Interactable.after, interactWithObject, FindsUseLeft, Option.mem_some,
          forall_eq']
        cases marked : object.markedForDeletion with
        | true => simpa using within
        | false =>
          simpa using counted.withinUses_interact_iff limited bounds.1 bounds.2

theorem allowed_nonneg : 0 ≤ object.allowed := by
  unfold allowed
  split
  · exact le_rfl
  · exact le_max_left _ _

theorem counted_create (noun : Option InteractableNoun) (usesAllowed : Option Int32) :
    (create noun usesAllowed).Counted := by
  constructor
  · intro data stored
    simp only [create, Option.mem_def, Option.map_eq_some_iff] at stored
    obtain ⟨usesAllowed, -, rfl⟩ := stored
    exact ⟨rfl, le_rfl⟩
  · intro _
    rfl

theorem withinUses_create (noun : Option InteractableNoun) (usesAllowed : Option Int32) :
    (create noun usesAllowed).WithinUses :=
  .inr ⟨allowed_nonneg, allowed_nonneg⟩

/-- The step of an object, which nothing refuses. -/
def step (object : Interactable) (interaction : Interaction) : Option Interactable :=
  some (object.after interaction)

/--
An object stays within the uses it is allowed, and drops no more loot than that, exactly in the
runs in which every use finds one left.
-/
theorem withinUses_iff_findsUseLeft (noun : Option InteractableNoun) (usesAllowed : Option Int32)
    (interactions : List Interaction) :
    (∀ front, front <+: interactions → (final step (create noun usesAllowed) front).WithinUses) ↔
      Along step FindsUseLeft (create noun usesAllowed) interactions := by
  symm
  apply @Along.iff_final _ _ step Counted WithinUses FindsUseLeft
  · intro object interaction next counted _ taken
    cases taken
    exact counted.after interaction
  · intro object interaction stuck
    cases stuck
  · intro object interaction next counted within taken
    cases taken
    exact withinUses_after_iff counted within interaction
  · exact counted_create noun usesAllowed
  · exact withinUses_create noun usesAllowed

/-- What may be used once is used twice, and drops loot both times. -/
theorem not_withinUses : ¬ ∀ (noun : Option InteractableNoun) (usesAllowed : Option Int32)
    (interactions : List Interaction), ∀ front, front <+: interactions →
      (final step (create noun usesAllowed) front).WithinUses := by
  intro all
  have within := all (some ⟨.interactable, false, false, false⟩) (some 1)
    [.interact (some ⟨true, 0⟩), .interact (some ⟨true, 0⟩)] _ List.prefix_rfl
  have twice : (final step (create (some ⟨.interactable, false, false, false⟩) (some 1))
      [.interact (some ⟨true, 0⟩), .interact (some ⟨true, 0⟩)]).uses = 2 := by decide
  have once : (final step (create (some ⟨.interactable, false, false, false⟩) (some 1))
      [.interact (some ⟨true, 0⟩), .interact (some ⟨true, 0⟩)]).allowed = 1 := by decide
  obtain unlimited | ⟨used, -⟩ := within
  · cases unlimited
  · rw [twice, once] at used
    omega

end Interactable

end Recap.Game
