import Recap.Lib.Runs
import Recap.SporeNet.Account

/-! The upgrades that a player pays for, and the levels that they unlock. -/

namespace Recap.SporeNet

/-- What an account has a level of. -/
inductive Unlock where
  | catalysts | diagonalCatalysts | inventory | fuelTanks | pveDecks | pvpDecks | stats
  | inventoryIdentify | editorFlairSlots
deriving DecidableEq

namespace Account

def unlock (account : Account) : Unlock → UInt32
  | .catalysts => account.unlockCatalysts
  | .diagonalCatalysts => account.unlockDiagonalCatalysts
  | .inventory => account.unlockInventory
  | .fuelTanks => account.unlockFuelTanks
  | .pveDecks => account.unlockPveDecks
  | .pvpDecks => account.unlockPvpDecks
  | .stats => account.unlockStats
  | .inventoryIdentify => account.unlockInventoryIdentify
  | .editorFlairSlots => account.unlockEditorFlairSlots

def setUnlock (account : Account) (level : UInt32) : Unlock → Account
  | .catalysts => { account with unlockCatalysts := level }
  | .diagonalCatalysts => { account with unlockDiagonalCatalysts := level }
  | .inventory => { account with unlockInventory := level }
  | .fuelTanks => { account with unlockFuelTanks := level }
  | .pveDecks => { account with unlockPveDecks := level }
  | .pvpDecks => { account with unlockPvpDecks := level }
  | .stats => { account with unlockStats := level }
  | .inventoryIdentify => { account with unlockInventoryIdentify := level }
  | .editorFlairSlots => { account with unlockEditorFlairSlots := level }

/-- The account with some levels set in turn. -/
def setUnlocks (account : Account) (entries : List (Unlock × UInt32)) : Account :=
  entries.foldl (fun account entry => account.setUnlock entry.2 entry.1) account

@[simp] theorem unlock_setUnlock (account : Account) (level : UInt32) (kind other : Unlock) :
    (account.setUnlock level kind).unlock other =
      if other = kind then level else account.unlock other := by
  cases kind <;> cases other <;> rfl

@[simp] theorem dna_setUnlock (account : Account) (level : UInt32) (kind : Unlock) :
    (account.setUnlock level kind).dna = account.dna := by
  cases kind <;> rfl

end Account

/-- What each upgrade costs. -/
def unlockCost : List UInt32 :=
  [0,
    2000, 6000, 16000,
    30000, 80000, 150000,
    300000,
    200, 350, 500,
    700, 900, 1200,
    1600, 4000, 8000,
    13000, 19000, 29000,
    42000, 57000, 76000,
    100000, 160000, 250000,
    5000, 25000, 50000,
    100000, 200000, 400000,
    1000000, 2500000, 5000000,
    10000000,
    500, 4000,
    0,
    0, 0, 0,
    400, 1200, 4000,
    0,
    1000, 5000, 10000,
    200, 600, 1200,
    20000000] ++ List.replicate 11 0

/-- The levels of the inventory that come together. -/
def inventoryLevels (level : UInt32) : List (Unlock × UInt32) :=
  [(.inventory, level), (.inventoryIdentify, 180 + 30 * level)]

/-- The levels that an upgrade sets, which are none for some upgrades. -/
def unlockLevels (unlockId : UInt32) : List (Unlock × UInt32) :=
  if 1 ≤ unlockId ∧ unlockId ≤ 6 then [(.catalysts, unlockId - 1 + 4)]
  else if unlockId = 7 then [(.diagonalCatalysts, 1)]
  else if 8 ≤ unlockId ∧ unlockId ≤ 25 then [(.stats, unlockId - 8 + 1)]
  else if 26 ≤ unlockId ∧ unlockId ≤ 35 then inventoryLevels (unlockId - 26 + 4)
  else if 36 ≤ unlockId ∧ unlockId ≤ 37 then [(.pveDecks, unlockId - 36 + 2)]
  else if unlockId = 38 then [(.pvpDecks, 1)]
  else if 42 ≤ unlockId ∧ unlockId ≤ 44 then [(.fuelTanks, unlockId - 42 + 3)]
  else if 46 ≤ unlockId ∧ unlockId ≤ 48 then [(.editorFlairSlots, unlockId - 46 + 4)]
  else if 49 ≤ unlockId ∧ unlockId ≤ 51 then inventoryLevels (unlockId - 49 + 1)
  else if unlockId = 52 then inventoryLevels (unlockId - 52 + 14)
  else []

namespace Account

/-- `User::UnlockUpgrade`, with whether the upgrade was granted. -/
def unlockUpgrade (account : Account) (unlockId : UInt32) : Account × Bool :=
  match unlockCost[unlockId.toNat]? with
  | none => (account, false)
  | some cost =>
    if cost > account.dna then (account, false)
    else
      let paid := { account with dna := account.dna - cost }
      (paid.setUnlocks (unlockLevels unlockId), true)

/-- The upgrade exists, and the account can pay for it. -/
def Affords (account : Account) (unlockId : UInt32) (cost : UInt32) : Prop :=
  unlockCost[unlockId.toNat]? = some cost ∧ cost ≤ account.dna

/-- No upgrade that is granted sets a level below the one that the account has. -/
def Raises (account : Account) (unlockId : UInt32) : Prop :=
  ∀ cost, account.Affords unlockId cost →
    ∀ entry ∈ unlockLevels unlockId, account.unlock entry.1 ≤ entry.2

/-- What a request does to an account is monotone and atomic. -/
structure Sound (account : Account) (unlockId : UInt32) : Prop where
  levels : ∀ kind, account.unlock kind ≤ (account.unlockUpgrade unlockId).1.unlock kind
  /-- The balance goes down by the cost of what is granted, as a number that may be negative. -/
  dna : ((account.unlockUpgrade unlockId).1.dna.toNat : Int) =
    account.dna.toNat - if (account.unlockUpgrade unlockId).2 then
      ((unlockCost[unlockId.toNat]?.getD 0).toNat : Int) else 0
  refused : (account.unlockUpgrade unlockId).2 = false → (account.unlockUpgrade unlockId).1 = account

/-- The two things that a request may come to. -/
theorem unlockUpgrade_cases (account : Account) (unlockId : UInt32) :
    (∃ cost, account.Affords unlockId cost ∧ account.unlockUpgrade unlockId =
      (({ account with dna := account.dna - cost } : Account).setUnlocks (unlockLevels unlockId),
        true)) ∨
    ((∀ cost, ¬ account.Affords unlockId cost) ∧
      account.unlockUpgrade unlockId = (account, false)) := by
  -- A request is refused for an unknown id, and for one that costs too much.
  unfold unlockUpgrade Affords
  cases known : unlockCost[unlockId.toNat]? with
  | none => exact .inr ⟨by simp, rfl⟩
  | some cost =>
    by_cases enough : cost ≤ account.dna
    · exact .inl ⟨cost, ⟨rfl, enough⟩, if_neg (UInt32.not_lt.mpr enough)⟩
    · refine .inr ⟨?_, if_pos (UInt32.not_le.mp enough)⟩
      rintro other ⟨same, affordable⟩
      obtain rfl := Option.some_inj.mp same
      exact enough affordable

/-- An upgrade sets each kind once. -/
theorem unlockLevels_nodup (unlockId : UInt32) :
    ((unlockLevels unlockId).map Prod.fst).Nodup := by
  have one (kind : Unlock) (level : UInt32) : ([(kind, level)].map Prod.fst).Nodup :=
    List.nodup_singleton kind
  have two (level : UInt32) : ((inventoryLevels level).map Prod.fst).Nodup := by
    change [Unlock.inventory, Unlock.inventoryIdentify].Nodup
    decide
  have branch (range : Prop) [Decidable range] {inside outside : List (Unlock × UInt32)}
      (first : (inside.map Prod.fst).Nodup) (second : (outside.map Prod.fst).Nodup) :
      ((if range then inside else outside).map Prod.fst).Nodup := by
    split
    · exact first
    · exact second
  unfold unlockLevels
  -- Every range of ids sets no kind, one kind, or the two of the inventory.
  repeat' apply branch
  all_goals first | exact one _ _ | exact two _ | exact List.nodup_nil

@[simp] theorem dna_setUnlocks (entries : List (Unlock × UInt32)) (account : Account) :
    (account.setUnlocks entries).dna = account.dna := by
  induction entries generalizing account with
  | nil => rfl
  | cons entry later ih => exact (ih _).trans (dna_setUnlock account entry.2 entry.1)

/-- A kind that is not set keeps its level. -/
theorem unlock_setUnlocks_of_notMem {entries : List (Unlock × UInt32)} {kind : Unlock}
    (other : kind ∉ entries.map Prod.fst) (account : Account) :
    (account.setUnlocks entries).unlock kind = account.unlock kind := by
  -- The induction follows the entries, none of which is about this kind.
  induction entries generalizing account with
  | nil => rfl
  | cons entry later ih =>
    rw [List.map_cons, List.mem_cons, not_or] at other
    have rest := ih other.2 (account.setUnlock entry.2 entry.1)
    exact rest.trans ((unlock_setUnlock account entry.2 entry.1 kind).trans (if_neg other.1))

/-- A kind that is set once gets that level. -/
theorem unlock_setUnlocks {entries : List (Unlock × UInt32)}
    (once : (entries.map Prod.fst).Nodup) {entry : Unlock × UInt32} (member : entry ∈ entries)
    (account : Account) : (account.setUnlocks entries).unlock entry.1 = entry.2 := by
  induction entries generalizing account with
  | nil => cases member
  | cons first later ih =>
    rw [List.map_cons, List.nodup_cons] at once
    rcases List.mem_cons.mp member with rfl | behind
    · -- What is set later is of other kinds.
      exact (unlock_setUnlocks_of_notMem once.1 _).trans
        ((unlock_setUnlock account entry.2 entry.1 entry.1).trans (if_pos rfl))
    · exact ih once.2 behind (account.setUnlock first.2 first.1)

/-- Levels are at least what they were exactly when every one that is set is. -/
theorem le_unlock_setUnlocks_iff {entries : List (Unlock × UInt32)}
    (once : (entries.map Prod.fst).Nodup) (account : Account) :
    (∀ kind, account.unlock kind ≤ (account.setUnlocks entries).unlock kind) ↔
      ∀ entry ∈ entries, account.unlock entry.1 ≤ entry.2 := by
  -- Only the kinds that are set can be lower than before.
  constructor
  · intro levels entry member
    rw [← unlock_setUnlocks once member account]
    exact levels entry.1
  · intro raised kind
    by_cases set_ : kind ∈ entries.map Prod.fst
    · obtain ⟨entry, member, rfl⟩ := List.mem_map.mp set_
      rw [unlock_setUnlocks once member account]
      exact raised entry member
    · rw [unlock_setUnlocks_of_notMem set_]
      exact UInt32.le_refl _

/--
One request is sound exactly when it raises what it sets.

The balance and the refusals are right for every request.
-/
theorem sound_iff_raises (account : Account) (unlockId : UInt32) :
    account.Sound unlockId ↔ account.Raises unlockId := by
  rcases unlockUpgrade_cases account unlockId with ⟨cost, afford, result⟩ | ⟨refused, result⟩
  · have once := unlockLevels_nodup unlockId
    let paid : Account := { account with dna := account.dna - cost }
    have granted : account.unlockUpgrade unlockId = (paid.setUnlocks (unlockLevels unlockId), true) :=
      result
    have same : ∀ kind, paid.unlock kind = account.unlock kind := by
      intro kind
      cases kind <;> rfl
    constructor
    · intro sound other _ entry member
      have levels := sound.levels
      rw [granted] at levels
      rw [← same]
      exact (le_unlock_setUnlocks_iff once paid).mp (fun kind => by rw [same]; exact levels kind)
        entry member
    · intro raises
      refine ⟨fun kind => ?_, ?_, ?_⟩
      · rw [granted, ← same]
        exact (le_unlock_setUnlocks_iff once paid).mpr
          (fun entry member => by rw [same]; exact raises cost afford entry member) kind
      · -- The account can pay, so nothing wraps.
        rw [granted, dna_setUnlocks, afford.1, if_pos rfl, Option.getD_some]
        have enough := UInt32.le_iff_toNat_le.mp afford.2
        rw [show paid.dna = account.dna - cost from rfl, UInt32.toNat_sub_of_le _ _ afford.2]
        omega
      · rw [granted]
        intro refused
        cases refused
  · have unchanged : account.Sound unlockId := by
      refine ⟨fun kind => ?_, ?_, fun _ => ?_⟩
      · rw [result]
        exact UInt32.le_refl _
      · rw [result]
        simp
      · rw [result]
    exact iff_of_true unchanged fun cost afford => absurd afford (refused cost)

/-! ### Sequences of requests -/

/-- The account after a request. -/
def afterUnlock (account : Account) (unlockId : UInt32) : Option Account :=
  some (account.unlockUpgrade unlockId).1

/--
All requests of a sequence are monotone and atomic exactly when none that is granted sets a level
below the one that the account has by then.
-/
theorem sound_along_iff (account : Account) (requests : List UInt32) :
    Runs.Along afterUnlock Sound account requests ↔
      Runs.Along afterUnlock Raises account requests := by
  have kept : Runs.Kept afterUnlock fun _ => True := fun _ _ _ _ _ => trivial
  exact kept.along_congr (fun state unlockId _ => sound_iff_raises state unlockId) requests trivial

/-- Along such a sequence, the levels at the end are at least those at the start. -/
theorem levels_final {account : Account} {requests : List UInt32}
    (raises : Runs.Along afterUnlock Raises account requests) (kind : Unlock) :
    account.unlock kind ≤ (Runs.final afterUnlock account requests).unlock kind := by
  -- Every single request raises the levels or leaves them.
  refine Runs.Along.final (fun state => account.unlock kind ≤ state.unlock kind) ?_
    (UInt32.le_refl _) raises
  intro state unlockId next reached raise taken
  obtain rfl := Option.some_inj.mp taken
  exact UInt32.le_trans reached (((sound_iff_raises state unlockId).mpr raise).levels kind)

/-- A player with the best catalysts who buys the first ones once more. -/
theorem not_sound_along :
    ¬ ∀ (account : Account) (requests : List UInt32),
      Runs.Along afterUnlock Sound account requests := by
  intro always
  have second := ((always { dna := 200000 } [6, 1]).2 _ rfl).1.levels .catalysts
  exact absurd second (by decide)

end Account

end Recap.SporeNet
