import Recap.SporeNet.Account

/-! The level and the experience that a player is set up with. -/

namespace Recap.Game

open Recap.SporeNet (Account)

/-- The experience that each level starts at. -/
def xpTable : List UInt32 :=
  [0,
    100, 200, 3000, 6000, 9000,
    12000, 15000, 18000, 21000, 24500,
    28500, 33000, 38000, 43000, 48000,
    53000, 58000, 63000, 68000, 73000,
    78000, 83000, 88000, 93500, 99500,
    106000, 113000, 120500, 128500, 137000,
    146000, 155500, 165500, 176000, 187000,
    198500, 210500, 223000, 236000, 249500,
    263500, 278000, 293000, 308500, 324500,
    341000, 358000, 375500, 393500, 412000,
    431000, 451000, 471500, 492500, 514000,
    536000, 558500, 581500, 605000, 629000,
    653500, 678500, 704500, 731500, 759500,
    788500, 818500, 849500, 881500, 914500,
    948500, 983500, 1019500, 1056500, 1094500,
    1133500, 1173500, 1214500, 1256500, 1299500,
    1343500, 1388500, 1434500, 1481500, 1529500,
    1578500, 1628500, 1679500, 1731500, 1784500,
    1839500, 1896500, 1955500, 2016500, 2080500,
    2149500, 2225500, 2310500, 2410500, 2510500]

/-- `Player::GetXPForLevel`, which is zero for a level past the end of the table. -/
def getXPForLevel (level : UInt32) : UInt32 := (xpTable[level.toNat]?).getD 0

/-- What a player is set up with. -/
structure PlayerSetup where
  mStatus : UInt32 := 0
  mbDataSetup : Bool := false
  mTeam : UInt8 := 1
  mPlayerOnlineId : UInt64
  mLockCamera : Bool := false
  mLockedAbilityMin : UInt32 := 0xFF
  mLockedDeckIndexMin : UInt32 := 0xFF
  mAvatarLevel : UInt32
  mDNA : Int32
  /-- The two numbers that are divided, the second of which is at least one. -/
  mAvatarXP : UInt32 × UInt32

/-- The experience within the level. -/
def xpInLevel (account : Account) : UInt32 := account.xp - getXPForLevel account.level

/-- The experience from the level to the next one. -/
def xpSpan (account : Account) : UInt32 :=
  getXPForLevel (account.level + 1) - getXPForLevel account.level

/-- `Player::Setup` -/
def setup (account : Account) : PlayerSetup :=
  { mPlayerOnlineId := account.id.toUInt64
    mAvatarLevel := account.level
    mDNA := account.dna.toInt32
    mAvatarXP := (xpInLevel account, max 1 (xpSpan account)) }

/-- The differences are those of the numbers, and none of them is below zero. -/
structure Unwrapped (account : Account) : Prop where
  within : ((xpInLevel account).toNat : Int) = account.xp.toNat - (getXPForLevel account.level).toNat
  span : ((xpSpan account).toNat : Int) =
    (getXPForLevel (account.level + 1)).toNat - (getXPForLevel account.level).toNat

/-- An unsigned difference is the one of the numbers exactly when that is not negative. -/
theorem sub_exact_iff (left right : UInt32) :
    ((left - right).toNat : Int) = left.toNat - right.toNat ↔ right ≤ left := by
  -- The word that is left of a negative difference is larger by 2^32.
  have small := left.toNat_lt
  have bound := right.toNat_lt
  rw [UInt32.toNat_sub, UInt32.le_iff_toNat_le]
  omega

/-- The table grows from each level to the next one. -/
theorem xpTable_grows : ∀ level < 100, (xpTable[level]?).getD 0 ≤ (xpTable[level + 1]?).getD 0 := by
  decide

theorem getXPForLevel_past {level : UInt32} (past : 100 < level.toNat) : getXPForLevel level = 0 := by
  unfold getXPForLevel
  have length : xpTable.length = 101 := rfl
  rw [List.getElem?_eq_none (by omega), Option.getD_none]

/-- Only the last level of the table starts later than the one behind it. -/
theorem getXPForLevel_le_next_iff (level : UInt32) :
    getXPForLevel level ≤ getXPForLevel (level + 1) ↔ level ≠ 100 := by
  rcases Nat.lt_trichotomy level.toNat 100 with below | last | past
  · have next : (level + 1).toNat = level.toNat + 1 := by
      rw [UInt32.toNat_add, UInt32.toNat_one]
      omega
    have other : level ≠ 100 := by
      rintro rfl
      exact absurd below (by decide)
    refine iff_of_true ?_ other
    unfold getXPForLevel
    rw [next]
    exact xpTable_grows level.toNat below
  · obtain rfl : level = 100 := UInt32.toNat_inj.mp last
    decide
  · -- The levels past the table start at zero, and the largest one is followed by the first.
    have other : level ≠ 100 := by
      rintro rfl
      exact absurd past (by decide)
    refine iff_of_true ?_ other
    rw [getXPForLevel_past past]
    exact UInt32.zero_le

/--
Nothing wraps exactly when the account has the experience that its level starts at, and the level
is not the last one of the table.
-/
theorem unwrapped_iff (account : Account) :
    Unwrapped account ↔ getXPForLevel account.level ≤ account.xp ∧ account.level ≠ 100 := by
  rw [← getXPForLevel_le_next_iff, ← sub_exact_iff, ← sub_exact_iff]
  exact ⟨fun exact_ => ⟨exact_.within, exact_.span⟩, fun both => ⟨both.1, both.2⟩⟩

/-- Short of the next level, the share of the level that a player has is less than the whole. -/
theorem setup_mAvatarXP_lt {account : Account} (unwrapped : Unwrapped account)
    (short : account.xp < getXPForLevel (account.level + 1)) :
    (setup account).mAvatarXP.1 < (setup account).mAvatarXP.2 := by
  have within := unwrapped.within
  have span := unwrapped.span
  have less := UInt32.lt_iff_toNat_lt.mp short
  have part : xpInLevel account < xpSpan account := by
    rw [UInt32.lt_iff_toNat_lt]
    omega
  -- The span is not empty, so it is what is divided by.
  have positive : 1 ≤ xpSpan account := by
    rw [UInt32.le_iff_toNat_le, UInt32.toNat_one]
    rw [UInt32.lt_iff_toNat_lt] at part
    omega
  have divisor : (setup account).mAvatarXP.2 = xpSpan account := if_pos positive
  rw [divisor]
  exact part

/-- A new account is on the first level without the experience for it. -/
theorem not_unwrapped : ¬ ∀ account, Unwrapped account := by
  intro always
  have within := (always {}).within
  exact absurd within (by decide)

end Recap.Game
