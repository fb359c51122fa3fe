import Recap.Lib.Runs

/-! The cooldowns of an object, and how long what was added to them lasts. -/

namespace Recap.Game

/-- `Cooldown`: the time it ends at, and how many milliseconds it has. -/
structure Cooldown where
  endTime : UInt64
  duration : UInt32
deriving DecidableEq

/-- `mCooldowns`, by the ids of abilities. -/
abbrev Cooldowns := UInt32 → Option Cooldown

namespace Cooldowns

variable (cooldowns : Cooldowns) (time : UInt64) (abilityId milliseconds : UInt32)

def hasCooldown : Bool :=
  match cooldowns abilityId with
  | some cooldown => cooldown.endTime > time
  | none => false

/-- A cooldown that starts now. -/
def started : Cooldown := ⟨time + milliseconds.toUInt64, milliseconds⟩

/-- A cooldown that goes on, which keeps the time that it has started at. -/
def extended (cooldown : Cooldown) : Cooldown :=
  let newDuration := (cooldown.endTime - time + milliseconds.toUInt64).toUInt32
  ⟨cooldown.endTime - cooldown.duration.toUInt64 + newDuration.toUInt64, newDuration⟩

def addCooldown : Cooldown × Cooldowns :=
  let added :=
    match cooldowns abilityId with
    | none => started time milliseconds
    | some cooldown =>
      if time > cooldown.endTime then started time milliseconds
      else extended time milliseconds cooldown
  (added, Function.update cooldowns abilityId (some added))

def removeCooldown : Cooldown × Cooldowns :=
  match cooldowns abilityId with
  | none => (⟨0, 0⟩, cooldowns)
  | some cooldown =>
    if milliseconds ≥ cooldown.duration then (⟨0, 0⟩, Function.update cooldowns abilityId none)
    else
      let shorter : Cooldown :=
        ⟨cooldown.endTime - milliseconds.toUInt64, cooldown.duration - milliseconds⟩
      (shorter, Function.update cooldowns abilityId (some shorter))

end Cooldowns

inductive CooldownCall where
  | add (abilityId milliseconds : UInt32)
  | remove (abilityId milliseconds : UInt32)
deriving DecidableEq

/-- The ability that a call is about. -/
def CooldownCall.abilityId : CooldownCall → UInt32
  | .add abilityId _ => abilityId
  | .remove abilityId _ => abilityId

/-- A call, and the game's time at it. -/
structure CooldownEvent where
  time : UInt64
  call : CooldownCall
deriving DecidableEq

namespace Cooldowns

def after (cooldowns : Cooldowns) (event : CooldownEvent) : Cooldowns :=
  match event.call with
  | .add abilityId milliseconds => (cooldowns.addCooldown event.time abilityId milliseconds).2
  | .remove abilityId milliseconds => (cooldowns.removeCooldown abilityId milliseconds).2

/-- The cooldowns of an object after a history that starts without any. -/
def run (history : List CooldownEvent) : Cooldowns :=
  history.foldl after fun _ => none

theorem run_concat (history : List CooldownEvent) (event : CooldownEvent) :
    run (history ++ [event]) = (run history).after event := by
  -- The last event is applied last.
  simp [run]

/-- The time that a cooldown ends at if it is active, or else zero. -/
def activeEnd (cooldowns : Cooldowns) (time : UInt64) (abilityId : UInt32) : Nat :=
  match cooldowns abilityId with
  | some cooldown => if cooldown.endTime > time then cooldown.endTime.toNat else 0
  | none => 0

/-- An ability has a cooldown at every time from one on and before another one. -/
def Lasts (cooldowns : Cooldowns) (abilityId : UInt32) (start : UInt64) (bound : Nat) : Prop :=
  ∀ now : UInt64, start ≤ now → now.toNat < bound → cooldowns.hasCooldown now abilityId = true

/--
Every cooldown that is added lasts as long as it was asked to, and as long as before.

What happens next may be anything but a removal. Each beginning of a history is taken as a history.
-/
def NeverShrinks (history : List CooldownEvent) : Prop :=
  ∀ before time abilityId milliseconds middle,
    before ++ ⟨time, .add abilityId milliseconds⟩ :: middle <+: history →
    (∀ event ∈ middle, ∀ milliseconds, event.call ≠ .remove abilityId milliseconds) →
    (run (before ++ ⟨time, .add abilityId milliseconds⟩ :: middle)).Lasts abilityId
      ((middle.getLast?.map CooldownEvent.time).getD time)
      (max ((run before).activeEnd time abilityId) (time.toNat + milliseconds.toNat))

/-- The game's time never goes back. -/
def Ordered (history : List CooldownEvent) : Prop :=
  history.Pairwise fun earlier later => earlier.time ≤ later.time

instance (history : List CooldownEvent) : Decidable (Ordered history) :=
  inferInstanceAs (Decidable (List.Pairwise _ history))

/--
What is added to a cooldown that goes on is enough to make up for the time that has passed, and so is
what is left of it. The sums are numbers of the machine.
-/
def Enough (cooldowns : Cooldowns) (time : UInt64) (abilityId milliseconds : UInt32) : Prop :=
  match cooldowns abilityId with
  | none => time.toNat + milliseconds.toNat < 2 ^ 64
  | some cooldown =>
    if time > cooldown.endTime then time.toNat + milliseconds.toNat < 2 ^ 64
    else
      let passed := time.toNat - (cooldown.endTime.toNat - cooldown.duration.toNat)
      let left := cooldown.endTime.toNat - time.toNat
      left = 0 ∧ milliseconds.toNat = 0 ∨
        passed ≤ milliseconds.toNat ∧ passed ≤ left ∧ left + milliseconds.toNat < 2 ^ 32 ∧
          cooldown.endTime.toNat + milliseconds.toNat - passed < 2 ^ 64

/-- Every addition of a history is enough. -/
def AlwaysEnough (history : List CooldownEvent) : Prop :=
  ∀ before time abilityId milliseconds, before ++ [⟨time, .add abilityId milliseconds⟩] <+: history →
    (run before).Enough time abilityId milliseconds

/-- Every cooldown has started at a time that has come. -/
def Sound (cooldowns : Cooldowns) (time : UInt64) : Prop :=
  ∀ abilityId cooldown, cooldowns abilityId = some cooldown →
    cooldown.duration.toNat ≤ cooldown.endTime.toNat ∧
      cooldown.endTime.toNat - cooldown.duration.toNat ≤ time.toNat

section Add

variable {time : UInt64} {milliseconds : UInt32}

/-- A cooldown that starts now ends when it was asked to, unless that is no time any more. -/
theorem toNat_started : (started time milliseconds).endTime.toNat =
    (time.toNat + milliseconds.toNat) % 2 ^ 64 := by
  simp [started, UInt64.toNat_add]

/-- A cooldown that goes on has what was left and what was added. -/
theorem toNat_extended_duration {cooldown : Cooldown} (active : time ≤ cooldown.endTime) :
    (extended time milliseconds cooldown).duration.toNat =
      (cooldown.endTime.toNat - time.toNat + milliseconds.toNat) % 2 ^ 32 := by
  have small := milliseconds.toNat_lt
  simp only [extended, UInt64.toNat_toUInt32, UInt64.toNat_add, UInt32.toNat_toUInt64,
    UInt64.toNat_sub_of_le _ _ active]
  omega

/-- A cooldown that goes on still counts from where it started. -/
theorem toNat_extended_endTime {cooldown : Cooldown}
    (sound : cooldown.duration.toNat ≤ cooldown.endTime.toNat) :
    (extended time milliseconds cooldown).endTime.toNat =
      (cooldown.endTime.toNat - cooldown.duration.toNat +
        (extended time milliseconds cooldown).duration.toNat) % 2 ^ 64 := by
  have below : cooldown.duration.toUInt64 ≤ cooldown.endTime := by
    rw [UInt64.le_iff_toNat_le, UInt32.toNat_toUInt64]
    exact sound
  simp only [extended, UInt64.toNat_add, UInt32.toNat_toUInt64, UInt64.toNat_sub_of_le _ _ below]

end Add

section Step

variable {cooldowns : Cooldowns} {last time : UInt64} {abilityId milliseconds : UInt32}

/-- A cooldown lasts until it ends, or for a time that is over already. -/
theorem lasts_iff {cooldown : Cooldown} (found : cooldowns abilityId = some cooldown)
    {start : UInt64} {bound : Nat} : cooldowns.Lasts abilityId start bound ↔
      bound ≤ cooldown.endTime.toNat ∨ bound ≤ start.toNat := by
  have active (now : UInt64) : cooldowns.hasCooldown now abilityId = true ↔
      now.toNat < cooldown.endTime.toNat := by
    simp [hasCooldown, found, UInt64.lt_iff_toNat_lt]
  constructor
  · intro lasts
    by_contra short
    push Not at short
    -- The cooldown has ended at its end, and so it has at any later time.
    rcases Nat.lt_or_ge start.toNat cooldown.endTime.toNat with early | late
    · have still := lasts cooldown.endTime (UInt64.le_iff_toNat_le.mpr early.le) short.1
      exact absurd ((active _).mp still) (lt_irrefl _)
    · have still := lasts start (UInt64.le_refl _) short.2
      exact absurd ((active _).mp still) (Nat.not_lt.mpr late)
  · intro long now from_ before
    rw [active]
    have after := UInt64.le_iff_toNat_le.mp from_
    omega

/-- The cooldown that an addition leaves behind. -/
def added (cooldowns : Cooldowns) (time : UInt64) (abilityId milliseconds : UInt32) : Cooldown :=
  (cooldowns.addCooldown time abilityId milliseconds).1

theorem addCooldown_same :
    (cooldowns.addCooldown time abilityId milliseconds).2 abilityId =
      some (cooldowns.added time abilityId milliseconds) :=
  Function.update_self ..

theorem addCooldown_other {other : UInt32} (different : other ≠ abilityId) :
    (cooldowns.addCooldown time abilityId milliseconds).2 other = cooldowns other :=
  Function.update_of_ne different ..

/-- An addition to nothing, or to what has ended, starts now. -/
theorem added_started
    (ended : ∀ cooldown, cooldowns abilityId = some cooldown → time > cooldown.endTime) :
    cooldowns.added time abilityId milliseconds = started time milliseconds := by
  unfold added addCooldown
  cases found : cooldowns abilityId with
  | none => rfl
  | some cooldown => simp [ended cooldown found]

theorem added_extended {cooldown : Cooldown} (found : cooldowns abilityId = some cooldown)
    (active : time ≤ cooldown.endTime) :
    cooldowns.added time abilityId milliseconds = extended time milliseconds cooldown := by
  simp [added, addCooldown, found, UInt64.not_lt.mpr active]

/-- What is added lasts as it should exactly if it is enough. -/
theorem Sound.lasts_iff_enough (sound : cooldowns.Sound last) (later : last ≤ time) :
    (cooldowns.addCooldown time abilityId milliseconds).2.Lasts abilityId time
        (max (cooldowns.activeEnd time abilityId) (time.toNat + milliseconds.toNat)) ↔
      cooldowns.Enough time abilityId milliseconds := by
  rw [lasts_iff addCooldown_same, Nat.max_le, Nat.max_le]
  have small := milliseconds.toNat_lt
  have clock := time.toNat_lt
  rw [UInt64.le_iff_toNat_le] at later
  cases found : cooldowns abilityId with
  | none =>
    rw [added_started (by simp [found]), toNat_started]
    simp only [activeEnd, Enough, found]
    omega
  | some cooldown =>
    obtain ⟨whole, begun⟩ := sound abilityId cooldown found
    by_cases ended : time > cooldown.endTime
    · have past := UInt64.lt_iff_toNat_lt.mp ended
      rw [added_started (by simp [found, ended]), toNat_started]
      have inactive : ¬ cooldown.endTime > time := UInt64.not_lt.mpr (UInt64.le_of_lt ended)
      simp only [activeEnd, Enough, found, if_pos ended, if_neg inactive]
      omega
    · -- The new end counts from the start, which is where the time that has passed is lost.
      have active := UInt64.not_lt.mp ended
      have ahead := UInt64.le_iff_toNat_le.mp active
      have bound := cooldown.endTime.toNat_lt
      have short := cooldown.duration.toNat_lt
      rw [added_extended found active, toNat_extended_endTime whole, toNat_extended_duration active]
      simp only [activeEnd, Enough, found, if_neg ended]
      split
      · rename_i running
        rw [gt_iff_lt, UInt64.lt_iff_toNat_lt] at running
        omega
      · rename_i stopped
        rw [gt_iff_lt, UInt64.lt_iff_toNat_lt] at stopped
        omega

theorem Sound.mono (sound : cooldowns.Sound last) (later : last ≤ time) : cooldowns.Sound time := by
  intro other cooldown found
  obtain ⟨whole, begun⟩ := sound other cooldown found
  exact ⟨whole, begun.trans (UInt64.le_iff_toNat_le.mp later)⟩

theorem Lasts.mono {bound : Nat} (lasts : cooldowns.Lasts abilityId last bound) (later : last ≤ time) :
    cooldowns.Lasts abilityId time bound :=
  fun now from_ before => lasts now (UInt64.le_trans later from_) before

/-- What is added counts from now, or from where the cooldown has counted before. -/
theorem Sound.add (sound : cooldowns.Sound time)
    (enough : cooldowns.Enough time abilityId milliseconds) :
    (cooldowns.addCooldown time abilityId milliseconds).2.Sound time := by
  -- One that has ended is replaced, and one that is active is extended.
  intro other cooldown found
  by_cases same : other = abilityId
  · subst same
    rw [addCooldown_same] at found
    obtain rfl := Option.some.inj found
    by_cases ended : ∀ cooldown, cooldowns other = some cooldown → time > cooldown.endTime
    · have fits : time.toNat + milliseconds.toNat < 2 ^ 64 := by
        unfold Enough at enough
        cases before : cooldowns other with
        | none => simpa only [before] using enough
        | some cooldown => simpa only [before, if_pos (ended cooldown before)] using enough
      rw [added_started ended, toNat_started]
      simp only [started]
      omega
    · push Not at ended
      obtain ⟨cooldown, before, active⟩ := ended
      have active := UInt64.not_lt.mp active
      obtain ⟨whole, begun⟩ := sound other cooldown before
      simp only [Enough, before, gt_iff_lt, if_neg (UInt64.not_lt.mpr active)] at enough
      rw [added_extended before active, toNat_extended_endTime whole, toNat_extended_duration active]
      have bound := cooldown.endTime.toNat_lt
      omega
  · rw [addCooldown_other same] at found
    exact sound other cooldown found

/-- A removal takes as much from the end as from the duration. -/
theorem Sound.remove (sound : cooldowns.Sound time) :
    (cooldowns.removeCooldown abilityId milliseconds).2.Sound time := by
  intro other cooldown found
  unfold removeCooldown at found
  cases before : cooldowns abilityId with
  | none =>
    rw [before] at found
    exact sound other cooldown found
  | some shortened =>
    simp only [before] at found
    obtain ⟨whole, begun⟩ := sound abilityId shortened before
    split at found <;> dsimp only at found
    · -- What was all removed is gone.
      by_cases same : other = abilityId
      · subst same
        simp at found
      · rw [Function.update_of_ne same] at found
        exact sound other cooldown found
    · rename_i part
      by_cases same : other = abilityId
      · subst same
        rw [Function.update_self] at found
        obtain rfl := Option.some.inj found
        rw [ge_iff_le, UInt32.not_le, UInt32.lt_iff_toNat_lt] at part
        have fits : milliseconds.toUInt64 ≤ shortened.endTime := by
          rw [UInt64.le_iff_toNat_le, UInt32.toNat_toUInt64]
          omega
        rw [UInt64.toNat_sub_of_le _ _ fits, UInt32.toNat_toUInt64,
          UInt32.toNat_sub_of_le _ _ (UInt32.le_of_lt (UInt32.lt_iff_toNat_lt.mpr part))]
        omega
      · rw [Function.update_of_ne same] at found
        exact sound other cooldown found

/-- What lasts goes on to do so when enough is added. -/
theorem Sound.lasts_add (sound : cooldowns.Sound time) {other : UInt32} {bound : Nat}
    (enough : cooldowns.Enough time other milliseconds)
    (lasts : cooldowns.Lasts abilityId time bound) :
    (cooldowns.addCooldown time other milliseconds).2.Lasts abilityId time bound := by
  intro now from_ before
  by_cases same : abilityId = other
  · subst same
    have long := (sound.lasts_iff_enough (UInt64.le_refl _)).mpr enough
    apply long now from_
    -- The cooldown is active, so the addition was to last at least until its end.
    have active := lasts now from_ before
    unfold hasCooldown at active
    cases found : cooldowns abilityId with
    | none => simp [found] at active
    | some cooldown =>
      simp only [found, gt_iff_lt, decide_eq_true_eq] at active
      have running : cooldown.endTime > time := UInt64.lt_of_le_of_lt from_ active
      simp only [activeEnd, found, if_pos running]
      exact lt_max_of_lt_left (UInt64.lt_iff_toNat_lt.mp active)
  · have kept := lasts now from_ before
    unfold hasCooldown at kept ⊢
    rwa [addCooldown_other same]

/-- Removing another ability's cooldown leaves this one alone. -/
theorem Lasts.remove {other : UInt32} {bound : Nat} (different : abilityId ≠ other)
    (lasts : cooldowns.Lasts abilityId time bound) :
    (cooldowns.removeCooldown other milliseconds).2.Lasts abilityId time bound := by
  intro now from_ before
  have same : (cooldowns.removeCooldown other milliseconds).2 abilityId = cooldowns abilityId := by
    unfold removeCooldown
    cases cooldowns other with
    | none => rfl
    | some cooldown =>
      simp only
      split
      · exact Function.update_of_ne different ..
      · exact Function.update_of_ne different ..
  have kept := lasts now from_ before
  unfold hasCooldown at kept ⊢
  rwa [same]

end Step

section Run

variable {history : List CooldownEvent}

theorem AlwaysEnough.front {front : List CooldownEvent} (enough : AlwaysEnough history)
    (shorter : front <+: history) : AlwaysEnough front :=
  fun before time abilityId milliseconds within =>
    enough before time abilityId milliseconds (within.trans shorter)

/-- Where every addition was enough, every cooldown counts from when it was started. -/
theorem sound_run (ordered : Ordered history) (enough : AlwaysEnough history) {time : UInt64}
    (passed : ∀ event ∈ history, event.time ≤ time) : (run history).Sound time := by
  -- The last event is taken from the state that the events before it have led to.
  induction history using List.reverseRecOn generalizing time with
  | nil => exact fun _ _ found => by cases found
  | append_singleton history event ih =>
    have before := ih (List.pairwise_append.mp ordered).1
      (enough.front (List.prefix_append ..)) fun earlier member =>
        (List.pairwise_append.mp ordered).2.2 earlier member event (List.mem_singleton.mpr rfl)
    rw [run_concat]
    refine Sound.mono ?_ (passed event (by simp))
    unfold after
    cases called : event.call with
    | add abilityId milliseconds =>
      refine before.add (enough history event.time abilityId milliseconds ?_)
      rw [← called]
    | remove abilityId milliseconds => exact before.remove

/-- What was added lasts through everything but a removal. -/
theorem lasts_through {before middle : List CooldownEvent} {time : UInt64}
    {abilityId milliseconds : UInt32}
    (ordered : Ordered (before ++ ⟨time, .add abilityId milliseconds⟩ :: middle))
    (enough : AlwaysEnough (before ++ ⟨time, .add abilityId milliseconds⟩ :: middle))
    (kept : ∀ event ∈ middle, ∀ milliseconds, event.call ≠ .remove abilityId milliseconds) :
    (run (before ++ ⟨time, .add abilityId milliseconds⟩ :: middle)).Lasts abilityId
      ((middle.getLast?.map CooldownEvent.time).getD time)
      (max ((run before).activeEnd time abilityId) (time.toNat + milliseconds.toNat)) := by
  induction middle using List.reverseRecOn with
  | nil =>
    have earlier := (List.pairwise_append.mp ordered).2.2
    have sound : (run before).Sound time := sound_run (List.pairwise_append.mp ordered).1
      (enough.front (List.prefix_append ..)) fun event member =>
        earlier event member _ (List.mem_singleton.mpr rfl)
    rw [run_concat]
    exact (sound.lasts_iff_enough (UInt64.le_refl _)).mpr
      (enough before time abilityId milliseconds (List.prefix_refl _))
  | append_singleton middle event ih =>
    rw [← List.cons_append, ← List.append_assoc] at ordered enough ⊢
    obtain ⟨front, -, earlier⟩ := List.pairwise_append.mp ordered
    have passed : ∀ other ∈ before ++ ⟨time, .add abilityId milliseconds⟩ :: middle,
        other.time ≤ event.time := fun other member => earlier other member event (by simp)
    have enoughFront := enough.front (List.prefix_append ..)
    have lasts := ih front enoughFront fun other member => kept other (by simp [member])
    -- The last time before the event is not behind it.
    have later : (middle.getLast?.map CooldownEvent.time).getD time ≤ event.time := by
      cases last : middle.getLast? with
      | none => exact passed ⟨time, .add abilityId milliseconds⟩ (by simp)
      | some other =>
        exact passed other (by simp [List.mem_of_mem_getLast? (by rw [last]; rfl)])
    have lasts := lasts.mono later
    rw [run_concat, List.getLast?_concat]
    unfold after
    cases called : event.call with
    | add other milliseconds' =>
      refine (sound_run front enoughFront passed).lasts_add (enough _ event.time other _ ?_) lasts
      rw [← called]
    | remove other milliseconds' =>
      refine lasts.remove fun same => ?_
      exact kept event (by simp) milliseconds' (by rw [called, same])

/--
What is added to cooldowns never makes them shorter exactly when every addition to one that goes on
is enough to make up for the time that has passed since it was started.
-/
theorem neverShrinks_iff (ordered : Ordered history) :
    NeverShrinks history ↔ AlwaysEnough history := by
  constructor
  · intro never
    -- Up to the first addition that is not enough, all were.
    induction history using List.reverseRecOn with
    | nil =>
      intro before time abilityId milliseconds within
      have short := within.length_le
      simp at short
    | append_singleton history event ih =>
      have front := (List.pairwise_append.mp ordered).1
      have earlier := ih front fun before time abilityId milliseconds middle within =>
        never before time abilityId milliseconds middle (within.trans (List.prefix_append ..))
      intro before time abilityId milliseconds within
      rcases List.prefix_concat_iff.mp within with last | inside
      · obtain ⟨same, here⟩ := List.append_inj' last rfl
        obtain rfl := List.singleton_inj.mp here
        subst same
        have sound : (run before).Sound time := sound_run front earlier fun event member =>
          (List.pairwise_append.mp ordered).2.2 event member _ (List.mem_singleton.mpr rfl)
        have lasts := never before time abilityId milliseconds [] within (by simp)
        rw [run_concat] at lasts
        exact (sound.lasts_iff_enough (UInt64.le_refl _)).mp lasts
      · exact earlier before time abilityId milliseconds inside
  · intro enough before time abilityId milliseconds middle within kept
    exact lasts_through (ordered.sublist within.sublist) (enough.front within) kept

/-- An addition at the start, and one right when half of the first is over. -/
theorem neverShrinks_iff_half :
    NeverShrinks [⟨0, .add 7 1000⟩, ⟨500, .add 7 500⟩] ↔
      AlwaysEnough [⟨0, .add 7 1000⟩, ⟨500, .add 7 500⟩] :=
  neverShrinks_iff (by decide)

/-- A second is added to one of which 100 milliseconds are left, and it ends too early. -/
theorem not_neverShrinks :
    ¬ ∀ history : List CooldownEvent, Ordered history → NeverShrinks history := by
  intro never
  have lasts := never [⟨0, .add 7 1000⟩, ⟨900, .add 7 1000⟩] (by decide) [⟨0, .add 7 1000⟩] 900 7
    1000 [] (List.prefix_refl _) (by simp)
  have still := lasts 1500 (by decide) (by decide)
  exact absurd still (by decide)

end Run

end Cooldowns

end Recap.Game
