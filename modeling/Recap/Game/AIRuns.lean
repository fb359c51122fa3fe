import Recap.Game.AI

/-! A creature's ticks in turn: the order in which a phase begins its abilities, and the ticks that go wrong. -/

namespace Recap.Game

variable {World Target : Type}

namespace AI

/-- There is a target from the first tick on that finds one. -/
theorem searchForTarget_fst (ai : AI Target) (noun : AINoun) (inRange : List (Target × Bool)) :
    (ai.searchForTarget noun inRange).1 = true ↔
      ai.mTargetObject.isSome ∨
        (noun.hasNonPlayerClassData ∧ ∃ entry ∈ inRange, entry.2 = true) := by
  -- A target that is there is kept, and only with class data another one is looked for.
  unfold searchForTarget
  by_cases present : ai.mTargetObject.isSome
  · simp [present]
  · by_cases data : noun.hasNonPlayerClassData
    · cases found : inRange.find? Prod.snd with
      | none =>
        have nobody := List.find?_eq_none.mp found
        simp only [present, data, Bool.false_eq_true, if_false, Bool.not_true, false_or, true_and,
          false_iff, not_exists, not_and]
        exact fun entry member controlled => nobody entry member controlled
      | some entry =>
        have controlled := List.find?_some found
        have member := List.mem_of_find?_eq_some found
        simp only [present, data, Bool.false_eq_true, if_false, Bool.not_true, false_or, true_and,
          true_iff]
        exact ⟨entry, member, controlled⟩
    · simp [present, data]

/-- The search changes the target alone. -/
theorem searchForTarget_snd (ai : AI Target) (noun : AINoun) (inRange : List (Target × Bool)) :
    (ai.searchForTarget noun inRange).2.mNode = ai.mNode ∧
      (ai.searchForTarget noun inRange).2.mGambit = ai.mGambit := by
  unfold searchForTarget
  split
  · exact ⟨rfl, rfl⟩
  · split
    · exact ⟨rfl, rfl⟩
    · split <;> exact ⟨rfl, rfl⟩

end AI

namespace Agent

variable (scripts : Scripts World)

/-! ### What a tick does -/

/-- The place in the nodes and in the gambit, and what was begun, are as before. -/
structure Same (creature after : Agent World Target) : Prop where
  node : after.ai.mNode = creature.ai.mNode
  gambit : after.ai.mGambit = creature.ai.mGambit
  begun : after.begun = creature.begun

theorem Same.trans {creature middle after : Agent World Target} (first : Same creature middle)
    (second : Same middle after) : Same creature after where
  node := second.node.trans first.node
  gambit := second.gambit.trans first.gambit
  begun := second.begun.trans first.begun

/-- The first sight of a target moves nothing on. -/
theorem firstAggro_same (creature : Agent World Target) (definition : AIDefinition) :
    Same creature (creature.firstAggro scripts definition) := by
  unfold firstAggro
  split <;> exact ⟨rfl, rfl, rfl⟩

/-- A tick without a target does nothing. -/
theorem onTick_of_nobody {noun : AINoun} {creature : Agent World Target}
    {tick : AITick World Target}
    (nobody : (creature.ai.searchForTarget noun tick.inRange).1 = false) :
    onTick scripts noun creature tick = some { creature with world := tick.since creature.world } := by
  unfold onTick
  simp only
  -- The search is looked at as a pair, of which the first part is known.
  rcases searched : creature.ai.searchForTarget noun tick.inRange with ⟨found, ai⟩
  rw [searched] at nobody
  obtain rfl : found = false := nobody
  rfl

/-- A tick with a target goes through the phase of the first node. -/
theorem onTick_of_target {noun : AINoun} {definition : AIDefinition} {phase : Phase}
    (defined : noun.aiDefinition = some definition)
    (first : definition.mNodes.head? = some ⟨some phase⟩) {creature : Agent World Target}
    (atFirst : creature.ai.mNode = 0) {tick : AITick World Target}
    (target : (creature.ai.searchForTarget noun tick.inRange).1 = true) :
    ∃ middle, Same creature middle ∧
      onTick scripts noun creature tick = middle.usePhase scripts phase tick.draw := by
  obtain ⟨node, gambit⟩ := creature.ai.searchForTarget_snd noun tick.inRange
  rcases searched : creature.ai.searchForTarget noun tick.inRange with ⟨found, ai⟩
  rw [searched] at target node gambit
  obtain rfl : found = true := target
  have sought : Same creature ⟨ai, tick.since creature.world, creature.begun⟩ := ⟨node, gambit, rfl⟩
  have same := sought.trans (firstAggro_same scripts _ definition)
  refine ⟨_, same, ?_⟩
  unfold onTick
  simp only [searched, defined]
  obtain ⟨nodes, aggroAbility⟩ := definition
  cases nodes with
  | nil => simp at first
  | cons head rest =>
    simp only [List.head?_cons, Option.some.injEq] at first
    subst first
    have still := same.node.trans atFirst
    -- The AI is in the first node, which is not behind the end.
    simp [useNode, AI.resetNode, still]

/-- Without a phase in the first node, a tick begins nothing, and nothing goes wrong. -/
theorem onTick_of_phaseless {noun : AINoun}
    (phaseless : ∀ definition phase, noun.aiDefinition = some definition →
      definition.mNodes.head? ≠ some ⟨some phase⟩) {creature : Agent World Target}
    (atFirst : creature.ai.mNode = 0) (tick : AITick World Target) :
    ∃ after, onTick scripts noun creature tick = some after ∧ Same creature after := by
  cases target : (creature.ai.searchForTarget noun tick.inRange).1 with
  | false => exact ⟨_, onTick_of_nobody scripts target, rfl, rfl, rfl⟩
  | true =>
    obtain ⟨node, gambit⟩ := creature.ai.searchForTarget_snd noun tick.inRange
    rcases searched : creature.ai.searchForTarget noun tick.inRange with ⟨found, ai⟩
    rw [searched] at target node gambit
    obtain rfl : found = true := target
    unfold onTick
    simp only [searched]
    cases defined : noun.aiDefinition with
    | none => exact ⟨_, rfl, node, gambit, rfl⟩
    | some definition =>
      have sought : Same creature ⟨ai, tick.since creature.world, creature.begun⟩ :=
        ⟨node, gambit, rfl⟩
      have same := sought.trans (firstAggro_same scripts _ definition)
      have missing := phaseless definition
      obtain ⟨nodes, aggroAbility⟩ := definition
      refine ⟨_, ?_, same⟩
      cases nodes with
      | nil => rfl
      | cons head rest =>
        have still := same.node.trans atFirst
        obtain ⟨none | phase⟩ := head
        · simp [useNode, AI.resetNode, still]
        · exact absurd rfl (missing phase defined)

/-! ### A phase that takes its abilities in turn -/

/-- How many abilities of a gambit are taken in turn: eight bits count no further. -/
def cycle (gambit : List UInt32) : Nat := min gambit.length 256

/-- The abilities that were begun are those of the gambit in turn, and its place is the next one. -/
structure InTurn (gambit : List UInt32) (creature : Agent World Target) : Prop where
  node : creature.ai.mNode = 0
  place : creature.ai.mGambit.toNat = creature.begun.length % cycle gambit
  begun : ∀ place < creature.begun.length,
    creature.begun[place]? = gambit[place % cycle gambit]?
  /-- Only abilities that can be begun were. -/
  could : ∀ id ∈ creature.begun, ∃ world, (scripts.useAbility world id).1 = true

/-- The place behind the last ability of the cycle is the first one. -/
theorem nextGambit_place {ai : AI Target} {gambit : List UInt32} (some_ : gambit ≠ []) {count : Nat}
    (place : ai.mGambit.toNat = count % cycle gambit) :
    (nextGambit ai gambit.length).mGambit.toNat = (count + 1) % cycle gambit := by
  have positive : 0 < gambit.length := List.length_pos_iff.mpr some_
  have within : count % cycle gambit < cycle gambit := Nat.mod_lt _ (by unfold cycle; omega)
  have next : (ai.mGambit + 1).toNat = (count % cycle gambit + 1) % 256 := by
    rw [UInt8.toNat_add, place]
    rfl
  unfold nextGambit
  rw [← Nat.mod_add_mod count]
  -- Either the cycle ends here, at the end of the gambit or at the largest number, or it goes on.
  by_cases last : count % cycle gambit + 1 = cycle gambit
  · rw [last, Nat.mod_self]
    by_cases whole : (ai.mGambit + 1).toNat = gambit.length
    · simp [whole]
    · simp only [if_neg whole]
      have largest : cycle gambit = 256 := by
        unfold cycle at last next ⊢
        omega
      rw [next, last, largest]
  · have before : count % cycle gambit + 1 < cycle gambit := by omega
    have fewer : cycle gambit ≤ 256 := Nat.min_le_right _ _
    have shorter : cycle gambit ≤ gambit.length := Nat.min_le_left _ _
    rw [Nat.mod_eq_of_lt before]
    rw [Nat.mod_eq_of_lt (by omega)] at next
    simp only [next, if_neg (show ¬ count % cycle gambit + 1 = gambit.length by omega)]

/-- A tick takes the ability whose turn it is, or none. -/
theorem InTurn.usePhase {phase : Phase} (sequential : phase.mType = .sequential)
    (some_ : phase.mGambit ≠ []) {creature : Agent World Target}
    (turn : InTurn scripts phase.mGambit creature) (draw : Draw) :
    ∃ after, creature.usePhase scripts phase draw = some after ∧
      InTurn scripts phase.mGambit after := by
  have positive : 0 < phase.mGambit.length := List.length_pos_iff.mpr some_
  have within : creature.begun.length % cycle phase.mGambit < cycle phase.mGambit :=
    Nat.mod_lt _ (by unfold cycle; omega)
  have inside : creature.begun.length % cycle phase.mGambit < phase.mGambit.length :=
    Nat.lt_of_lt_of_le within (Nat.min_le_left _ _)
  have read : phase.mGambit[creature.ai.mGambit.toNat]? =
      some phase.mGambit[creature.begun.length % cycle phase.mGambit] := by
    rw [turn.place]
    exact List.getElem?_eq_getElem inside
  unfold Agent.usePhase
  simp only [sequential, read]
  generalize phase.mGambit[creature.begun.length % cycle phase.mGambit] = id at read
  rw [turn.place] at read
  rcases used : scripts.useAbility creature.world id with ⟨done, world⟩
  cases done with
  | false => exact ⟨_, rfl, turn.node, turn.place, turn.begun, turn.could⟩
  | true =>
    refine ⟨_, rfl, turn.node, ?_, ?_, ?_⟩
    · simpa using nextGambit_place some_ turn.place
    · intro place before
      simp only [List.length_append, List.length_singleton] at before
      by_cases last : place = creature.begun.length
      · subst last
        simpa using read.symm
      · rw [List.getElem?_append_left (by omega)]
        exact turn.begun place (by omega)
    · intro other member
      rcases List.mem_append.mp member with earlier | single
      · exact turn.could other earlier
      · rw [List.mem_singleton.mp single]
        exact ⟨creature.world, by rw [used]⟩

/-- A tick keeps the turns. -/
theorem InTurn.onTick {noun : AINoun} {definition : AIDefinition} {phase : Phase}
    (defined : noun.aiDefinition = some definition)
    (first : definition.mNodes.head? = some ⟨some phase⟩)
    (sequential : phase.mType = .sequential) (some_ : phase.mGambit ≠ [])
    {creature : Agent World Target} (turn : InTurn scripts phase.mGambit creature)
    (tick : AITick World Target) :
    ∃ after, onTick scripts noun creature tick = some after ∧
      InTurn scripts phase.mGambit after := by
  cases target : (creature.ai.searchForTarget noun tick.inRange).1 with
  | false =>
    exact ⟨_, onTick_of_nobody scripts target, turn.node, turn.place, turn.begun, turn.could⟩
  | true =>
    obtain ⟨middle, same, ticked⟩ := onTick_of_target scripts defined first turn.node target
    have moved : InTurn scripts phase.mGambit middle := by
      refine ⟨same.node.trans turn.node, ?_, ?_, ?_⟩
      · rw [same.gambit, same.begun, turn.place]
      · rw [same.begun]
        exact turn.begun
      · rw [same.begun]
        exact turn.could
    rw [ticked]
    exact moved.usePhase scripts sequential some_ tick.draw

/-- What every tick keeps, where none goes wrong, holds where the ticks end. -/
theorem foldlM_kept (noun : AINoun) (invariant : Agent World Target → Prop)
    (kept : ∀ creature tick, invariant creature →
      ∃ after, onTick scripts noun creature tick = some after ∧ invariant after)
    (ticks : List (AITick World Target)) {creature : Agent World Target}
    (initially : invariant creature) :
    ∃ after, ticks.foldlM (onTick scripts noun) creature = some after ∧ invariant after := by
  induction ticks generalizing creature with
  | nil => exact ⟨creature, rfl, initially⟩
  | cons tick rest ih =>
    obtain ⟨middle, ticked, holds⟩ := kept creature tick initially
    obtain ⟨after, later, still⟩ := ih holds
    refine ⟨after, ?_, still⟩
    rw [List.foldlM_cons, ticked]
    exact later

/-- The turns hold wherever the ticks of a sequential phase end, and none of them goes wrong. -/
theorem run_inTurn {noun : AINoun} {definition : AIDefinition} {phase : Phase}
    (defined : noun.aiDefinition = some definition)
    (first : definition.mNodes.head? = some ⟨some phase⟩)
    (sequential : phase.mType = .sequential) (some_ : phase.mGambit ≠ []) (world : World)
    (ticks : List (AITick World Target)) :
    ∃ creature, run scripts noun world ticks = some creature ∧
      InTurn scripts phase.mGambit creature := by
  have initially : InTurn scripts phase.mGambit (new world : Agent World Target) :=
    ⟨rfl, by simp [new, AI.new], nofun, nofun⟩
  exact foldlM_kept scripts noun (InTurn scripts phase.mGambit)
    (fun _ tick turn => turn.onTick scripts defined first sequential some_ tick) ticks initially

/--
A sequential phase begins its abilities in turn, over and over, in whatever ticks they can be begun.

Only the first 256 abilities get a turn, and one that can never be begun keeps all later ones waiting.
-/
theorem begun_in_turn {noun : AINoun} {definition : AIDefinition} {phase : Phase}
    (defined : noun.aiDefinition = some definition)
    (first : definition.mNodes.head? = some ⟨some phase⟩)
    (sequential : phase.mType = .sequential) (some_ : phase.mGambit ≠ []) (world : World)
    (ticks : List (AITick World Target)) :
    ∃ creature, run scripts noun world ticks = some creature ∧
      (∀ place < creature.begun.length,
        creature.begun[place]? = phase.mGambit[place % cycle phase.mGambit]?) ∧
      ∀ place id, place < 256 → phase.mGambit[place]? = some id →
        (∀ world, (scripts.useAbility world id).1 = false) → creature.begun.length ≤ place := by
  obtain ⟨creature, ran, turn⟩ := run_inTurn scripts defined first sequential some_ world ticks
  refine ⟨creature, ran, turn.begun, fun place id small entry never => ?_⟩
  by_contra longer
  -- The ability in that place would have been begun when its first turn came.
  have inside : place < phase.mGambit.length := (List.getElem?_eq_some_iff.mp entry).1
  have own : place % cycle phase.mGambit = place := Nat.mod_eq_of_lt (by unfold cycle; omega)
  have taken := turn.begun place (by omega)
  rw [own, entry] at taken
  obtain ⟨world, began⟩ := turn.could id (List.mem_of_getElem? taken)
  rw [never world] at began
  exact absurd began Bool.false_ne_true

/-- Scripts in a world that is the time, where there is no ability 9. -/
def untimed : Scripts UInt64 where
  cooldowns := fun _ _ => none
  time := id
  getAbility := fun world id => (if id = 9 then none else some true, world)
  acting := fun _ => false
  call := fun world _ => world + 1

/-- Two abilities are begun in turn, and the third one is waited for in all later ticks. -/
theorem begun_in_turn_stuck :
    let noun : AINoun := ⟨true, some ⟨[⟨some ⟨[4, 5, 9], .sequential⟩⟩], 7⟩⟩
    let tick : AITick UInt64 Unit := ⟨id, [((), true)], fun _ => 0⟩
    ∃ creature, run untimed noun 0 [tick, tick, tick, tick] = some creature ∧
      (∀ place < creature.begun.length,
        creature.begun[place]? = [4, 5, 9][place % cycle [4, 5, 9]]?) ∧
      ∀ place id, place < 256 → [4, 5, 9][place]? = some id →
        (∀ world, (untimed.useAbility world id).1 = false) → creature.begun.length ≤ place :=
  @begun_in_turn UInt64 Unit untimed ⟨true, some ⟨[⟨some ⟨[4, 5, 9], .sequential⟩⟩], 7⟩⟩
    ⟨[⟨some ⟨[4, 5, 9], .sequential⟩⟩], 7⟩ ⟨[4, 5, 9], .sequential⟩ rfl rfl rfl (by decide) 0 _

/-! ### Ticks that go wrong -/

/-- The first node has a phase that picks one ability, out of none. -/
def Stranded (noun : AINoun) : Prop :=
  ∃ definition phase, noun.aiDefinition = some definition ∧
    definition.mNodes.head? = some ⟨some phase⟩ ∧ phase.mType ≠ .prioritizedList ∧
      phase.mGambit = []

/-- A phase that picks at random never picks from behind the end of a gambit that has an ability. -/
theorem usePhase_random {phase : Phase} (random : phase.mType = .random)
    (some_ : phase.mGambit ≠ []) (creature : Agent World Target) (draw : Draw) :
    ∃ after, creature.usePhase scripts phase draw = some after ∧
      after.ai.mNode = creature.ai.mNode := by
  have positive : 0 < phase.mGambit.length := List.length_pos_iff.mpr some_
  -- The largest number that may be drawn is below the size, also where that was cut off.
  have drawn := (draw (UInt8.ofNat (phase.mGambit.length + 255))).isLt
  have largest : (UInt8.ofNat (phase.mGambit.length + 255)).toNat =
      (phase.mGambit.length + 255) % 256 := rfl
  have within : (UInt8.ofNat (draw (UInt8.ofNat (phase.mGambit.length + 255))).val).toNat <
      phase.mGambit.length := by
    rw [UInt8.toNat_ofNat']
    omega
  unfold usePhase
  simp only [random, List.getElem?_eq_getElem within]
  split <;> exact ⟨_, rfl, rfl⟩

/-- A list of abilities is gone through without picking one. -/
theorem usePhase_prioritizedList {phase : Phase} (prioritized : phase.mType = .prioritizedList)
    (creature : Agent World Target) (draw : Draw) :
    ∃ after, creature.usePhase scripts phase draw = some after ∧
      after.ai.mNode = creature.ai.mNode := by
  unfold usePhase
  simp only [prioritized]
  split <;> exact ⟨_, rfl, rfl⟩

/-- Where the AI is not stranded, every run of ticks goes through. -/
theorem run_isSome {noun : AINoun} (safe : ¬ Stranded noun) (world : World)
    (ticks : List (AITick World Target)) :
    ∃ creature, run scripts noun world ticks = some creature := by
  by_cases phaseless : ∀ definition phase, noun.aiDefinition = some definition →
      definition.mNodes.head? ≠ some ⟨some phase⟩
  · -- Without a phase, a tick leaves the AI in the first node.
    have kept : ∀ (creature : Agent World Target) tick, creature.ai.mNode = 0 →
        ∃ after, onTick scripts noun creature tick = some after ∧ after.ai.mNode = 0 := by
      intro creature tick atFirst
      obtain ⟨after, ticked, same⟩ := onTick_of_phaseless scripts phaseless atFirst tick
      exact ⟨after, ticked, same.node.trans atFirst⟩
    obtain ⟨creature, ran, -⟩ := foldlM_kept scripts noun (fun creature => creature.ai.mNode = 0)
      kept ticks (rfl : (new world : Agent World Target).ai.mNode = 0)
    exact ⟨creature, ran⟩
  push Not at phaseless
  obtain ⟨definition, phase, defined, first⟩ := phaseless
  have picks : phase.mType ≠ .prioritizedList → phase.mGambit ≠ [] := fun other empty =>
    safe ⟨definition, phase, defined, first, other, empty⟩
  by_cases sequential : phase.mType = .sequential
  · obtain ⟨creature, ran, -⟩ :=
      run_inTurn scripts defined first sequential (picks (by simp [sequential])) world ticks
    exact ⟨creature, ran⟩
  -- The other phases go through in whatever place the AI is.
  have through : ∀ (creature : Agent World Target) (draw : Draw),
      ∃ after, creature.usePhase scripts phase draw = some after ∧
        after.ai.mNode = creature.ai.mNode := by
    intro creature draw
    by_cases prioritized : phase.mType = .prioritizedList
    · exact usePhase_prioritizedList scripts prioritized creature draw
    · have random : phase.mType = .random := by
        cases type : phase.mType with
        | prioritizedList => exact absurd type prioritized
        | sequential => exact absurd type sequential
        | random => rfl
      exact usePhase_random scripts random (picks prioritized) creature draw
  have kept : ∀ (creature : Agent World Target) tick, creature.ai.mNode = 0 →
      ∃ after, onTick scripts noun creature tick = some after ∧ after.ai.mNode = 0 := by
    intro creature tick atFirst
    cases target : (creature.ai.searchForTarget noun tick.inRange).1 with
    | false => exact ⟨_, onTick_of_nobody scripts target, atFirst⟩
    | true =>
      obtain ⟨middle, same, ticked⟩ := onTick_of_target scripts defined first atFirst target
      obtain ⟨after, used, node⟩ := through middle tick.draw
      exact ⟨after, ticked.trans used, node.trans (same.node.trans atFirst)⟩
  obtain ⟨creature, ran, -⟩ := foldlM_kept scripts noun (fun creature => creature.ai.mNode = 0)
    kept ticks (rfl : (new world : Agent World Target).ai.mNode = 0)
  exact ⟨creature, ran⟩

/-- A phase that picks one ability out of none goes wrong. -/
theorem usePhase_stranded {phase : Phase} (picks : phase.mType ≠ .prioritizedList)
    (empty : phase.mGambit = []) (creature : Agent World Target) (draw : Draw) :
    creature.usePhase scripts phase draw = none := by
  unfold usePhase
  cases type : phase.mType with
  | prioritizedList => exact absurd type picks
  | sequential => simp [empty]
  | random => simp [empty]

/--
A run of ticks goes wrong exactly when the AI's phase has to pick an ability out of none, and some
tick of a creature with class data finds somebody whom a player controls.
-/
theorem run_eq_none_iff (noun : AINoun) (world : World) (ticks : List (AITick World Target)) :
    run scripts noun world ticks = none ↔
      Stranded noun ∧ noun.hasNonPlayerClassData ∧
        ∃ tick ∈ ticks, ∃ entry ∈ tick.inRange, entry.2 = true := by
  by_cases stranded : Stranded noun
  swap
  · obtain ⟨creature, ran⟩ := run_isSome scripts stranded world ticks
    simp [ran, stranded]
  rw [and_iff_right stranded]
  obtain ⟨definition, phase, defined, first, picks, empty⟩ := stranded
  -- Up to the first tick that finds a target the AI stays as it was made, and that tick goes wrong.
  have general : ∀ creature : Agent World Target, creature.ai.mNode = 0 →
      creature.ai.mTargetObject = none →
        (ticks.foldlM (onTick scripts noun) creature = none ↔ noun.hasNonPlayerClassData ∧
          ∃ tick ∈ ticks, ∃ entry ∈ tick.inRange, entry.2 = true) := by
    induction ticks with
    | nil =>
      intro creature _ _
      simp
    | cons tick rest ih =>
      intro creature atFirst alone
      have sight := creature.ai.searchForTarget_fst noun tick.inRange
      simp only [alone, Option.isSome_none, Bool.false_eq_true, false_or] at sight
      rw [List.foldlM_cons, List.exists_mem_cons_iff, and_or_left, ← sight]
      cases target : (creature.ai.searchForTarget noun tick.inRange).1 with
      | true =>
        obtain ⟨middle, -, ticked⟩ := onTick_of_target scripts defined first atFirst target
        rw [ticked, usePhase_stranded scripts picks empty]
        simp
      | false =>
        rw [onTick_of_nobody scripts target]
        simp only [Bool.false_eq_true, false_or]
        exact ih _ atFirst alone
  exact general (new world) rfl rfl

end Agent
end Recap.Game
