import Recap.Game.Cooldown

/-! The creatures that nobody controls: their targets, their phases, and the abilities they begin. -/

namespace Recap.Game

/-- How a phase picks from its gambit. -/
inductive PhaseType where
  | prioritizedList | sequential | random
deriving DecidableEq, Repr

/-- A phase, with the ability of each entry of its gambit. -/
structure Phase where
  mGambit : List UInt32
  mType : PhaseType
deriving DecidableEq, Repr

/-- A node, whose condition is looked at but decides nothing. -/
structure AINode where
  mPhase : Option Phase
deriving DecidableEq, Repr

structure AIDefinition where
  mNodes : List AINode
  mFirstAggroAbility : UInt32
deriving DecidableEq, Repr

/-- What a creature's noun has for its AI. -/
structure AINoun where
  hasNonPlayerClassData : Bool
  aiDefinition : Option AIDefinition
deriving DecidableEq, Repr

/-- What happens outside of the AI, in the creature's cooldowns and in the scripts of its abilities. -/
structure Scripts (World : Type) where
  cooldowns : World → Cooldowns
  time : World → UInt64
  /-- `Lua::GetAbility`, which may load a script: whether there is an ability, and whether it has a tick. -/
  getAbility : World → UInt32 → Option Bool × World
  /-- Whether the creature has a thread that is not dead. -/
  acting : World → Bool
  /-- A call of the ability's tick, on a thread that becomes the creature's. -/
  call : World → UInt32 → World

namespace Scripts

variable {World : Type} (scripts : Scripts World)

/-- `Ability::Tick`, and whether it calls the ability. -/
def tick (world : World) (id : UInt32) (hasTick : Bool) : Bool × World :=
  if !hasTick then (false, world)
  else if scripts.acting world then (false, world)
  else (true, scripts.call world id)

/-- `AI::UseAbility` of one ability. -/
def useAbility (world : World) (id : UInt32) : Bool × World :=
  if (scripts.cooldowns world).hasCooldown (scripts.time world) id then (false, world)
  else
    match scripts.getAbility world id with
    | (none, world) => (false, world)
    | (some hasTick, world) => scripts.tick world id hasTick

/-- The abilities of a list are tried in turn, up to the first one that is begun. -/
def useFirst (world : World) : List UInt32 → Option UInt32 × World
  | [] => (none, world)
  | id :: rest =>
    match scripts.useAbility world id with
    | (true, world) => (some id, world)
    | (false, world) => useFirst world rest

end Scripts

/-- The AI of a creature. -/
structure AI (Target : Type) where
  mTargetObject : Option Target
  mNode : UInt8
  mGambit : UInt8
  mFirstAggro : Bool
deriving DecidableEq, Repr

namespace AI

variable {Target : Type}

def new : AI Target where
  mTargetObject := none
  mNode := 0
  mGambit := 0
  mFirstAggro := false

/-- `AI::SearchForTarget` among the creatures in range, each with whether a player controls it. -/
def searchForTarget (ai : AI Target) (noun : AINoun) (inRange : List (Target × Bool)) :
    Bool × AI Target :=
  if ai.mTargetObject.isSome then (true, ai)
  else if !noun.hasNonPlayerClassData then (false, ai)
  else
    match inRange.find? Prod.snd with
    | none => (false, ai)
    | some (target, _) => (true, { ai with mTargetObject := some target })

/-- Behind the end of the nodes, the AI goes back to the first one. -/
def resetNode (ai : AI Target) (nodes : List AINode) : AI Target :=
  if ai.mNode.toNat ≥ nodes.length then { ai with mNode := 0, mGambit := 0 } else ai

end AI

/-- A creature's AI and the world, with the abilities that its phases have begun, in order. -/
structure Agent (World Target : Type) where
  ai : AI Target
  world : World
  begun : List UInt32

/-- A number in eight bits that is drawn from those up to a largest one. -/
abbrev Draw := (max : UInt8) → Fin (max.toNat + 1)

/-- A tick of the creature: what has happened since the last one, who is in range, and what is drawn. -/
structure AITick (World Target : Type) where
  since : World → World
  inRange : List (Target × Bool)
  draw : Draw

namespace Agent

variable {World Target : Type} (scripts : Scripts World)

/-- The AI once the ability at its place in the gambit has been begun. -/
def nextGambit (ai : AI Target) (size : Nat) : AI Target :=
  let next := ai.mGambit + 1
  { ai with mGambit := if next.toNat = size then 0 else next }

/-- A phase, undefined where it reads behind the end of its gambit. -/
def usePhase (creature : Agent World Target) (phase : Phase) (draw : Draw) :
    Option (Agent World Target) :=
  match phase.mType with
  | .prioritizedList =>
    match scripts.useFirst creature.world phase.mGambit with
    | (none, world) => some { creature with world }
    | (some id, world) => some { creature with world, begun := creature.begun ++ [id] }
  | .sequential =>
    match phase.mGambit[creature.ai.mGambit.toNat]? with
    | none => none
    | some id =>
      match scripts.useAbility creature.world id with
      | (false, world) => some { creature with world }
      | (true, world) =>
        some ⟨nextGambit creature.ai phase.mGambit.length, world, creature.begun ++ [id]⟩
  | .random =>
    -- The size less one is cut off to eight bits, and of an empty gambit it is the largest number.
    let max := UInt8.ofNat (phase.mGambit.length + 255)
    let ai := { creature.ai with mGambit := UInt8.ofNat (draw max).val }
    match phase.mGambit[ai.mGambit.toNat]? with
    | none => none
    | some id =>
      match scripts.useAbility creature.world id with
      | (false, world) => some ⟨ai, world, creature.begun⟩
      | (true, world) => some ⟨ai, world, creature.begun ++ [id]⟩

/-- `AI::UseAbility` of the node that the AI is in. -/
def useNode (creature : Agent World Target) (nodes : List AINode) (draw : Draw) :
    Option (Agent World Target) :=
  if nodes.isEmpty then some creature
  else
    let creature := { creature with ai := creature.ai.resetNode nodes }
    match nodes[creature.ai.mNode.toNat]? with
    | none => none
    | some node =>
      match node.mPhase with
      | none => some creature
      | some phase => creature.usePhase scripts phase draw

/-- The first time that there is a target, its ability is tried once, whatever comes of it. -/
def firstAggro (creature : Agent World Target) (definition : AIDefinition) :
    Agent World Target :=
  if creature.ai.mFirstAggro then creature
  else
    { creature with
      ai := { creature.ai with mFirstAggro := true }
      world := (scripts.useAbility creature.world definition.mFirstAggroAbility).2 }

/-- `AI::OnTick` -/
def onTick (noun : AINoun) (creature : Agent World Target) (tick : AITick World Target) :
    Option (Agent World Target) :=
  let creature := { creature with world := tick.since creature.world }
  match creature.ai.searchForTarget noun tick.inRange with
  | (false, _) => some creature
  | (true, ai) =>
    let creature := { creature with ai }
    match noun.aiDefinition with
    | none => some creature
    | some definition =>
      (creature.firstAggro scripts definition).useNode scripts definition.mNodes tick.draw

/-- A creature that has just been made. -/
def new (world : World) : Agent World Target := ⟨.new, world, []⟩

/-- A creature's ticks in turn, undefined from the first tick on that is. -/
def run (noun : AINoun) (world : World) (ticks : List (AITick World Target)) :
    Option (Agent World Target) :=
  ticks.foldlM (onTick scripts noun) (new world)

end Agent
end Recap.Game
