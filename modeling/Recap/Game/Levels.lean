import Recap.Game.Catalyst
import Recap.Lib.OrderedMap

/-! The level of a game: how it is loaded, and what each player who starts puts into it. -/

namespace Recap.Game.Levels

/-- A marker of a level; its setup is where its object is placed and whatever else the object gets. -/
structure Marker (Setup : Type) where
  mId : UInt32
  mNoun : UInt32
  mSetup : Setup
  /-- Whether there is teleporter data. -/
  mTeleporterData : Bool := false
deriving DecidableEq

/-- `LevelConfig`, by the nouns of the directors that are looked up in it. -/
structure LevelConfig where
  mMinions : List Bytes := []
  mSpecial : List Bytes := []

def LevelConfig.getMinion (config : LevelConfig) (idx : Nat) : Bytes := config.mMinions.getD idx []

def LevelConfig.getSpecial (config : LevelConfig) (idx : Nat) : Bytes := config.mSpecial.getD idx []

/-- The file of a level, with the assets of its marker sets. -/
structure LevelFile where
  markersets : List Bytes
  levelConfig : LevelConfig
  firstTimeConfig : LevelConfig

/-- The files of the server, and the nouns that it knows. -/
structure ServerData (Setup : Type) where
  level : Bytes → Option LevelFile
  markerset : Bytes → Option (List (Marker Setup))
  noun : UInt32 → Bool

/-- A level, with its marker sets under the hashes of their names. -/
structure Level (Setup : Type) where
  mMarkersets : Std.TreeMap UInt32 (List (Marker Setup)) := {}
  mConfig : LevelConfig := {}
  mFirstTimeConfig : LevelConfig := {}

variable {Setup : Type}

/-- `Level::Load`: a marker set whose file cannot be read has no markers. -/
def Level.load (data : ServerData Setup) (levelName : Bytes) : Option (Level Setup) :=
  (data.level levelName).map fun file =>
    { mMarkersets := ((file.markersets.filter (· ≠ [])).map fun markersetAsset =>
        (hashId markersetAsset, (data.markerset markersetAsset).getD [])).foldl
          (fun markersets entry => markersets.insertIfNew entry.1 entry.2) {}
      mConfig := file.levelConfig
      mFirstTimeConfig := file.firstTimeConfig }

/-- `Level::GetMarkerset` -/
def Level.getMarkerset (level : Level Setup) (name : Bytes) : Option (List (Marker Setup)) :=
  level.mMarkersets[hashId name]?

def levelNames : List String :=
  ["Darkspore_Tutorial_cryos_1_v2",
    "zelems_1", "zelems_3", "nocturna_4", "nocturna_1",
    "verdanth_1", "verdanth_3", "zelems_2", "zelems_4",
    "cryos_4", "cryos_3", "verdanth_2", "verdanth_4",
    "infinity_2", "infinity_3", "cryos_1", "cryos_2",
    "nocturna_3", "nocturna_2", "infinity_1", "infinity_4",
    "scaldron_1", "scaldron_2", "scaldron_3", "scaldron_4"]

/-- `ChainVoteData`, whose index is that of a level. -/
structure ChainVoteData where
  mLevelIndex : Fin 25 := 0
  mCompletedLevel : Bool := false
  mEnemyNouns : Fin 6 → UInt32 := fun index => hashId (ascii (["VerdanthBasicMelee.Noun",
    "ZelemBasicHybrid.Noun", "ZelemBasicPackMelee.Noun", "ZelemBasicRangedHoming.Noun",
    "ZelemBasicFlyingMelee.Noun", "NomadSnipe.Noun"].getD index ""))

namespace ChainVoteData

def getName (chain : ChainVoteData) : Bytes := ascii (levelNames.getD chain.mLevelIndex "")

def setLevelByIndex (chain : ChainVoteData) (index : UInt32) : ChainVoteData :=
  if inside : index.toNat < 25 then { chain with mLevelIndex := ⟨index.toNat, inside⟩ } else chain

def setCompleted (chain : ChainVoteData) (completed : Bool) : ChainVoteData :=
  { chain with mCompletedLevel := completed }

def setEnemyNoun (chain : ChainVoteData) (nounStr : Bytes) (index : Nat) : ChainVoteData :=
  if inside : index < 6 then
    { chain with mEnemyNouns := Function.update chain.mEnemyNouns ⟨index, inside⟩ (hashId nounStr) }
  else chain

/-- The chain data of a new game of a level. -/
def new (levelId : UInt32) : ChainVoteData := (({} : ChainVoteData).setLevelByIndex levelId).setCompleted false

end ChainVoteData

/-- What an object is created from: a marker, or the noun of an enemy at the place of a marker. -/
inductive Spawned (Setup : Type) where
  | marker (marker : Marker Setup)
  | enemy (noun : UInt32) (marker : Marker Setup)
deriving DecidableEq

/-- An instance of the game, by its level and the objects that were created for it. -/
structure Instance (Setup : Type) where
  mChainData : ChainVoteData := {}
  mLevel : Level Setup := {}
  mLevelLoaded : Bool := false
  mGameStarted : Bool := false
  mPlayerSpawnpoints : List Setup := []
  mMarkers : Std.TreeMap UInt32 (Marker Setup) := {}
  /-- The calls of `ObjectManager::Create` since the object manager was made. -/
  created : List (Spawned Setup) := []

namespace Instance

/-- The markers of a set that have a noun, as `Markerset::GetMarkersByType` keeps them. -/
def markersByType (noun : String) (markers : List (Marker Setup)) : List (Marker Setup) :=
  markers.filter fun marker => marker.mNoun = hashId (ascii noun)

/-- The markers of a set of the level, and none if there is no such set. -/
def markers (level : Level Setup) (levelName : Bytes) (set : String) : List (Marker Setup) :=
  (level.getMarkerset (levelName ++ ascii set)).getD []

/-- The points where players start, from the design of the level or else from its spawners. -/
def spawnpoints (level : Level Setup) (levelName : Bytes) : List Setup :=
  let design := markersByType "CameraSpawnPoint.Noun" (markers level levelName "_design.Markerset")
  let spawners :=
    markersByType "CameraSpawnPoint.Noun" (markers level levelName "_design_spawners.Markerset")
  (if design ≠ [] then design else spawners).map Marker.mSetup

/-- The names of the enemies that a level is loaded with. -/
def enemyNames (config : LevelConfig) : List Bytes :=
  (List.range 3).flatMap fun index => [config.getMinion index, config.getSpecial index]

/-- `Instance::LoadLevel`, which uses the noun of each enemy that has a name. -/
def loadLevel (data : ServerData Setup) (game : Instance Setup) : Option (Instance Setup) :=
  if game.mLevelLoaded then some game
  else
    let levelName := game.mChainData.getName
    match Level.load data levelName with
    | none => some game
    | some level =>
      let config := if game.mChainData.mCompletedLevel then level.mConfig else level.mFirstTimeConfig
      if ∀ name ∈ enemyNames config, name ≠ [] → data.noun (hashId name) then
        some
          { game with
            mLevel := level
            mLevelLoaded := true
            mChainData := (List.range 3).foldl (fun chain index =>
              (chain.setEnemyNoun (config.getMinion index) index).setEnemyNoun
                (config.getSpecial index) (index + 3)) game.mChainData
            mPlayerSpawnpoints := game.mPlayerSpawnpoints ++ spawnpoints level levelName }
      else none

/-- The nouns of the markers where enemies are put. -/
def enemySpawnpoints : List UInt32 :=
  ["SpawnPoint_Director.Noun", "SpawnPoint_DirectorA.Noun", "SpawnPoint_DirectorB.Noun",
    "SpawnPoint_DirectorWanderer.Noun"].map fun noun => hashId (ascii noun)

/-- The sets of markers that enemies wander at, each one under the first name that there is. -/
def wanderers (level : Level Setup) (levelName : Bytes) : Fin 4 → Option (List (Marker Setup))
  | 0 => level.getMarkerset (levelName ++ ascii "_AI_Wander.Markerset")
  | 1 => (level.getMarkerset (levelName ++ ascii "_AI_WandererA.Markerset")).or
    (level.getMarkerset (levelName ++ ascii "_AI_Wanderers_A.Markerset"))
  | 2 => (level.getMarkerset (levelName ++ ascii "_AI_WandererB.Markerset")).or
    (level.getMarkerset (levelName ++ ascii "_AI_Wanderers_B.Markerset"))
  | 3 => (level.getMarkerset (levelName ++ ascii "_AI_WandererC.Markerset")).or
    (level.getMarkerset (levelName ++ ascii "_AI_Wanderers_C.Markerset"))

/-- The first marker of such a set, behind which the loop over its markers is left. -/
def wanderer (level : Level Setup) (levelName : Bytes) (set : Fin 4) : Option (Marker Setup) :=
  (wanderers level levelName set).bind List.head?

/-- The markers that are filed when a player starts, in this order. -/
def filed (level : Level Setup) (levelName : Bytes) : List (Marker Setup) :=
  markers level levelName "_design.Markerset" ++ markers level levelName "_design_spawners.Markerset" ++
    (List.finRange 4).filterMap (wanderer level levelName)

/-- The objects that are created when a player starts, with the draws of the enemies. -/
def population (level : Level Setup) (levelName : Bytes) (enemyNouns : Fin 6 → UInt32)
    (draws : Fin 4 → Fin 6) : List (Spawned Setup) :=
  let obelisks := markers level levelName "_obelisk_1.Markerset"
  let design := markers level levelName "_design.Markerset" ++
    markers level levelName "_design_spawners.Markerset"
  (markersByType "prefab_health_obelisk.Noun" obelisks ++
      markersByType "prefab_boss_obelisk.Noun" obelisks ++
      design.filter Marker.mTeleporterData).map Spawned.marker ++
    (List.finRange 4).filterMap fun set =>
      ((wanderer level levelName set).filter fun marker => marker.mNoun ∈ enemySpawnpoints).map
        (Spawned.enemy (enemyNouns (draws set)))

/--
`Instance::OnPlayerStart`, by what becomes of the level.

A character is put at the point of its player, which was never set if there are fewer points.
-/
def onPlayerStart (data : ServerData Setup) (game : Instance Setup) (playerId : UInt8)
    (hasCharacters : Bool) (draws : Fin 4 → Fin 6) : Option (Instance Setup) := do
  let game ← game.loadLevel data
  let game :=
    if game.mLevelLoaded then
      let levelName := game.mChainData.getName
      { game with
        mGameStarted := true
        mMarkers := (filed game.mLevel levelName).foldl
          (fun markers marker => markers.insert marker.mId marker) game.mMarkers
        created := game.created ++
          population game.mLevel levelName game.mChainData.mEnemyNouns draws }
    else { game with mGameStarted := false }
  if hasCharacters ∧ game.mPlayerSpawnpoints.length ≤ playerId.toNat then none else some game

/-- What happens to the level of a game. -/
inductive Input where
  /-- `Instance::Start`, which makes a new object manager. -/
  | start
  | playerStart (playerId : UInt8) (hasCharacters : Bool) (draws : Fin 4 → Fin 6)
  /-- `Instance::BeamOut`, of which only the chain data matter here. -/
  | beamOut

def step (data : ServerData Setup) (game : Instance Setup) : Input → Option (Instance Setup)
  | .start => some { game with created := [] }
  | .playerStart playerId hasCharacters draws => game.onPlayerStart data playerId hasCharacters draws
  | .beamOut => some { game with mChainData := game.mChainData.setCompleted true }

/-- What `GameManagerComponent::ResetDedicatedServer` does to a new game. -/
def resetDedicatedServer (data : ServerData Setup) (levelId : UInt32) : Option (Instance Setup) :=
  let game : Instance Setup := {}
  { game with mChainData := (game.mChainData.setLevelByIndex levelId).setCompleted false }.loadLevel data

/-- A game from its creation on. -/
def run (data : ServerData Setup) (levelId : UInt32) (inputs : List Input) : Option (Instance Setup) :=
  (resetDedicatedServer data levelId).bind fun game => inputs.foldlM (step data) game

end Instance

end Recap.Game.Levels
