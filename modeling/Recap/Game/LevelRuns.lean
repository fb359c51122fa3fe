import Recap.Game.Levels

/-! What is in the level after any number of players have started, and which games go wrong. -/

namespace Recap.Game.Levels

variable {Setup : Type} {data : ServerData Setup}

/-- Of markers that are filed one after another, the last one of an id is kept. -/
theorem lookup_file (markers : List (Marker Setup)) (table : Std.TreeMap UInt32 (Marker Setup))
    (id : UInt32) :
    (markers.foldl (fun markers marker => markers.insert marker.mId marker) table)[id]? =
      (markers.reverse.find? fun marker => marker.mId = id).or table[id]? := by
  -- The markers behind the first one are filed over it.
  induction markers generalizing table with
  | nil => rfl
  | cons marker rest ih =>
    rw [List.foldl_cons, ih, List.reverse_cons, List.find?_append, Option.or_assoc,
      OrderedMap.lookup_insert]
    by_cases own : marker.mId = id <;> simp [own]

namespace ChainVoteData

@[simp] theorem getName_setCompleted (chain : ChainVoteData) (completed : Bool) :
    (chain.setCompleted completed).getName = chain.getName := rfl

@[simp] theorem getName_setEnemyNoun (chain : ChainVoteData) (nounStr : Bytes) (index : Nat) :
    (chain.setEnemyNoun nounStr index).getName = chain.getName := by
  unfold setEnemyNoun
  split <;> rfl

/-- The enemies of a level, as a configuration names them. -/
def setEnemies (chain : ChainVoteData) (config : LevelConfig) : ChainVoteData :=
  (List.range 3).foldl (fun chain index =>
    (chain.setEnemyNoun (config.getMinion index) index).setEnemyNoun
      (config.getSpecial index) (index + 3)) chain

@[simp] theorem getName_setEnemies (chain : ChainVoteData) (config : LevelConfig) :
    (chain.setEnemies config).getName = chain.getName := by
  simp [setEnemies, List.range_succ]

end ChainVoteData

namespace Instance

variable {levelId : UInt32} {game : Instance Setup}

/-- The level of a new game, if it has a file. -/
def levelOf (data : ServerData Setup) (levelId : UInt32) : Option (Level Setup) :=
  Level.load data (ChainVoteData.new levelId).getName

/-- The points for players, none of which there are without a file. -/
def pointsOf (data : ServerData Setup) (levelId : UInt32) : List Setup :=
  (levelOf data levelId).elim [] fun level => spawnpoints level (ChainVoteData.new levelId).getName

/-- The markers that each player who starts files. -/
def filedOf (data : ServerData Setup) (levelId : UInt32) : List (Marker Setup) :=
  (levelOf data levelId).elim [] fun level => filed level (ChainVoteData.new levelId).getName

/-- The objects that each player who starts creates, with the enemies of the first visit. -/
def populationOf (data : ServerData Setup) (levelId : UInt32) (draws : Fin 4 → Fin 6) :
    List (Spawned Setup) :=
  (levelOf data levelId).elim [] fun level =>
    population level (ChainVoteData.new levelId).getName
      ((ChainVoteData.new levelId).setEnemies level.mFirstTimeConfig).mEnemyNouns draws

/-- An enemy that the level names for the first visit is not known to the server. -/
def Unknown (data : ServerData Setup) (levelId : UInt32) : Prop :=
  ∃ level, levelOf data levelId = some level ∧
    ∃ name ∈ enemyNames level.mFirstTimeConfig, name ≠ [] ∧ data.noun (hashId name) = false

/-- A player with characters starts, for whom the level has no point. -/
def Stray (data : ServerData Setup) (levelId : UInt32) (input : Input) : Prop :=
  ∃ playerId draws, input = .playerStart playerId true draws ∧
    (pointsOf data levelId).length ≤ playerId.toNat

/-- The draws of the players who have started since the object manager was made. -/
def starts (inputs : List Input) : List (Fin 4 → Fin 6) :=
  inputs.foldl (fun before input =>
    match input with
    | .start => []
    | .playerStart _ _ draws => before ++ [draws]
    | .beamOut => before) []

/-- Whether a player has started. -/
def hasStarted (inputs : List Input) : Bool :=
  inputs.any fun input =>
    match input with
    | .playerStart _ _ _ => true
    | _ => false

/-- What a game has loaded, which stays as it is from its creation on. -/
structure Holds (data : ServerData Setup) (levelId : UInt32) (game : Instance Setup) : Prop where
  name : game.mChainData.getName = (ChainVoteData.new levelId).getName
  points : game.mPlayerSpawnpoints = pointsOf data levelId
  loaded : game.mLevelLoaded = (levelOf data levelId).isSome
  level : ∀ level, levelOf data levelId = some level → game.mLevel = level ∧
    game.mChainData.mEnemyNouns =
      ((ChainVoteData.new levelId).setEnemies level.mFirstTimeConfig).mEnemyNouns

/-- What has been created and filed by the players who have started. -/
structure Filled (data : ServerData Setup) (levelId : UInt32) (inputs : List Input)
    (game : Instance Setup) : Prop where
  created : game.created = (starts inputs).flatMap (populationOf data levelId)
  filed : ∀ id, game.mMarkers[id]? =
    if hasStarted inputs then (filedOf data levelId).reverse.find? fun marker => marker.mId = id
    else none

/-! ### One input -/

/-- A level that is loaded is not loaded again, and one that has no file is tried in vain. -/
theorem Holds.loadLevel (holds : Holds data levelId game) : game.loadLevel data = some game := by
  have loaded := holds.loaded
  unfold Instance.loadLevel
  split
  · rfl
  · rename_i missing
    have nothing : levelOf data levelId = none := by simpa [loaded] using missing
    have untaken : Level.load data game.mChainData.getName = none := by
      rw [holds.name]
      exact nothing
    simp only [untaken]

/-- A new game holds its level and is not filled yet, unless an enemy is unknown. -/
theorem resetDedicatedServer_cases (data : ServerData Setup) (levelId : UInt32) :
    (Unknown data levelId ∧ resetDedicatedServer data levelId = none) ∨
    (¬ Unknown data levelId ∧ ∃ game, resetDedicatedServer data levelId = some game ∧
      Holds data levelId game ∧ Filled data levelId [] game) := by
  have reset : resetDedicatedServer data levelId =
      ({ mChainData := .new levelId } : Instance Setup).loadLevel data := rfl
  rw [reset]
  unfold loadLevel
  rw [if_neg Bool.false_ne_true]
  cases found : levelOf data levelId with
  | none =>
    right
    have missing : Level.load data (ChainVoteData.new levelId).getName = none := found
    simp only [missing]
    refine ⟨?_, _, rfl, ⟨rfl, ?_, ?_, ?_⟩, ⟨rfl, fun _ => rfl⟩⟩
    · intro ⟨level, loaded, _⟩
      rw [found] at loaded
      cases loaded
    · simp [pointsOf, found]
    · simp [found]
    · intro level loaded
      rw [found] at loaded
      cases loaded
  | some level =>
    have there : Level.load data (ChainVoteData.new levelId).getName = some level := found
    have first : (ChainVoteData.new levelId).mCompletedLevel = false := rfl
    simp only [there, first, Bool.false_eq_true, if_false]
    by_cases known : ∀ name ∈ enemyNames level.mFirstTimeConfig, name ≠ [] → data.noun (hashId name)
    · right
      rw [if_pos known]
      refine ⟨?_, _, rfl, ⟨?_, ?_, ?_, ?_⟩, ⟨rfl, fun _ => rfl⟩⟩
      · intro ⟨other, loaded, name, member, some_, missing⟩
        obtain rfl := Option.some_inj.mp (found.symm.trans loaded)
        rw [known name member some_] at missing
        cases missing
      · exact ChainVoteData.getName_setEnemies _ _
      · simp [pointsOf, found]
      · simp [found]
      · intro other loaded
        obtain rfl := Option.some_inj.mp (found.symm.trans loaded)
        exact ⟨rfl, rfl⟩
    · left
      rw [if_neg known]
      push Not at known
      obtain ⟨name, member, some_, missing⟩ := known
      exact ⟨⟨level, found, name, member, some_, by simpa using missing⟩, rfl⟩

/-- What a player who starts does to the level, whether there is one or not. -/
theorem Holds.onPlayerStart (holds : Holds data levelId game) (playerId : UInt8) (hasCharacters : Bool)
    (draws : Fin 4 → Fin 6) :
    game.onPlayerStart data playerId hasCharacters draws =
      if hasCharacters ∧ (pointsOf data levelId).length ≤ playerId.toNat then none
      else some
        { game with
          mGameStarted := game.mLevelLoaded
          mMarkers := (filedOf data levelId).foldl
            (fun markers marker => markers.insert marker.mId marker) game.mMarkers
          created := game.created ++ populationOf data levelId draws } := by
  unfold Instance.onPlayerStart
  rw [holds.loadLevel]
  simp only [bind, Option.bind_some, holds.loaded, holds.name]
  cases found : levelOf data levelId with
  | none =>
    -- Without a level there is nothing to file and nothing to create.
    simp [filedOf, populationOf, found, holds.points]
  | some level =>
    obtain ⟨same, nouns⟩ := holds.level level found
    simp [filedOf, populationOf, found, holds.points, same, nouns]

/-- One more input: a stray player ends everything, and all others fill the level as they should. -/
theorem Holds.step_cases (holds : Holds data levelId game) {before : List Input}
    (full : Filled data levelId before game) (input : Input) :
    (Stray data levelId input ∧ game.step data input = none) ∨
    (¬ Stray data levelId input ∧ ∃ next, game.step data input = some next ∧
      Holds data levelId next ∧ Filled data levelId (before ++ [input]) next) := by
  cases input with
  | start =>
    right
    have fine : ¬ Stray data levelId .start := by
      intro ⟨_, _, same, _⟩
      cases same
    refine ⟨fine, _, rfl, ⟨holds.name, holds.points, holds.loaded, holds.level⟩, ⟨?_, ?_⟩⟩
    · simp [starts]
    · intro id
      simpa [hasStarted] using full.filed id
  | beamOut =>
    right
    have fine : ¬ Stray data levelId .beamOut := by
      intro ⟨_, _, same, _⟩
      cases same
    refine ⟨fine, _, rfl, ⟨holds.name, holds.points, holds.loaded, holds.level⟩, ⟨?_, ?_⟩⟩
    · simpa [starts] using full.created
    · intro id
      simpa [hasStarted] using full.filed id
  | playerStart playerId hasCharacters draws =>
    have started : game.step data (.playerStart playerId hasCharacters draws) = _ :=
      holds.onPlayerStart playerId hasCharacters draws
    by_cases stray : hasCharacters ∧ (pointsOf data levelId).length ≤ playerId.toNat
    · left
      rw [started, if_pos stray]
      obtain ⟨rfl, few⟩ := stray
      exact ⟨⟨playerId, draws, rfl, few⟩, rfl⟩
    · right
      rw [started, if_neg stray]
      refine ⟨?_, _, rfl, ⟨holds.name, holds.points, holds.loaded, holds.level⟩, ⟨?_, ?_⟩⟩
      · intro ⟨_, _, same, few⟩
        cases same
        exact stray ⟨rfl, few⟩
      · simp [starts, full.created]
      · intro id
        -- Whoever started before has filed the same markers, so that nothing changes.
        rw [lookup_file, full.filed id]
        cases (filedOf data levelId).reverse.find? fun marker => marker.mId = id <;>
          simp [hasStarted]

/-! ### A whole game -/

/-- A game goes on until a stray player starts, and it is filled as it should be up to there. -/
theorem Holds.foldlM_cases (inputs : List Input) (holds : Holds data levelId game)
    {before : List Input} (full : Filled data levelId before game) :
    ((∃ input ∈ inputs, Stray data levelId input) ∧ inputs.foldlM (step data) game = none) ∨
    ((∀ input ∈ inputs, ¬ Stray data levelId input) ∧
      ∃ last, inputs.foldlM (step data) game = some last ∧ Filled data levelId (before ++ inputs) last) := by
  induction inputs generalizing game before with
  | nil => exact .inr ⟨by simp, game, rfl, by simpa using full⟩
  | cons input rest ih =>
    rw [List.foldlM_cons]
    rcases holds.step_cases full input with ⟨stray, stops⟩ | ⟨fine, next, goes, held, filled⟩
    · left
      rw [stops]
      exact ⟨⟨input, List.mem_cons_self, stray⟩, rfl⟩
    · rw [goes]
      rcases ih held filled with ⟨⟨other, member, stray⟩, stops⟩ | ⟨others, last, ends, complete⟩
      · exact .inl ⟨⟨other, List.mem_cons_of_mem _ member, stray⟩, stops⟩
      · right
        refine ⟨List.forall_mem_cons.mpr ⟨fine, others⟩, last, ends, ?_⟩
        rwa [List.append_assoc] at complete

/--
A game goes wrong by an enemy that nobody knows, or by a player without a point to start at, and by
nothing else.
-/
theorem run_stops_iff (data : ServerData Setup) (levelId : UInt32) (inputs : List Input) :
    run data levelId inputs = none ↔
      Unknown data levelId ∨ ∃ input ∈ inputs, Stray data levelId input := by
  unfold run
  rcases resetDedicatedServer_cases data levelId with ⟨unknown, reset⟩ | ⟨known, game, reset, holds, full⟩
  · rw [reset]
    exact iff_of_true rfl (.inl unknown)
  · rw [reset, Option.bind_some]
    rcases holds.foldlM_cases inputs full with ⟨stray, stops⟩ | ⟨fine, last, ends, -⟩
    · exact iff_of_true stops (.inr stray)
    · rw [ends]
      refine iff_of_false nofun ?_
      rintro (unknown | ⟨input, member, stray⟩)
      · exact known unknown
      · exact fine input member stray

/--
Each player who starts creates all objects of the level once more, whoever has started before; what
is filed of the markers is the same from the first start on.
-/
theorem filled_of_run {inputs : List Input} {last : Instance Setup}
    (ran : run data levelId inputs = some last) : Filled data levelId inputs last := by
  unfold run at ran
  rcases resetDedicatedServer_cases data levelId with ⟨-, reset⟩ | ⟨-, game, reset, holds, full⟩
  · rw [reset] at ran
    cases ran
  · rw [reset, Option.bind_some] at ran
    rcases holds.foldlM_cases inputs full with ⟨-, stops⟩ | ⟨-, other, ends, complete⟩
    · rw [stops] at ran
      cases ran
    · obtain rfl := Option.some_inj.mp (ends.symm.trans ran)
      exact complete

/-- One level with one set of markers, of which the only one is a teleporter where players start. -/
def zelems : ServerData Nat where
  level := fun _ => some
    { markersets := [ascii "zelems_1_design.Markerset"], levelConfig := {}, firstTimeConfig := {} }
  markerset := fun _ => some
    [{ mId := 7, mNoun := hashId (ascii "CameraSpawnPoint.Noun"), mSetup := 3, mTeleporterData := true }]
  noun := fun _ => true

/-- A player who starts twice leaves two teleporters at the one marker. -/
theorem filled_of_run_twice :
    ∃ last, run zelems 1 [.playerStart 0 true fun _ => 0, .playerStart 0 true fun _ => 0] = some last ∧
      Filled zelems 1 [.playerStart 0 true fun _ => 0, .playerStart 0 true fun _ => 0] last ∧
      last.created.length = 2 := by
  have created : (run zelems 1 [.playerStart 0 true fun _ => 0, .playerStart 0 true fun _ => 0]).map
      (fun last => last.created.length) = some 2 := by decide
  obtain ⟨last, ran, two⟩ := Option.map_eq_some_iff.mp created
  exact ⟨last, ran, filled_of_run ran, two⟩

end Instance

end Recap.Game.Levels
