import Recap.Game.Characters
import Recap.Lib.Runs

/-! When no player leaves a character behind in the world. -/

namespace Recap.Game.Cast

open Recap.RakNet Recap.Runs

variable {Address : Type} [LinearOrder Address]

/-- An active object that a player controls. -/
def Live (s : Cast Address) (object : ObjectPtr) : Prop :=
  ∃ record, s.objects[object]? = some record ∧ record.active ∧ record.mbPlayerControlled

/-- A player that the instance still has. -/
def Current (s : Cast Address) (player : PlayerPtr) : Prop :=
  ∃ id : Int, s.server.players[id]? = some player

/-- Every active object that a player controls is a character of a current player. -/
def NoOrphans (s : Cast Address) : Prop :=
  ∀ object, s.Live object →
    ∃ player index, s.Current player ∧ s.mCharacterObjects player index = some object

/-- No slot of a player holds an active character. -/
def Vacant (s : Cast Address) (player : PlayerPtr) : Prop :=
  ∀ index object, s.mCharacterObjects player index = some object → ¬ s.Live object

/-- The number that a player has its objects controlled by. -/
def indexOf (s : Cast Address) (player : PlayerPtr) : UInt8 :=
  (s.server.indexOf player).getD 0xFF

/--
The inputs that leave no character behind.

A greeting or a removal comes only for a player without an active character, and so does the
start of a game, which has to be for a current player if it makes a character at all.
-/
def Allowed (s : Cast Address) : Input Address → Prop
  | .server (.helloPlayer address blazeId) =>
    ∀ user player, (s.server.getClient address).isSome →
      s.server.getUserById blazeId.toInt = some user → s.server.players[user.id]? = some player →
        s.Vacant player
  | .removePlayer id => ∀ player, s.server.players[id]? = some player → s.Vacant player
  | .prepareGameStart address user squadId hasId =>
    ∀ player squad, s.playerOf address = some player →
      ((s.server.getClient address).bind Client.user).isSome →
      user.getSquadById squadId = some squad →
        s.Vacant player ∧ ∀ index,
          (characterOf (user.getCreatureById (squad.mCreatureIds index))).mNounId ≠ 0 →
            hasId index → s.indexOf player ≠ 0xFF → s.Current player
  | _ => True

/-- What holds in every state: no two slots share an object, and those to come are empty. -/
structure Sound (s : Cast Address) : Prop where
  wellFormed : s.server.WellFormed
  real : ∀ player index object, s.mCharacterObjects player index = some object →
    object < s.objects.length
  apart : ∀ player index other index' object, s.mCharacterObjects player index = some object →
    s.mCharacterObjects other index' = some object → player = other ∧ index = index'
  fresh : ∀ player, s.server.allocated.length ≤ player → ∀ index,
    s.mCharacterObjects player index = none

theorem sound_initial : (initial : Cast Address).Sound where
  wellFormed := Server.wellFormed_initial
  real := fun _ _ _ holds => by cases holds
  apart := fun _ _ _ _ _ holds => by cases holds
  fresh := fun _ _ _ => rfl

/-! ### Players who come and go -/

/-- Whoever takes the place of a player leaves its characters behind. -/
theorem noOrphans_replace_iff {s : Cast Address} (sound : s.Sound) (owned : s.NoOrphans) (id : Int)
    {server : Server Address}
    (stays : ∀ other player, other ≠ id → s.server.players[other]? = some player →
      ∃ other' : Int, server.players[other']? = some player)
    (comes : ∀ (other : Int) player, server.players[other]? = some player →
      (other ≠ id ∧ s.server.players[other]? = some player) ∨
        ∀ index, s.mCharacterObjects player index = none) :
    ({ s with server := server } : Cast Address).NoOrphans ↔
      ∀ player, s.server.players[id]? = some player → s.Vacant player := by
  -- What the replaced player held is in nobody else's slots, since no two slots share an object.
  constructor
  · intro after player filed index object holds live
    obtain ⟨owner, slot, ⟨other, found⟩, held⟩ := after object live
    -- No other player has the object, and the one that had it is not there any more.
    obtain ⟨rfl, rfl⟩ := sound.apart _ _ _ _ _ holds held
    rcases comes other player found with ⟨elsewhere, before⟩ | empty
    · exact elsewhere (sound.wellFormed.player_unique before filed)
    · rw [empty] at held
      cases held
  · intro vacant object live
    obtain ⟨owner, slot, ⟨other, found⟩, held⟩ := owned object live
    by_cases same : other = id
    · subst same
      exact absurd live (vacant owner found slot object held)
    · exact ⟨owner, slot, stays other owner same found, held⟩

theorem noOrphans_removePlayer_iff {s : Cast Address} (sound : s.Sound) (owned : s.NoOrphans)
    (id : Int) : (s.step (.removePlayer id)).NoOrphans ↔ s.Allowed (.removePlayer id) := by
  -- Erasing a player files nobody anew, so only the first way to come is left.
  apply noOrphans_replace_iff sound owned id
  · intro other player elsewhere found
    refine ⟨other, ?_⟩
    unfold Server.removePlayer
    rw [OrderedMap.lookup_erase, if_neg fun same => elsewhere same.symm]
    exact found
  · intro other player found
    unfold Server.removePlayer at found
    rw [OrderedMap.lookup_erase] at found
    split at found
    · cases found
    · rename_i elsewhere
      exact Or.inl ⟨fun same => elsewhere same.symm, found⟩

/-- A greeting makes a player of the user anew. -/
theorem noOrphans_helloPlayer_iff {s : Cast Address} (sound : s.Sound) (owned : s.NoOrphans)
    (address : Address) (blazeId : BitVec 64) :
    (s.step (.server (.helloPlayer address blazeId))).NoOrphans ↔
      s.Allowed (.server (.helloPlayer address blazeId)) := by
  -- The greeting goes through only for a client that is there and a user that is logged in.
  show ({ s with server := s.server.onHelloPlayerRequest address blazeId } :
    Cast Address).NoOrphans ↔ _
  simp only [Allowed]
  cases present : s.server.getClient address with
  | none =>
    refine iff_of_true ?_ fun _ _ connected => by cases connected
    unfold Server.onHelloPlayerRequest
    rw [present]
    exact owned
  | some client =>
    obtain ⟨-, players, -⟩ := Server.onHelloPlayerRequest_frame present blazeId
    cases known : s.server.getUserById blazeId.toInt with
    | none =>
      refine iff_of_true ?_ fun _ _ _ found => by cases found
      rw [known] at players
      intro object live
      obtain ⟨player, index, ⟨id, filed⟩, held⟩ := owned object live
      exact ⟨player, index, ⟨id, by rwa [players]⟩, held⟩
    | some user =>
      rw [known] at players
      have lookup : ∀ id : Int,
          (s.server.onHelloPlayerRequest address blazeId).players[id]? =
            if user.id = id then some s.server.allocated.length else s.server.players[id]? := by
        intro id
        rw [players, Server.setUser_player]
      refine (noOrphans_replace_iff sound owned user.id ?_ ?_).trans ?_
      · intro other player elsewhere found
        exact ⟨other, by rw [lookup, if_neg fun same => elsewhere same.symm, found]⟩
      · intro other player found
        rw [lookup] at found
        split at found
        · -- The new player has no characters yet.
          obtain rfl := Option.some_inj.mp found
          exact Or.inr (sound.fresh _ (Nat.le_refl _))
        · rename_i elsewhere
          exact Or.inl ⟨fun same => elsewhere same.symm, found⟩
      · -- The user that is found is the only one that the greeting may be for.
        constructor
        · intro vacant other player _ same filed
          obtain rfl := Option.some_inj.mp same
          exact vacant player filed
        · exact fun vacant player filed => vacant user player rfl rfl filed

/-! ### Characters that are made and overwritten -/

section SetCharacter

variable {s : Cast Address} {player : PlayerPtr} {character : Character} {index : Fin 3}
  {hasId : Bool}

/-- A character with a noun is given an object, if there is an id for it. -/
def Makes (character : Character) (hasId : Bool) : Prop :=
  character.mNounId ≠ 0 ∧ hasId

instance : Decidable (Makes character hasId) :=
  inferInstanceAs (Decidable (_ ∧ _))

theorem setCharacter_eq (s : Cast Address) (player : PlayerPtr) (character : Character)
    (index : Fin 3) (hasId : Bool) :
    (s.setCharacter player character index hasId).server = s.server ∧
      (s.setCharacter player character index hasId).mCharacterObjects =
        Function.update s.mCharacterObjects player (Function.update (s.mCharacterObjects player)
          index (if Makes character hasId then some s.objects.length else none)) ∧
      (s.setCharacter player character index hasId).objects =
        if Makes character hasId then
          s.objects ++ [({ noun := character.mNounId } : CharacterObject).setPlayerIndex
            (s.indexOf player)]
        else s.objects := by
  -- The new object comes last, which is where its player is written to.
  have last : ∀ (objects : List CharacterObject) (record : CharacterObject)
      (change : CharacterObject → CharacterObject),
      (objects ++ [record]).modify objects.length change = objects ++ [change record] := by
    intro objects record change
    induction objects with
    | nil => rfl
    | cons first rest ih => exact congrArg (first :: ·) ih
  unfold setCharacter Makes create
  by_cases noun : character.mNounId ≠ 0
  · cases hasId with
    | true =>
      simp only [if_pos noun, if_true, and_true, last]
      exact ⟨trivial, trivial, rfl⟩
    | false =>
      simp only [if_pos noun, Bool.false_eq_true, if_false, and_false]
      exact ⟨trivial, trivial, trivial⟩
  · simp only [noun, false_and, if_false]
    exact ⟨trivial, trivial, trivial⟩

theorem setCharacter_slot (other : PlayerPtr) (slot : Fin 3) :
    (s.setCharacter player character index hasId).mCharacterObjects other slot =
      if other = player ∧ slot = index then
        if Makes character hasId then some s.objects.length else none
      else s.mCharacterObjects other slot := by
  -- One update lies within the other, so the player is compared before the index.
  rw [(setCharacter_eq s player character index hasId).2.1]
  by_cases whose : other = player
  · subst whose
    rw [Function.update_self]
    by_cases same : slot = index
    · subst same
      have here : other = other ∧ slot = slot := ⟨rfl, rfl⟩
      rw [Function.update_self, if_pos here]
    · rw [Function.update_of_ne same, if_neg fun both => same both.2]
  · rw [Function.update_of_ne whose, if_neg fun both => whose both.1]

/-- Objects that were there stay as they were. -/
theorem setCharacter_live {object : ObjectPtr} (real : object < s.objects.length) :
    (s.setCharacter player character index hasId).Live object ↔ s.Live object := by
  -- An object that is made goes behind the ones that were there.
  unfold Live
  rw [(setCharacter_eq s player character index hasId).2.2]
  split
  · rw [List.getElem?_append_left real]
  · exact Iff.rfl

/-- The object that is made is a live one unless the player has no number. -/
theorem setCharacter_live_new {object : ObjectPtr} (new : s.objects.length ≤ object) :
    (s.setCharacter player character index hasId).Live object ↔
      Makes character hasId ∧ s.indexOf player ≠ 0xFF ∧ object = s.objects.length := by
  -- Nothing lies behind the old objects unless a character has been made.
  unfold Live
  rw [(setCharacter_eq s player character index hasId).2.2]
  by_cases makes : Makes character hasId
  · rw [if_pos makes, List.getElem?_append_right new]
    constructor
    · intro live
      obtain ⟨record, found, -, controlled⟩ := live
      have within := (List.getElem?_eq_some_iff.mp found).1
      rw [List.length_singleton, Nat.lt_one_iff] at within
      have here : object = s.objects.length := Nat.le_antisymm (Nat.sub_eq_zero_iff_le.mp within) new
      subst here
      simp only [Nat.sub_self, List.getElem?_cons_zero, Option.some.injEq] at found
      subst found
      refine ⟨makes, fun none_ => ?_, rfl⟩
      simp [CharacterObject.setPlayerIndex, none_] at controlled
    · intro both
      obtain ⟨-, number, rfl⟩ := both
      refine ⟨_, by rw [Nat.sub_self]; rfl, rfl, ?_⟩
      -- A number below the last one counts as a player.
      have below : (s.indexOf player).toNat ≠ 255 := fun same =>
        number (UInt8.toNat_inj.mp same)
      have most := (s.indexOf player).toNat_lt
      exact decide_eq_true (UInt8.lt_iff_toNat_lt.mpr (by
        show (s.indexOf player).toNat < 255
        omega))
  · rw [if_neg makes]
    refine iff_of_false (fun live => ?_) fun both => makes both.1
    obtain ⟨record, found, -⟩ := live
    rw [List.getElem?_eq_none new] at found
    cases found

theorem Sound.setCharacter (sound : s.Sound) (known : player < s.server.allocated.length) :
    (s.setCharacter player character index hasId).Sound where
  wellFormed := by
    rw [(setCharacter_eq s player character index hasId).1]
    exact sound.wellFormed
  real := by
    intro other slot object holds
    have longer : s.objects.length ≤
        (s.setCharacter player character index hasId).objects.length := by
      rw [(setCharacter_eq s player character index hasId).2.2]
      split
      · simp
      · exact Nat.le_refl _
    rw [setCharacter_slot] at holds
    split at holds
    · -- Only the object that is made is put into the slot.
      split at holds
      · rename_i makes
        obtain rfl := Option.some_inj.mp holds
        rw [(setCharacter_eq s player character index hasId).2.2, if_pos makes]
        simp
      · cases holds
    · exact Nat.lt_of_lt_of_le (sound.real other slot object holds) longer
  apart := by
    intro one slot two slot' object holds holds'
    rw [setCharacter_slot] at holds holds'
    -- What is new is in no other slot, and the other slots keep apart.
    split at holds
    · rename_i here
      split at holds'
      · rename_i here'
        exact ⟨here.1.trans here'.1.symm, here.2.trans here'.2.symm⟩
      · have old := sound.real two slot' object holds'
        split at holds
        · obtain rfl := Option.some_inj.mp holds
          exact absurd old (Nat.lt_irrefl _)
        · cases holds
    · have old := sound.real one slot object holds
      split at holds'
      · split at holds'
        · obtain rfl := Option.some_inj.mp holds'
          exact absurd old (Nat.lt_irrefl _)
        · cases holds'
      · exact sound.apart one slot two slot' object holds holds'
  fresh := by
    intro other beyond slot
    rw [(setCharacter_eq s player character index hasId).1] at beyond
    have elsewhere : ¬ (other = player ∧ slot = index) := fun both =>
      Nat.not_lt.mpr beyond (both.1 ▸ known)
    rw [setCharacter_slot, if_neg elsewhere]
    exact sound.fresh other beyond slot

/-- A slot may be overwritten when no active character is in it, and for a current player. -/
theorem noOrphans_setCharacter_iff (sound : s.Sound) :
    (s.setCharacter player character index hasId).NoOrphans ↔
      s.NoOrphans ∧ (∀ object, s.mCharacterObjects player index = some object → ¬ s.Live object) ∧
        (Makes character hasId → s.indexOf player ≠ 0xFF → s.Current player) := by
  -- The slot loses what was in it, and gains an object that has to have a holder.
  have server := (setCharacter_eq s player character index hasId).1
  have current : ∀ other, (s.setCharacter player character index hasId).Current other ↔
      s.Current other := by
    intro other
    unfold Current
    rw [server]
  constructor
  · intro after
    -- Whoever holds an old object afterwards has held it before, in another slot.
    have held : ∀ object, s.Live object → ∃ other slot, s.Current other ∧
        s.mCharacterObjects other slot = some object ∧ ¬ (other = player ∧ slot = index) := by
      intro object live
      have real : object < s.objects.length := by
        obtain ⟨record, found, -⟩ := live
        exact (List.getElem?_eq_some_iff.mp found).1
      obtain ⟨other, slot, filed, holds⟩ := after object ((setCharacter_live real).mpr live)
      rw [setCharacter_slot] at holds
      split at holds
      · split at holds
        · obtain rfl := Option.some_inj.mp holds
          exact absurd real (Nat.lt_irrefl _)
        · cases holds
      · exact ⟨other, slot, (current other).mp filed, holds, ‹_›⟩
    refine ⟨fun object live => ?_, fun object holds live => ?_, fun makes number => ?_⟩
    · obtain ⟨other, slot, filed, holds, -⟩ := held object live
      exact ⟨other, slot, filed, holds⟩
    · obtain ⟨other, slot, -, holds', elsewhere⟩ := held object live
      have same := sound.apart player index other slot object holds holds'
      exact elsewhere ⟨same.1.symm, same.2.symm⟩
    · have live : (s.setCharacter player character index hasId).Live s.objects.length :=
        (setCharacter_live_new (Nat.le_refl _)).mpr ⟨makes, number, rfl⟩
      obtain ⟨other, slot, filed, holds⟩ := after s.objects.length live
      rw [setCharacter_slot] at holds
      split at holds
      · rename_i here
        rw [← here.1]
        exact (current other).mp filed
      · exact absurd (sound.real other slot _ holds) (Nat.lt_irrefl _)
  · intro both object live
    obtain ⟨owned, vacant, allowed⟩ := both
    by_cases real : object < s.objects.length
    · have before := (setCharacter_live real).mp live
      obtain ⟨other, slot, filed, holds⟩ := owned object before
      refine ⟨other, slot, (current other).mpr filed, ?_⟩
      rw [setCharacter_slot, if_neg]
      · exact holds
      · intro here
        rw [here.1, here.2] at holds
        exact vacant object holds before
    · obtain ⟨makes, number, rfl⟩ := (setCharacter_live_new (Nat.not_lt.mp real)).mp live
      refine ⟨player, index, (current player).mpr (allowed makes number), ?_⟩
      have here : player = player ∧ index = index := ⟨rfl, rfl⟩
      rw [setCharacter_slot, if_pos here, if_pos makes]

end SetCharacter

/-! ### Runs -/

/-- Slots are overwritten one by one, and each of them has to be vacant. -/
theorem noOrphans_setCharacters_iff {player : PlayerPtr} (characters : Fin 3 → Character)
    (hasId : Fin 3 → Bool) {indices : List (Fin 3)} (once : indices.Nodup) {s : Cast Address}
    (sound : s.Sound) (known : player < s.server.allocated.length) :
    let last := indices.foldl
      (fun s index => s.setCharacter player (characters index) index (hasId index)) s
    last.Sound ∧ (last.NoOrphans ↔
      s.NoOrphans ∧
        (∀ index ∈ indices, ∀ object, s.mCharacterObjects player index = some object →
          ¬ s.Live object) ∧
        ∀ index ∈ indices, Makes (characters index) (hasId index) → s.indexOf player ≠ 0xFF →
          s.Current player) := by
  -- The slots are done in order, and what the first one writes touches none of the others.
  induction indices generalizing s with
  | nil => simpa using sound
  | cons index rest ih =>
    obtain ⟨apart, once⟩ := List.nodup_cons.mp once
    generalize next_eq : s.setCharacter player (characters index) index (hasId index) = next
    have server : next.server = s.server := by
      rw [← next_eq]
      exact (setCharacter_eq s player (characters index) index (hasId index)).1
    have sound' : next.Sound := next_eq ▸ sound.setCharacter known
    obtain ⟨sound'', rest_iff⟩ := ih once sound' (by rwa [server])
    have first_iff := @noOrphans_setCharacter_iff _ _ s player (characters index) index
      (hasId index) sound
    rw [next_eq] at first_iff
    -- The slots to come are what they were, and so are the objects in them.
    have later : (∀ other ∈ rest, ∀ object, next.mCharacterObjects player other = some object →
        ¬ next.Live object) ↔ ∀ other ∈ rest, ∀ object,
          s.mCharacterObjects player other = some object → ¬ s.Live object := by
      refine forall₂_congr fun other member => forall_congr' fun object => ?_
      have elsewhere : ¬ (player = player ∧ other = index) := by
        intro both
        rw [both.2] at member
        exact apart member
      rw [← next_eq, setCharacter_slot, if_neg elsewhere]
      refine forall_congr' fun holds => not_congr ?_
      exact setCharacter_live (sound.real player other object holds)
    have current : next.Current player ↔ s.Current player := by
      unfold Current
      rw [server]
    have number : next.indexOf player = s.indexOf player := by
      unfold indexOf
      rw [server]
    rw [List.foldl_cons, next_eq]
    refine ⟨sound'', ?_⟩
    rw [rest_iff, first_iff, later]
    simp only [current, number, List.forall_mem_cons, and_assoc, and_left_comm]

theorem noOrphans_prepareGameStart_iff {s : Cast Address} (sound : s.Sound) (owned : s.NoOrphans)
    (address : Address) (user : SporeNet.User) (squadId : UInt32) (hasId : Fin 3 → Bool) :
    (s.prepareGameStart address user squadId hasId).Sound ∧
      ((s.prepareGameStart address user squadId hasId).NoOrphans ↔
        s.Allowed (.prepareGameStart address user squadId hasId)) := by
  -- Each guard of the handler is a hypothesis of the condition, which is empty when it fails.
  simp only [Allowed]
  unfold prepareGameStart
  cases whose : s.playerOf address with
  | none => exact ⟨sound, iff_of_true owned fun _ _ same => by cases same⟩
  | some player =>
    cases logged : (s.server.getClient address).bind Client.user with
    | none => exact ⟨sound, iff_of_true owned fun _ _ _ missing => by cases missing⟩
    | some name =>
      cases found : user.getSquadById squadId with
      | none => exact ⟨sound, iff_of_true owned fun _ _ _ _ missing => by cases missing⟩
      | some squad =>
        have known : player < s.server.allocated.length := by
          obtain ⟨client, present, holds⟩ := Option.bind_eq_some_iff.mp whose
          exact sound.wellFormed.held address client player present holds
        -- The deck index is no part of what has to hold.
        have start : ({ s with
            mCurrentDeckIndex := Function.update s.mCurrentDeckIndex player 0 } :
              Cast Address).Sound := ⟨sound.wellFormed, sound.real, sound.apart, sound.fresh⟩
        obtain ⟨sound', all_iff⟩ := noOrphans_setCharacters_iff
          (fun index => characterOf (user.getCreatureById (squad.mCreatureIds index))) hasId
          (List.nodup_finRange 3) start known
        refine ⟨sound', all_iff.trans ?_⟩
        constructor
        · intro both other squad' same _ same'
          obtain rfl := Option.some_inj.mp same
          obtain rfl := Option.some_inj.mp same'
          refine ⟨fun index => both.2.1 index (List.mem_finRange index), fun index noun made => ?_⟩
          exact both.2.2 index (List.mem_finRange index) ⟨noun, made⟩
        · intro allowed
          obtain ⟨vacant, makes⟩ := allowed player squad rfl rfl rfl
          exact ⟨owned, fun index _ => vacant index, fun index _ made => makes index made.1 made.2⟩

/-- An object that is made for no player, or taken away, orphans nobody. -/
theorem Sound.of_objects {s : Cast Address} (sound : s.Sound) {objects : List CharacterObject}
    (longer : s.objects.length ≤ objects.length) :
    ({ s with objects := objects } : Cast Address).Sound where
  wellFormed := sound.wellFormed
  real := fun player index object holds =>
    Nat.lt_of_lt_of_le (sound.real player index object holds) longer
  apart := sound.apart
  fresh := sound.fresh

/-- A player who is there from now on has a place of its own, and nobody before it moves. -/
theorem Sound.of_server {s : Cast Address} (sound : s.Sound) {server : Server Address}
    (wellFormed : server.WellFormed)
    (longer : s.server.allocated.length ≤ server.allocated.length) :
    ({ s with server := server } : Cast Address).Sound where
  wellFormed := wellFormed
  real := sound.real
  apart := sound.apart
  fresh := fun player beyond => sound.fresh player (Nat.le_trans longer beyond)

/-- Players are only ever added. -/
theorem allocated_le_step (server : Server Address) (input : Server.Input Address) :
    server.allocated.length ≤ (server.step input).allocated.length := by
  -- Only a greeting makes a player, and it makes one more.
  cases input with
  | connect address =>
    simp only [Server.step, Server.addClient]
    split <;> exact Nat.le_refl _
  | helloPlayer address blazeId =>
    simp only [Server.step]
    cases present : server.getClient address with
    | none =>
      unfold Server.onHelloPlayerRequest
      rw [present]
    | some client =>
      rw [(Server.onHelloPlayerRequest_frame present blazeId).2.2]
      cases server.getUserById blazeId.toInt with
      | none => exact Nat.le_refl _
      | some user =>
        rw [Server.setUser_eq]
        simp
  | disconnect | login | logout => exact Nat.le_refl _

/-- Without a change of the players, nothing is orphaned unless something comes alive. -/
theorem NoOrphans.of_live {s next : Cast Address} (owned : s.NoOrphans)
    (players : next.server.players = s.server.players)
    (slots : next.mCharacterObjects = s.mCharacterObjects)
    (live : ∀ object, next.Live object → s.Live object) : next.NoOrphans := by
  -- What lives afterwards has lived before, and its slot is where it was.
  intro object lives
  obtain ⟨player, index, ⟨id, filed⟩, holds⟩ := owned object (live object lives)
  exact ⟨player, index, ⟨id, by rwa [players]⟩, by rwa [slots]⟩

/-- What a step does to the characters. -/
theorem noOrphans_step_iff {s : Cast Address} (sound : s.Sound) (owned : s.NoOrphans)
    (input : Input Address) :
    (s.step input).Sound ∧ ((s.step input).NoOrphans ↔ s.Allowed input) := by
  -- The inputs that change no player and no slot keep every character, and the others are above.
  cases input with
  | server input =>
    refine ⟨sound.of_server (sound.wellFormed.step input) (allocated_le_step s.server input), ?_⟩
    cases input with
    | helloPlayer address blazeId => exact noOrphans_helloPlayer_iff sound owned address blazeId
    | connect address =>
      refine iff_of_true (owned.of_live ?_ rfl fun _ => id) trivial
      simp only [step, Server.step, Server.addClient]
      split <;> rfl
    | disconnect | login | logout => exact iff_of_true (owned.of_live rfl rfl fun _ => id) trivial
  | prepareGameStart address user squadId hasId =>
    exact noOrphans_prepareGameStart_iff sound owned address user squadId hasId
  | swapCharacter player index =>
    exact ⟨⟨sound.wellFormed, sound.real, sound.apart, sound.fresh⟩,
      iff_of_true (owned.of_live rfl rfl fun _ => id) trivial⟩
  | removePlayer id =>
    refine ⟨sound.of_server ?_ (Nat.le_refl _), noOrphans_removePlayer_iff sound owned id⟩
    refine ⟨fun other player found => ?_, sound.wellFormed.held⟩
    -- Whoever is left has been filed before.
    unfold Server.removePlayer at found
    rw [OrderedMap.lookup_erase] at found
    split at found
    · cases found
    · exact sound.wellFormed.owner other player found
  | create noun hasId =>
    cases hasId with
    | false => exact ⟨sound, iff_of_true owned trivial⟩
    | true =>
      refine ⟨sound.of_objects (by simp), iff_of_true (owned.of_live rfl rfl ?_) trivial⟩
      intro object live
      obtain ⟨record, found, active, controlled⟩ := live
      simp only [step, create, if_true, List.getElem?_append] at found
      split at found
      · exact ⟨record, found, active, controlled⟩
      · -- What is made without a player is controlled by nobody.
        obtain rfl := List.mem_singleton.mp (List.mem_of_getElem? found)
        cases controlled
  | delete object =>
    refine ⟨sound.of_objects (by simp), iff_of_true (owned.of_live rfl rfl ?_) trivial⟩
    intro other live
    obtain ⟨record, found, active, controlled⟩ := live
    simp only [step, List.getElem?_modify] at found
    obtain ⟨before, old, rfl⟩ := Option.map_eq_some_iff.mp found
    -- The object that is taken away is no longer active.
    split at active
    · cases active
    · rename_i elsewhere
      rw [if_neg elsewhere] at controlled
      exact ⟨before, old, active, controlled⟩

/--
No character is left behind in exactly the runs whose inputs are all allowed.
-/
theorem noOrphans_iff_allowed (inputs : List (Input Address)) :
    Along (fun s input => some (step s input)) Allowed (initial : Cast Address) inputs ↔
      ∀ front, front <+: inputs →
        (final (fun s input => some (step s input)) initial front).NoOrphans := by
  -- The machine refuses nothing, so every front of the inputs is a run of its own.
  refine Along.iff_final ?_ (fun _ _ taken => by cases taken) ?_ inputs sound_initial ?_
  · intro s input next sound owned taken
    obtain rfl := Option.some_inj.mp taken
    exact (noOrphans_step_iff sound owned input).1
  · intro s input next sound owned taken
    obtain rfl := Option.some_inj.mp taken
    exact (noOrphans_step_iff sound owned input).2
  · intro object live
    obtain ⟨record, found, -⟩ := live
    cases found

/-- A user with one creature, which is in the first squad. -/
def single : SporeNet.User where
  mCreatures := [{ mTemplate := some ⟨[], 5⟩, mId := 1 }]
  mSquads := [{ mId := 1, mCreatureIds := fun index => if index = 0 then 1 else 0 }]

/-- A client prepares its game twice, and the first character is left behind. -/
theorem not_noOrphans : ¬ ∀ inputs : List (Input Nat),
    (final (fun s input => some (step s input)) initial inputs).NoOrphans := by
  -- Along the run up to the second start nothing is wrong, which makes every state of it sound.
  intro always
  have connected := (noOrphans_step_iff sound_initial (always []) (.server (.connect 0))).1
  have logged := (noOrphans_step_iff connected (always [.server (.connect 0)])
    (.server (.login "mail" 7))).1
  have greeted := (noOrphans_step_iff logged (always [.server (.connect 0),
    .server (.login "mail" 7)]) (.server (.helloPlayer 0 7))).1
  have prepared := (noOrphans_step_iff greeted (always [.server (.connect 0),
    .server (.login "mail" 7), .server (.helloPlayer 0 7)])
    (.prepareGameStart 0 single 1 fun _ => true)).1
  have allowed := (noOrphans_step_iff prepared (always [.server (.connect 0),
    .server (.login "mail" 7), .server (.helloPlayer 0 7),
    .prepareGameStart 0 single 1 fun _ => true])
    (.prepareGameStart 0 single 1 fun _ => true)).2.mp (always [.server (.connect 0),
      .server (.login "mail" 7), .server (.helloPlayer 0 7),
      .prepareGameStart 0 single 1 fun _ => true, .prepareGameStart 0 single 1 fun _ => true])
  -- The first character is in its slot, and active.
  have vacant := (allowed 0 _ (by decide) (by decide) rfl).1
  exact vacant 0 0 (by decide) ⟨_, rfl, by decide, by decide⟩

end Recap.Game.Cast
