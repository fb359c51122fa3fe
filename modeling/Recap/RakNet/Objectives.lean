import Recap.Game.Catalyst
import Recap.RakNet.Integers

/-! The objectives of a level, and the messages that tell them. -/

namespace Recap.RakNet

open Recap.Game (hashId)

inductive ObjectiveMedal where
  | inProgress | failed | bronze | silver | gold | unknown
deriving DecidableEq

/-- The number of a medal, as the enumeration counts them. -/
def ObjectiveMedal.code : ObjectiveMedal → BitVec 32
  | .inProgress => 0
  | .failed => 1
  | .bronze => 2
  | .silver => 3
  | .gold => 4
  | .unknown => 5

/-- An objective, without its description, which is not sent. -/
structure Objective where
  id : BitVec 32 := 0
  value : BitVec 32 := 0
  medal : ObjectiveMedal := .inProgress
deriving DecidableEq

abbrev uint8 : IntegralType := .integer false .one

abbrev uint32 : IntegralType := .integer false .four

section Messages

variable (layout : (width : Nat) → BitLayout width)

/-- Eight bytes over and over, which stand where a description could. -/
def writeDebugData (stream : BitStream) (length : Nat) : BitStream :=
  let bytes : List (BitVec 8) := [0x01, 0x23, 0x45, 0x67, 0x89, 0xAB, 0xCD, 0xEF]
  (List.range length).foldl
    (fun stream index =>
      IntegralType.write layout stream uint8 (bytes[index &&& 7]?.getD (0 : BitVec 8))) stream

/-- The size of an objective, in bytes. -/
def objectiveSize : Nat := 4 + 4 + 0x30

/--
`Objective::WriteTo`, which goes on behind the objective by its size.

The size is a number of bytes, but the write offset counts bits.
-/
def Objective.writeTo (objective : Objective) (stream : BitStream) : BitStream :=
  let writeOffset := stream.writeOffset
  let stream := stream.setWriteOffset writeOffset
  let stream := IntegralType.write layout stream uint32 objective.id
  let stream := IntegralType.write layout stream uint32 objective.value
  let stream := writeDebugData layout stream 0x40
  stream.setWriteOffset (writeOffset + objectiveSize)

/-- The objectives that a message tells, as their number is sent in a byte. -/
def told (objectives : List Objective) : List Objective :=
  objectives.take (BitVec.ofNat 8 objectives.length).toNat

/-- A message up to its objectives, in memory that holds anything. -/
def objectivesHeader (memory : Nat → Bool) (packet : BitVec 8) (objectives : List Objective) :
    BitStream :=
  let outStream : BitStream := { data := memory, writeOffset := 0 }
  let outStream := outStream.writeBits ((layout 8).bits packet)
  IntegralType.write layout outStream uint8 (BitVec.ofNat 8 objectives.length)

/-- `SendObjectivesInitForLevel` -/
def objectivesInitForLevel (memory : Nat → Bool) (objectives : List Objective) : BitStream :=
  (told objectives).foldl (fun stream objective => objective.writeTo layout stream)
    (objectivesHeader layout memory 0xB7 objectives)

/-! ### What is left of an objective in the message -/

/-- The seven bytes that the size leaves of an objective: its id and all but the end of its value. -/
def Objective.record (objective : Objective) : List Bool :=
  IntegralType.encode layout uint32 objective.id ++
    (IntegralType.encode layout uint32 objective.value).take 24

@[simp] theorem Objective.length_record (objective : Objective) :
    (objective.record layout).length = objectiveSize := by
  have id := IntegralType.length_encode layout uint32 objective.id
  have value := IntegralType.length_encode layout uint32 objective.value
  unfold Objective.record
  rw [List.length_append, List.length_take, id, value]
  rfl

@[simp] theorem Objective.writeTo_writeOffset (objective : Objective) (stream : BitStream) :
    (objective.writeTo layout stream).writeOffset = stream.writeOffset + objectiveSize := rfl

/-- All writes of an objective are one, of which the beginning stays. -/
theorem Objective.slice_writeTo (objective : Objective) (stream : BitStream) :
    (objective.writeTo layout stream).slice stream.writeOffset objectiveSize =
      objective.record layout := by
  -- The id and the value already take more bits than the size counts.
  have id := IntegralType.length_encode layout uint32 objective.id
  have value := IntegralType.length_encode layout uint32 objective.value
  have enough : objectiveSize ≤ (IntegralType.encode layout uint32 objective.id).length +
      (IntegralType.encode layout uint32 objective.value).length := by
    rw [id, value]
    decide
  unfold Objective.writeTo
  simp only [BitStream.slice_setWriteOffset, writeDebugData, IntegralType.write,
    BitStream.foldl_writeBits, BitStream.writeBits_writeBits]
  have cut := @BitStream.slice_writeBits_take (stream.setWriteOffset stream.writeOffset)
  rw [BitStream.setWriteOffset_writeOffset] at cut
  rw [cut _ (by simp only [List.length_append]; omega), List.take_append_of_le_length (by
    simp only [List.length_append]; omega), List.take_append, id, List.take_of_length_le (by
    rw [id]; decide)]
  rfl

theorem Objective.slice_writeTo_before (objective : Objective) {stream : BitStream}
    {start count : Nat} (before : start + count ≤ stream.writeOffset) :
    (objective.writeTo layout stream).slice start count = stream.slice start count := by
  unfold Objective.writeTo
  simp only [BitStream.slice_setWriteOffset, writeDebugData, IntegralType.write,
    BitStream.foldl_writeBits, BitStream.writeBits_writeBits]
  exact (stream.setWriteOffset stream.writeOffset).slice_writeBits_beside _ (.inl before)

/-- Objectives in a row end where their sizes end. -/
theorem foldl_writeTo_writeOffset (objectives : List Objective) (stream : BitStream) :
    (objectives.foldl (fun stream objective => objective.writeTo layout stream) stream).writeOffset =
      stream.writeOffset + objectiveSize * objectives.length := by
  -- The induction follows the objectives, each of which moves on by its size.
  induction objectives generalizing stream with
  | nil => rfl
  | cons objective later ih =>
    rw [List.foldl_cons, ih, Objective.writeTo_writeOffset, List.length_cons]
    ring

/-- Objectives in a row are their records in a row. -/
theorem slice_foldl_writeTo (objectives : List Objective) (stream : BitStream) :
    (objectives.foldl (fun stream objective => objective.writeTo layout stream) stream).slice 0
        (stream.writeOffset + objectiveSize * objectives.length) =
      stream.slice 0 stream.writeOffset ++ objectives.flatMap (Objective.record layout) := by
  induction objectives generalizing stream with
  | nil => simp
  | cons objective later ih =>
    -- The first objective is a record behind what was there before.
    have first : (objective.writeTo layout stream).slice 0 (stream.writeOffset + objectiveSize) =
        stream.slice 0 stream.writeOffset ++ objective.record layout := by
      rw [← BitStream.slice_append, Nat.zero_add, objective.slice_writeTo layout,
        objective.slice_writeTo_before layout (by omega)]
    have rest := ih (objective.writeTo layout stream)
    rw [Objective.writeTo_writeOffset, first] at rest
    rw [List.foldl_cons, List.length_cons, List.flatMap_cons, ← List.append_assoc, ← rest]
    congr 1
    ring

@[simp] theorem objectivesHeader_writeOffset (memory : Nat → Bool) (packet : BitVec 8)
    (objectives : List Objective) :
    (objectivesHeader layout memory packet objectives).writeOffset = 16 := by
  unfold objectivesHeader
  rw [IntegralType.write_writeOffset, BitStream.writeBits_writeOffset, (layout 8).length_bits]
  rfl

theorem objectivesInitForLevel_writeOffset (memory : Nat → Bool) (objectives : List Objective) :
    (objectivesInitForLevel layout memory objectives).writeOffset =
      16 + objectiveSize * (told objectives).length := by
  unfold objectivesInitForLevel
  rw [foldl_writeTo_writeOffset, objectivesHeader_writeOffset]

/-- Seven bytes of each objective are sent, behind the packet and the number of objectives. -/
theorem objectivesInitForLevel_sent (memory : Nat → Bool) (objectives : List Objective) :
    (objectivesInitForLevel layout memory objectives).slice 0
        (objectivesInitForLevel layout memory objectives).writeOffset =
      (layout 8).bits 0xB7 ++
        (IntegralType.encode layout uint8 (BitVec.ofNat 8 objectives.length) ++
          (told objectives).flatMap (Objective.record layout)) := by
  -- The header and the records of the objectives lie next to each other.
  have header : (objectivesHeader layout memory 0xB7 objectives).slice 0 16 =
      (layout 8).bits 0xB7 ++ IntegralType.encode layout uint8 (BitVec.ofNat 8 objectives.length) := by
    unfold objectivesHeader IntegralType.write
    rw [BitStream.writeBits_writeBits]
    have written := BitStream.slice_writeBits { data := memory, writeOffset := 0 } ((layout 8).bits 0xB7 ++
      IntegralType.encode layout uint8 (BitVec.ofNat 8 objectives.length))
    rwa [List.length_append, (layout 8).length_bits, IntegralType.length_encode] at written
  have body := slice_foldl_writeTo layout (told objectives)
    (objectivesHeader layout memory 0xB7 objectives)
  rw [objectivesHeader_writeOffset, header, List.append_assoc] at body
  rw [objectivesInitForLevel_writeOffset]
  exact body

theorem length_told (objectives : List Objective) :
    (told objectives).length = objectives.length % 256 := by
  have within := Nat.mod_le objectives.length 256
  rw [told, List.length_take, BitVec.toNat_ofNat]
  exact Nat.min_eq_left within

/--
What a client would find in the message: the number of objectives, and an id and a value in each
of as many records, which have their whole size.
-/
structure LaidOut (sent : BitStream) (objectives : List Objective) : Prop where
  count : (IntegralType.read layout sent 8 uint8).toNat = objectives.length
  whole : ∀ index < objectives.length, 8 * (2 + objectiveSize * (index + 1)) ≤ sent.writeOffset
  id : ∀ index (within : index < objectives.length),
    IntegralType.read layout sent (8 * (2 + objectiveSize * index)) uint32 = objectives[index].id
  value : ∀ index (within : index < objectives.length),
    IntegralType.read layout sent (8 * (2 + objectiveSize * index + 4)) uint32 =
      objectives[index].value

/-- The message is laid out as it should be exactly when there is no objective to tell. -/
theorem laidOut_iff (memory : Nat → Bool) (objectives : List Objective) :
    LaidOut layout (objectivesInitForLevel layout memory objectives) objectives ↔ objectives = [] := by
  constructor
  · intro laidOut
    by_contra some_
    have positive := List.length_pos_iff.mpr some_
    -- The last record would end far behind the message.
    have last := laidOut.whole (objectives.length - 1) (by omega)
    have less := Nat.mod_le objectives.length 256
    have size : objectiveSize = 56 := rfl
    rw [objectivesInitForLevel_writeOffset, length_told, size] at last
    omega
  · rintro rfl
    refine ⟨?_, by simp, by simp, by simp⟩
    -- Without records, the message is its header.
    have read := (IntegralType.read_write_iff layout (BitStream.writeBits { data := memory, writeOffset := 0 }
      ((layout 8).bits 0xB7)) uint8 (0 : BitVec 8)).mpr nofun
    rw [BitStream.writeBits_writeOffset, (layout 8).length_bits] at read
    exact congrArg BitVec.toNat read

/-- There are more values than beginnings of values. -/
theorem exists_same_beginning :
    ∃ value other : BitVec 32, value ≠ other ∧
      (IntegralType.encode layout uint32 value).take 24 =
        (IntegralType.encode layout uint32 other).take 24 := by
  -- There are 2^32 values, but only 2^24 beginnings of three bytes.
  let beginning (number : Fin (2 ^ 32)) : List.Vector Bool 24 :=
    ⟨(IntegralType.encode layout uint32 (BitVec.ofFin number)).take 24, by
      rw [List.length_take, IntegralType.length_encode]; rfl⟩
  have more : Fintype.card (List.Vector Bool 24) < Fintype.card (Fin (2 ^ 32)) := by
    rw [card_vector, Fintype.card_bool, Fintype.card_fin]
    decide
  obtain ⟨first, second, different, same⟩ := Fintype.exists_ne_map_eq_of_card_lt beginning more
  refine ⟨BitVec.ofFin first, BitVec.ofFin second, ?_, congrArg Subtype.val same⟩
  exact fun equal => different (congrArg BitVec.toFin equal)

/-- Whatever the layout, no reader can tell all values of the last objective apart. -/
theorem value_lost (memory : Nat → Bool) {front : List Objective} (few : front.length < 255)
    (id : BitVec 32) (medal : ObjectiveMedal) :
    ∃ value other, value ≠ other ∧
      let sent (value : BitVec 32) : BitStream :=
        objectivesInitForLevel layout memory (front ++ [⟨id, value, medal⟩])
      (sent value).slice 0 (sent value).writeOffset = (sent other).slice 0 (sent other).writeOffset := by
  obtain ⟨value, other, different, same⟩ := exists_same_beginning layout
  refine ⟨value, other, different, ?_⟩
  -- The two messages differ in nothing but the record of the last objective.
  have all (objective : Objective) : told (front ++ [objective]) = front ++ [objective] := by
    apply List.take_of_length_le
    rw [List.length_append, List.length_singleton, BitVec.toNat_ofNat, Nat.mod_eq_of_lt (by omega)]
  simp only [objectivesInitForLevel_sent, all, List.length_append, List.length_singleton,
    List.flatMap_append, List.flatMap_singleton, Objective.record, same]

end Messages

/-! ### The objectives of an instance -/

/-- The objectives that an instance is made with. -/
def instanceObjectives : List Objective :=
  [ascii "FinishLevelQuickly", ascii "DoDamageOften", ascii "TouchAllObelisks",
    ascii "DefeatAllMonsters", ascii "HugeDamage"].map fun objectiveName =>
      { id := (hashId objectiveName).toBitVec, value := 1, medal := .gold }

/-- A tick of the instance, in which the first objective counts the seconds. -/
def updateObjectives (objectives : List Objective) (seconds : BitVec 32) : List Objective :=
  objectives.modifyHead fun objective =>
    if objective.id = (hashId (ascii "FinishLevelQuickly")).toBitVec then
      { objective with value := seconds }
    else objective

/-- An instance has five objectives, however long it runs. -/
theorem length_objectives (ticks : List (BitVec 32)) :
    (ticks.foldl updateObjectives instanceObjectives).length = 5 := by
  -- A tick changes the first objective at most, and never their number.
  have kept : ∀ (ticks : List (BitVec 32)) (objectives : List Objective),
      (ticks.foldl updateObjectives objectives).length = objectives.length := by
    intro ticks
    induction ticks with
    | nil => exact fun objectives => rfl
    | cons seconds later ih =>
      intro objectives
      rw [List.foldl_cons, ih, updateObjectives, List.length_modifyHead]
  exact kept ticks instanceObjectives

/-- The five objectives of an instance do not fit into the message. -/
theorem not_laidOut :
    ¬ ∀ (layout : (width : Nat) → BitLayout width) (memory : Nat → Bool) (objectives : List Objective),
      LaidOut layout (objectivesInitForLevel layout memory objectives) objectives := by
  intro always
  have first := (always IntegralType.inOrder (fun _ => false) instanceObjectives).whole 0 (by decide)
  exact absurd first (by decide)

/-! ### The word of medals -/

/-- `<<` of an unsigned number of 32 bits, which is undefined for its width and more. -/
def shiftLeft (word : BitVec 32) (amount : Nat) : Option (BitVec 32) :=
  if amount < 32 then some (word <<< amount) else none

/-- Adds the medals of some objectives to the word, from an index on. -/
def packMedals (medals : BitVec 32) : Nat → List Objective → Option (BitVec 32)
  | _, [] => some medals
  | index, objective :: later => do
    let shifted ← shiftLeft objective.medal.code (8 * index)
    packMedals (medals ||| shifted) (index + 1) later

/-- The word that `SendObjectivesComplete` ends with. -/
def medalsWord (objectives : List Objective) : Option (BitVec 32) :=
  packMedals 0 0 (told objectives)

/-- `SendObjectivesComplete`, whose behaviour is undefined where that of a shift is. -/
def objectivesComplete (layout : (width : Nat) → BitLayout width) (memory : Nat → Bool)
    (objectives : List Objective) : Option BitStream :=
  (medalsWord objectives).map fun medals =>
    IntegralType.write layout
      ((told objectives).foldl (fun stream objective => objective.writeTo layout stream)
        (objectivesHeader layout memory 0xB9 objectives)) uint32 medals

/-- A byte of a word, if the word has it. -/
def wordByte (word : BitVec 32) (index : Nat) : Option (BitVec 8) :=
  if index < 4 then some (word.extractLsb' (8 * index) 8) else none

/-- The word is defined, and each of its bytes is the medal of one objective. -/
def MedalsKept (objectives : List Objective) : Prop :=
  ∃ word, medalsWord objectives = some word ∧ ∀ index (within : index < objectives.length),
    wordByte word index = some (objectives[index].medal.code.setWidth 8)

/-- A medal is a number of one byte. -/
theorem ObjectiveMedal.getLsbD_code (medal : ObjectiveMedal) {place : Nat} (above : 8 ≤ place) :
    medal.code.getLsbD place = false := by
  -- All codes are below six.
  have small : medal.code.toNat < 2 ^ 8 := by
    cases medal <;> decide
  rw [← BitVec.testBit_toNat]
  exact Nat.testBit_lt_two_pow (Nat.lt_of_lt_of_le small (Nat.pow_le_pow_right (by decide) above))

/-- A packed word has what it had before, and the medals from the index on. -/
theorem packMedals_eq {objectives : List Objective} (index : Nat) (medals : BitVec 32)
    (fits : index + objectives.length ≤ 4) :
    ∃ word, packMedals medals index objectives = some word ∧ ∀ place,
      word.getLsbD place = (medals.getLsbD place ||
        (decide (8 * index ≤ place) && ((objectives[place / 8 - index]?.map fun objective =>
          objective.medal.code.getLsbD (place % 8)).getD false))) := by
  -- The induction follows the objectives, whose bytes are filled from the index on.
  induction objectives generalizing index medals with
  | nil => exact ⟨medals, rfl, by simp⟩
  | cons objective later ih =>
    rw [List.length_cons] at fits
    obtain ⟨word, packed, bits⟩ := ih (index + 1)
      (medals ||| objective.medal.code <<< (8 * index)) (by omega)
    refine ⟨word, ?_, fun place => ?_⟩
    · have defined : shiftLeft objective.medal.code (8 * index) =
          some (objective.medal.code <<< (8 * index)) := if_pos (by omega)
      rw [packMedals, defined]
      exact packed
    · -- The medal of the first objective is in the byte of the index, and nowhere else.
      rw [bits, BitVec.getLsbD_or, BitVec.getLsbD_shiftLeft, Bool.or_assoc]
      congr 1
      rcases (by omega : place < 8 * index ∨ (8 * index ≤ place ∧ place < 8 * (index + 1)) ∨
        8 * (index + 1) ≤ place) with below | ⟨least, most⟩ | above
      · rw [decide_eq_true below, decide_eq_false (p := 8 * (index + 1) ≤ place) (by omega),
          decide_eq_false (p := 8 * index ≤ place) (by omega)]
        simp
      · rw [decide_eq_true (by omega : place < 32), decide_eq_false (p := place < 8 * index) (by omega),
          decide_eq_false (p := 8 * (index + 1) ≤ place) (by omega), decide_eq_true least,
          show place / 8 - index = 0 by omega, show place - 8 * index = place % 8 by omega]
        simp
      · rw [objective.medal.getLsbD_code (by omega), decide_eq_true above,
          decide_eq_true (p := 8 * index ≤ place) (by omega),
          show place / 8 - index = place / 8 - (index + 1) + 1 by omega, List.getElem?_cons_succ]
        simp

/-- A fifth objective has no byte in the word. -/
theorem MedalsKept.few {objectives : List Objective} (kept : MedalsKept objectives) :
    objectives.length ≤ 4 := by
  -- The medal of the fifth objective would need a fifth byte.
  obtain ⟨word, -, bytes⟩ := kept
  by_contra more
  have fifth := bytes 4 (by omega)
  rw [wordByte, if_neg (by omega)] at fifth
  cases fifth

/--
The medals are kept exactly when there are at most four objectives.

The medal of a fifth one would be shifted by the whole width of the word.
-/
theorem medalsKept_iff (objectives : List Objective) :
    MedalsKept objectives ↔ objectives.length ≤ 4 := by
  constructor
  · exact MedalsKept.few
  · intro few
    have all : told objectives = objectives := by
      apply List.take_of_length_le
      rw [BitVec.toNat_ofNat, Nat.mod_eq_of_lt (by omega)]
    obtain ⟨word, packed, bits⟩ := @packMedals_eq objectives 0 0 (by omega)
    refine ⟨word, by rw [medalsWord, all, packed], fun index within => ?_⟩
    rw [wordByte, if_pos (by omega)]
    congr 1
    apply BitVec.eq_of_getLsbD_eq
    intro place inside
    rw [BitVec.getLsbD_extractLsb', decide_eq_true inside, Bool.true_and, bits,
      BitVec.getLsbD_setWidth, decide_eq_true inside, show (8 * index + place) / 8 - 0 = index by omega,
      show (8 * index + place) % 8 = place by omega, List.getElem?_eq_getElem within]
    simp

/-- No instance ever has objectives whose medals are kept. -/
theorem never_medalsKept (ticks : List (BitVec 32)) :
    ¬ MedalsKept (ticks.foldl updateObjectives instanceObjectives) := by
  -- The five objectives stay five.
  intro kept
  have few := kept.few
  rw [length_objectives] at few
  exact absurd few (by decide)

/-- The word is undefined for the five objectives of an instance. -/
theorem not_medalsKept : ¬ ∀ objectives, MedalsKept objectives := by
  -- The shift for the last of the five is by 32.
  intro always
  obtain ⟨word, defined, -⟩ := always instanceObjectives
  have undefined : medalsWord instanceObjectives = none := rfl
  rw [undefined] at defined
  cases defined

end Recap.RakNet
