import Recap.Game.RefPack
import Recap.Lib.Window

/-! Decompression agrees with the byte-by-byte reading of a stream of commands. -/

namespace Recap.RefPack

/-- One command of a stream, in the terms of what it produces. -/
inductive Command where
  /-- A run of plain bytes, with control byte 224 to 251. -/
  | literal (plain : Bytes)
  /-- A copy with two control bytes. -/
  | short (plain : Bytes) (distance length : Nat)
  /-- A copy with three control bytes. -/
  | medium (plain : Bytes) (distance length : Nat)
  /-- A copy with four control bytes. -/
  | long (plain : Bytes) (distance length : Nat)
  /-- At most three plain bytes, with control byte 252 to 255. -/
  | last (plain : Bytes)
  deriving DecidableEq, Repr

namespace Command

/-- The plain bytes, the distance, and the length of a command, the last two zero without a copy. -/
def parts : Command → Bytes × Nat × Nat
  | literal plain | last plain => (plain, 0, 0)
  | short plain distance length | medium plain distance length | long plain distance length =>
    (plain, distance, length)

/-- The ranges that the bit fields of each layout can express. -/
def Valid : Command → Prop
  | literal plain => 4 ∣ plain.length ∧ 4 ≤ plain.length ∧ plain.length ≤ 112
  | short plain distance length =>
    plain.length ≤ 3 ∧ 1 ≤ distance ∧ distance ≤ 1024 ∧ 3 ≤ length ∧ length ≤ 10
  | medium plain distance length =>
    plain.length ≤ 3 ∧ 1 ≤ distance ∧ distance ≤ 16384 ∧ 4 ≤ length ∧ length ≤ 67
  | long plain distance length =>
    plain.length ≤ 3 ∧ 1 ≤ distance ∧ distance ≤ 131072 ∧ 5 ≤ length ∧ length ≤ 1028
  | last plain => plain.length ≤ 3

instance (command : Command) : Decidable command.Valid := by
  cases command <;> (unfold Valid; infer_instance)

/-- The control bytes of a command, as numbers. -/
def control : Command → List Nat
  | literal plain => [224 + (plain.length - 4) / 4]
  | short plain distance length =>
    [plain.length + 4 * (length - 3) + 32 * ((distance - 1) / 256), (distance - 1) % 256]
  | medium plain distance length =>
    [128 + (length - 4), 64 * plain.length + (distance - 1) / 256, (distance - 1) % 256]
  | long plain distance length =>
    [192 + plain.length + 4 * ((length - 5) / 256) + 16 * ((distance - 1) / 65536),
      (distance - 1) / 256 % 256, (distance - 1) % 256, (length - 5) % 256]
  | last plain => [252 + plain.length]

/-- The bytes of a command. -/
def bytes (command : Command) : Bytes :=
  command.control.map UInt8.ofNat ++ command.parts.1

/-- What is produced once a command has run: its plain bytes and then its copy, byte by byte. -/
def produce (command : Command) (produced : Bytes) : Bytes :=
  Window.copyBack command.parts.2.1 command.parts.2.2 (produced ++ command.parts.1)

/-- The distance of a command reaches back no further than the output, its plain bytes included. -/
def Reaches (command : Command) (produced : Bytes) : Prop :=
  command.parts.2.1 ≤ (produced ++ command.parts.1).length

instance (command : Command) (produced : Bytes) : Decidable (command.Reaches produced) :=
  inferInstanceAs (Decidable (_ ≤ _))

end Command

/-- What a list of commands produces after earlier output. -/
def interpret : List Command → Bytes → Bytes
  | [], produced => produced
  | command :: rest, produced => interpret rest (command.produce produced)

/-- Every command of a list is valid and reaches back into what is there when it runs. -/
def Sound : List Command → Bytes → Prop
  | [], _ => True
  | command :: rest, produced =>
    command.Valid ∧ command.Reaches produced ∧ Sound rest (command.produce produced)

instance decidableSound : ∀ commands produced, Decidable (Sound commands produced)
  | [], _ => isTrue trivial
  | command :: rest, produced =>
    let _ := decidableSound rest (command.produce produced)
    inferInstanceAs (Decidable (_ ∧ _ ∧ _))

/-- A stream: its type, an unused byte, the size of its output, and its commands. -/
def serialize (cType unused : UInt8) (commands : List Command) : Bytes :=
  let size := (interpret commands []).length
  [cType, unused, UInt8.ofNat (size / 65536), UInt8.ofNat (size / 256 % 256),
    UInt8.ofNat (size % 256)] ++ commands.flatMap Command.bytes

/-- A decoder whose output so far stands in front of bytes it has not touched yet. -/
def holding (pin : Nat) (produced slack : Bytes) : Decoder :=
  ⟨pin, produced.length, produced ++ slack⟩

private theorem byteAt_of_drop {input tail : Bytes} {pin : Nat} {byte : UInt8}
    (found : input.drop pin = byte :: tail) :
    byteAt input pin = byte.toNat ∧ input.drop (pin + 1) = tail := by
  have here : input[pin]? = some byte := by
    rw [← List.head?_drop, found, List.head?_cons]
  refine ⟨by simp [byteAt, List.getD, here], ?_⟩
  rw [← List.tail_drop, found, List.tail_cons]

private theorem length_of_drop {input bytes tail : Bytes} {pin : Nat}
    (found : input.drop pin = bytes ++ tail) (nonempty : 0 < bytes.length) :
    pin + bytes.length ≤ input.length := by
  have lengths := congrArg List.length found
  simp only [List.length_drop, List.length_append] at lengths
  omega

private theorem literal_bits : ∀ k < 28, ((224 + k) &&& 0x1F) <<< 2 = 4 * k := by decide

private theorem last_bits : ∀ p < 4, (252 + p) &&& 0x03 = p := by decide

private theorem short_bits : ∀ p < 4, ∀ l < 8, ∀ h < 4,
    (p + 4 * l + 32 * h) &&& 0x03 = p ∧ ((p + 4 * l + 32 * h) &&& 0x1C) >>> 2 = l ∧
      ((p + 4 * l + 32 * h) &&& 0x60) <<< 3 = 256 * h := by decide

private theorem medium_bits : ∀ p < 4, ∀ h < 64,
    (((64 * p + h) &&& 0xC0) >>> 6) &&& 0x03 = p ∧
      ((64 * p + h) &&& 0x3F) <<< 8 = 256 * h := by decide

private theorem medium_length_bits : ∀ l < 64, (128 + l) &&& 0x3F = l := by decide

private theorem long_bits : ∀ p < 4, ∀ l < 4, ∀ h < 2,
    (192 + p + 4 * l + 16 * h) &&& 0x03 = p ∧
      ((192 + p + 4 * l + 16 * h) &&& 0x0C) <<< 6 = 256 * l ∧
      ((192 + p + 4 * l + 16 * h) &&& 0x10) <<< 12 = 65536 * h := by decide

/-- The control bytes of a valid command unpack to the length, the copy, and the distance. -/
theorem readControl_eq {command : Command} (valid : command.Valid) {input tail : Bytes} {pin : Nat}
    (found : input.drop pin = command.bytes ++ tail) :
    readControl input pin =
      .ok (⟨command.parts.1.length, command.parts.2.2, command.parts.2.1⟩,
        pin + command.control.length) := by
  -- Each layout puts its numbers back together from disjoint bit fields.
  have short := length_of_drop found
  cases command with
  | literal plain =>
    obtain ⟨⟨k, fours⟩, least, most⟩ := valid
    simp only [Command.bytes, Command.control, Command.parts, List.map_cons, List.map_nil,
      List.cons_append, List.nil_append, List.length_cons] at found short ⊢
    obtain ⟨ctrl, -⟩ := byteAt_of_drop found
    rw [UInt8.toNat_ofNat_of_lt' (by change _ < 256; omega)] at ctrl
    have bits := literal_bits ((plain.length - 4) / 4) (by omega)
    simp only [readControl, ctrl, if_neg (show ¬ input.length ≤ pin by omega),
      if_neg (show ¬ 252 ≤ 224 + (plain.length - 4) / 4 by omega),
      if_pos (show 224 ≤ 224 + (plain.length - 4) / 4 by omega), bits]
    simp only [Except.ok.injEq, Prod.mk.injEq, Request.mk.injEq, List.length_nil, and_true]
    omega
  | last plain =>
    have few : plain.length ≤ 3 := valid
    simp only [Command.bytes, Command.control, Command.parts, List.map_cons, List.map_nil,
      List.cons_append, List.nil_append, List.length_cons] at found short ⊢
    obtain ⟨ctrl, -⟩ := byteAt_of_drop found
    rw [UInt8.toNat_ofNat_of_lt' (by change _ < 256; omega)] at ctrl
    simp only [readControl, ctrl, if_neg (show ¬ input.length ≤ pin by omega),
      if_pos (show 252 ≤ 252 + plain.length by omega), last_bits plain.length (by omega)]
    rfl
  | short plain distance length =>
    obtain ⟨few, near, far, least, most⟩ := valid
    simp only [Command.bytes, Command.control, Command.parts, List.map_cons, List.map_nil,
      List.cons_append, List.nil_append, List.length_cons] at found short ⊢
    obtain ⟨ctrl, found⟩ := byteAt_of_drop found
    obtain ⟨low, -⟩ := byteAt_of_drop found
    rw [UInt8.toNat_ofNat_of_lt' (by change _ < 256; omega)] at ctrl low
    obtain ⟨plainBits, lengthBits, distanceBits⟩ :=
      short_bits plain.length (by omega) (length - 3) (by omega) ((distance - 1) / 256) (by omega)
    have small : plain.length + 4 * (length - 3) + 32 * ((distance - 1) / 256) < 128 := by omega
    simp only [readControl, ctrl, if_neg (show ¬ input.length ≤ pin by omega),
      if_neg (show ¬ 252 ≤ plain.length + 4 * (length - 3) + 32 * ((distance - 1) / 256) by omega),
      if_neg (show ¬ 224 ≤ plain.length + 4 * (length - 3) + 32 * ((distance - 1) / 256) by omega),
      if_neg (show ¬ 192 ≤ plain.length + 4 * (length - 3) + 32 * ((distance - 1) / 256) by omega),
      if_neg (show ¬ 128 ≤ plain.length + 4 * (length - 3) + 32 * ((distance - 1) / 256) by omega),
      if_neg (show ¬ input.length < pin + 1 + 1 by omega), low, plainBits, lengthBits, distanceBits]
    simp only [Except.ok.injEq, Prod.mk.injEq, Request.mk.injEq, List.length_nil, true_and,
      and_true]
    omega
  | medium plain distance length =>
    obtain ⟨few, near, far, least, most⟩ := valid
    simp only [Command.bytes, Command.control, Command.parts, List.map_cons, List.map_nil,
      List.cons_append, List.nil_append, List.length_cons] at found short ⊢
    obtain ⟨ctrl, found⟩ := byteAt_of_drop found
    obtain ⟨high, found⟩ := byteAt_of_drop found
    obtain ⟨low, -⟩ := byteAt_of_drop found
    rw [UInt8.toNat_ofNat_of_lt' (by change _ < 256; omega)] at ctrl high low
    have lengthBits := medium_length_bits (length - 4) (by omega)
    obtain ⟨plainBits, distanceBits⟩ :=
      medium_bits plain.length (by omega) ((distance - 1) / 256) (by omega)
    simp only [readControl, ctrl, if_neg (show ¬ input.length ≤ pin by omega),
      if_neg (show ¬ 252 ≤ 128 + (length - 4) by omega),
      if_neg (show ¬ 224 ≤ 128 + (length - 4) by omega),
      if_neg (show ¬ 192 ≤ 128 + (length - 4) by omega),
      if_pos (show 128 ≤ 128 + (length - 4) by omega),
      if_neg (show ¬ input.length < pin + 1 + 2 by omega), high, low, lengthBits, plainBits,
      distanceBits]
    simp only [Except.ok.injEq, Prod.mk.injEq, Request.mk.injEq, List.length_nil, true_and,
      and_true]
    omega
  | long plain distance length =>
    obtain ⟨few, near, far, least, most⟩ := valid
    simp only [Command.bytes, Command.control, Command.parts, List.map_cons, List.map_nil,
      List.cons_append, List.nil_append, List.length_cons] at found short ⊢
    obtain ⟨ctrl, found⟩ := byteAt_of_drop found
    obtain ⟨high, found⟩ := byteAt_of_drop found
    obtain ⟨low, found⟩ := byteAt_of_drop found
    obtain ⟨count, -⟩ := byteAt_of_drop found
    rw [UInt8.toNat_ofNat_of_lt' (by change _ < 256; omega)] at ctrl high low count
    obtain ⟨plainBits, lengthBits, distanceBits⟩ :=
      long_bits plain.length (by omega) ((length - 5) / 256) (by omega) ((distance - 1) / 65536)
        (by omega)
    have shifted : ((distance - 1) / 256 % 256) <<< 8 = 256 * ((distance - 1) / 256 % 256) := by
      rw [Nat.shiftLeft_eq]
      omega
    have large : 192 ≤ 192 + plain.length + 4 * ((length - 5) / 256) +
        16 * ((distance - 1) / 65536) := by omega
    have bounded : 192 + plain.length + 4 * ((length - 5) / 256) +
        16 * ((distance - 1) / 65536) < 224 := by omega
    simp only [readControl, ctrl, if_neg (show ¬ input.length ≤ pin by omega), if_pos large,
      if_neg (Nat.not_le.mpr (Nat.lt_trans bounded (by decide : 224 < 252))),
      if_neg (Nat.not_le.mpr bounded),
      if_neg (show ¬ input.length < pin + 1 + 3 by omega), high, low, count, plainBits, lengthBits,
      distanceBits, shifted]
    simp only [Except.ok.injEq, Prod.mk.injEq, Request.mk.injEq, List.length_nil, true_and,
      and_true]
    omega

/-- Writing right after what was produced uses up as much of the slack. -/
private theorem blit_holding (produced slack bytes : Bytes) :
    blit (produced ++ slack) produced.length bytes =
      produced ++ bytes ++ slack.drop bytes.length := by
  rw [blit, List.take_left, ← List.drop_drop, List.drop_left]

/-- A plain run appends the bytes that follow in the input. -/
theorem plainRun_eq {input plain tail : Bytes} (produced slack : Bytes) {decompSize pin : Nat}
    (found : input.drop pin = plain ++ tail) (room : produced.length + plain.length ≤ decompSize) :
    plainRun input decompSize plain.length (holding pin produced slack) =
      (holding (pin + plain.length) (produced ++ plain) (slack.drop plain.length), none) := by
  by_cases empty : plain.length = 0
  · rw [List.length_eq_zero_iff.mp empty]
    simp [plainRun]
  · -- A nonempty run lies inside the input and inside the output.
    have inside := length_of_drop found (by omega)
    have taken : (plain ++ tail).take plain.length = plain := List.take_left' rfl
    simp only [plainRun, holding, if_neg empty, if_neg (Nat.not_lt.mpr inside),
      if_neg (Nat.not_lt.mpr room), found, taken, blit_holding, List.length_append]

/-- The byte loop appends what a copy out of the window appends. -/
theorem copyLoop_eq {distance : Nat} (positive : 0 < distance) (count : Nat) {pin : Nat}
    {produced slack : Bytes} (inside : distance ≤ produced.length) (room : count ≤ slack.length) :
    copyLoop distance count (holding pin produced slack) =
      holding pin (Window.copyBack distance count produced) (slack.drop count) := by
  -- Each round overwrites the first byte of the slack with the byte at the distance.
  induction count generalizing produced slack with
  | zero => rfl
  | succ count ih =>
    obtain ⟨first, slack, rfl⟩ := List.exists_cons_of_length_pos (Nat.lt_of_lt_of_le (by omega) room)
    have source : produced.length - distance < produced.length := by omega
    have byte : (produced ++ first :: slack).getD (produced.length - distance) 0 =
        produced[produced.length - distance] := by
      simp [List.getD, List.getElem?_append_left source, List.getElem?_eq_getElem source]
    have taken : copyLoop distance (count + 1) (holding pin produced (first :: slack)) =
        copyLoop distance count
          (holding pin (produced ++ [produced[produced.length - distance]]) slack) := by
      rw [copyLoop]
      simp only [holding, byte, List.set_append_right _ _ (Nat.le_refl _), Nat.sub_self,
        List.set_cons_zero, List.length_append, List.length_singleton, List.append_assoc,
        List.singleton_append]
    rw [taken, ih (by simp only [List.length_append]; omega)
      (by simp only [List.length_cons] at room; omega), Window.copyBack,
      List.getElem?_eq_getElem source, Option.toList_some, List.drop_succ_cons]

/-- The block copy appends the same, where no copied byte is one that the copy itself produces. -/
theorem copyBlock_eq {distance count pin : Nat} {produced slack : Bytes}
    (inside : distance ≤ produced.length) (apart : count ≤ distance) :
    copyBlock distance count (holding pin produced slack) =
      holding pin (Window.copyBack distance count produced) (slack.drop count) := by
  have block : ((produced ++ slack).drop (produced.length - distance)).take count =
      (produced.drop (produced.length - distance)).take count := by
    rw [List.drop_append_of_le_length (by omega),
      List.take_append_of_le_length (by simp only [List.length_drop]; omega)]
  have whole : ((produced.drop (produced.length - distance)).take count).length = count := by
    simp only [List.length_take, List.length_drop]
    omega
  simp only [copyBlock, holding, block, blit_holding, whole,
    Window.copyBack_block count inside apart, List.length_append, List.append_assoc]

/-- The two ways of copying agree wherever the block copy could apply. -/
theorem copyBlock_eq_copyLoop {distance count pin : Nat} {produced slack : Bytes}
    (positive : 0 < distance) (inside : distance ≤ produced.length) (apart : count ≤ distance)
    (room : count ≤ slack.length) :
    copyBlock distance count (holding pin produced slack) =
      copyLoop distance count (holding pin produced slack) := by
  rw [copyBlock_eq inside apart, copyLoop_eq positive count inside room]

/-- A copy request that stays inside the output appends what a copy out of the window appends. -/
theorem copyRun_eq (request : Request) (pin : Nat) {decompSize : Nat} {produced slack : Bytes}
    (positive : request.numCopy ≠ 0 → 0 < request.copyOff)
    (inside : request.copyOff ≤ produced.length)
    (fits : produced.length + request.numCopy ≤ decompSize) (room : request.numCopy ≤ slack.length) :
    copyRun decompSize request (holding pin produced slack) =
      (holding pin (Window.copyBack request.copyOff request.numCopy produced)
        (slack.drop request.numCopy), none) := by
  unfold copyRun
  by_cases none_copied : request.numCopy = 0
  · rw [if_pos none_copied, none_copied]
    rfl
  · have size : (holding pin produced slack).size = produced.length := rfl
    rw [if_neg none_copied, size, if_neg (Nat.not_lt.mpr inside), if_neg (Nat.not_lt.mpr fits)]
    -- A copy longer than its distance reads bytes that it has itself produced.
    split
    · rw [copyLoop_eq (positive none_copied) _ inside room]
    · rename_i apart
      rw [copyBlock_eq inside (Nat.not_lt.mp apart)]

namespace Command

/-- A valid command that copies has a positive distance. -/
theorem Valid.positive {command : Command} (valid : command.Valid)
    (copies : command.parts.2.2 ≠ 0) : 0 < command.parts.2.1 := by
  cases command with
  | literal | last => exact absurd rfl copies
  | short | medium | long => exact valid.2.1

/-- A command produces its plain bytes and as many copied bytes as its length. -/
theorem produce_length {command : Command} {produced : Bytes} (valid : command.Valid)
    (reaches : command.Reaches produced) :
    (command.produce produced).length =
      produced.length + command.parts.1.length + command.parts.2.2 := by
  unfold produce
  by_cases copies : command.parts.2.2 = 0
  · simp [copies, Window.copyBack]
  · rw [Window.copyBack_length (valid.positive copies) _ reaches, List.length_append]

/-- A command keeps what was produced before it. -/
theorem produce_extends (command : Command) (produced : Bytes) :
    produced <+: command.produce produced :=
  (List.prefix_append produced command.parts.1).trans (Window.copyBack_extends _ _ _)

end Command

/-- A valid command that fits in the output runs as it reads. -/
theorem step_eq {command : Command} {input tail produced : Bytes} (slack : Bytes)
    {decompSize pin : Nat}
    (valid : command.Valid) (reaches : command.Reaches produced)
    (found : input.drop pin = command.bytes ++ tail)
    (fits : (command.produce produced).length ≤ decompSize)
    (room : (command.produce produced).length ≤ produced.length + slack.length) :
    step input decompSize (holding pin produced slack) =
      (holding (pin + command.bytes.length) (command.produce produced)
        (slack.drop ((command.produce produced).length - produced.length)), none) := by
  have length := Command.produce_length valid reaches
  have plain : input.drop (pin + command.control.length) = command.parts.1 ++ tail := by
    rw [← List.drop_drop, found, Command.bytes, List.append_assoc]
    exact List.drop_left' (List.length_map _)
  have copied : (produced ++ command.parts.1).length + command.parts.2.2 ≤ decompSize := by
    rw [List.length_append, ← length]
    exact fits
  -- The control bytes give the request, the plain run its first part, and the copy the rest.
  have unpacked := readControl_eq valid found
  have ran := plainRun_eq produced slack plain
    (show produced.length + command.parts.1.length ≤ decompSize by omega)
  have left : command.parts.2.2 ≤ (slack.drop command.parts.1.length).length := by
    simp only [List.length_drop]
    omega
  have ended := copyRun_eq ⟨command.parts.1.length, command.parts.2.2, command.parts.2.1⟩
    (pin + command.control.length + command.parts.1.length) valid.positive reaches copied left
  have start : (holding pin produced slack).pin = pin := rfl
  have moved : { holding pin produced slack with pin := pin + command.control.length } =
      holding (pin + command.control.length) produced slack := rfl
  simp only [step, start, unpacked, moved, ran, ended]
  simp only [Command.bytes, List.length_append, List.length_map, List.drop_drop, length,
    Nat.add_assoc, Nat.add_sub_cancel_left]
  rfl

/-- Output never shrinks, so nothing after a complete output produces anything. -/
theorem interpret_extends (commands : List Command) (produced : Bytes) :
    produced <+: interpret commands produced := by
  induction commands generalizing produced with
  | nil => exact List.prefix_refl produced
  | cons command rest ih => exact (command.produce_extends produced).trans (ih _)

/-- The main loop runs a sound list of commands as it reads, and stops when the output is complete. -/
theorem decompressLoop_eq {input : Bytes} (commands : List Command) {produced : Bytes}
    (slack : Bytes) (pin : Nat) (sound : Sound commands produced)
    (found : input.drop pin = commands.flatMap Command.bytes)
    (room : (interpret commands produced).length ≤ produced.length + slack.length) :
    ∃ last, decompressLoop input (interpret commands produced).length (holding pin produced slack) =
      (holding last (interpret commands produced)
        (slack.drop ((interpret commands produced).length - produced.length)), none) := by
  -- The induction is on the commands, each of which is one round unless the output is complete.
  induction commands generalizing produced slack pin with
  | nil =>
    refine ⟨pin, ?_⟩
    rw [interpret, Nat.sub_self, List.drop_zero]
    exact decompressLoop_complete (Nat.le_refl _)
  | cons command rest ih =>
    obtain ⟨valid, reaches, later⟩ := sound
    have whole := interpret_extends (command :: rest) produced
    have after := (interpret_extends rest (command.produce produced)).length_le
    have before := (command.produce_extends produced).length_le
    by_cases complete : produced.length < (interpret (command :: rest) produced).length
    · have taken := step_eq slack valid reaches
        (by rw [found, List.flatMap_cons]) after (Nat.le_trans after room)
      obtain ⟨last, ran⟩ := ih
        (slack.drop ((command.produce produced).length - produced.length))
        (pin + command.bytes.length) later (by rw [← List.drop_drop, found, List.flatMap_cons, List.drop_left])
        (by simp only [interpret, List.length_drop] at room ⊢; omega)
      refine ⟨last, ?_⟩
      simp only [interpret] at complete ⊢
      rw [decompressLoop_round complete taken, ran, List.drop_drop]
      congr 3
      omega
    · have same : interpret (command :: rest) produced = produced :=
        (whole.eq_of_length (by have := whole.length_le; omega)).symm
      refine ⟨pin, ?_⟩
      rw [same, Nat.sub_self, List.drop_zero]
      exact decompressLoop_complete (Nat.le_refl _)

/-- The header of a stream announces the size of its output. -/
private theorem headerSize_serialize (cType unused : UInt8) (commands : List Command)
    (small : (interpret commands []).length < 2 ^ 24) :
    headerSize (serialize cType unused commands) = (interpret commands []).length := by
  generalize sized : (interpret commands []).length = size at small
  have byte : ∀ value < 256, (UInt8.ofNat value).toNat = value :=
    fun value bound => UInt8.toNat_ofNat_of_lt' bound
  simp only [headerSize, byteAt, serialize, sized, List.getD, List.cons_append,
    List.getElem?_cons_succ, List.getElem?_cons_zero, Option.getD_some]
  rw [byte (size / 65536) (by omega), byte (size / 256 % 256) (by omega), byte (size % 256) (by omega),
    Nat.or_assoc, ← Nat.shiftLeft_add_eq_or_of_lt (by omega : size % 256 < 2 ^ 8),
    ← Nat.shiftLeft_add_eq_or_of_lt (by simp only [Nat.shiftLeft_eq]; omega)]
  simp only [Nat.shiftLeft_eq]
  omega

/--
Decompressing a stream gives the output of its byte-by-byte reading.

The rest of the buffer is left as it was, and the block copy agrees with the byte loop.
-/
theorem decompressFast_serialize (cType unused : UInt8) (commands : List Command) (output : Bytes)
    (known : cType = 0x10 ∨ cType = 0x50) (sound : Sound commands [])
    (small : (interpret commands []).length < 2 ^ 24)
    (room : (interpret commands []).length ≤ output.length) :
    decompressFast (serialize cType unused commands) output =
        (interpret commands [] ++ output.drop (interpret commands []).length, none) ∧
      ∀ (pin distance count : Nat) (produced slack : Bytes), 0 < distance →
        distance ≤ produced.length → count ≤ distance → count ≤ slack.length →
          copyBlock distance count (holding pin produced slack) =
            copyLoop distance count (holding pin produced slack) := by
  refine ⟨?_, fun _ _ _ _ _ positive inside apart fits =>
    copyBlock_eq_copyLoop positive inside apart fits⟩
  have header : ¬ (serialize cType unused commands).length < 5 := by
    simp only [serialize, List.length_append, List.length_cons]
    omega
  have type : ¬ (byteAt (serialize cType unused commands) 0 ≠ 0x10 ∧
      byteAt (serialize cType unused commands) 0 ≠ 0x50) := by
    rcases known with rfl | rfl <;> simp [byteAt, serialize]
  have size := headerSize_serialize cType unused commands small
  have found : (serialize cType unused commands).drop 5 = commands.flatMap Command.bytes := rfl
  obtain ⟨last, ran⟩ := decompressLoop_eq commands output 5 sound found (by simpa using room)
  have start : (⟨5, 0, output⟩ : Decoder) = holding 5 [] output := rfl
  simp only [decompressFast, if_neg header, if_neg type, size, if_neg (Nat.not_lt.mpr room), start, ran]
  rfl

/-- Two literals, an overlapping copy, and a block copy decompress to sixteen bytes. -/
theorem decompressFast_serialize_overlap :
    (decompressFast (serialize 0x10 0xFB
      [.literal [1, 2, 3, 4], .short [5] 1 6, .medium [] 4 4, .last [7]])
      (List.replicate 20 0)).1 =
        [1, 2, 3, 4, 5, 5, 5, 5, 5, 5, 5, 5, 5, 5, 5, 7, 0, 0, 0, 0] :=
  congrArg Prod.fst (decompressFast_serialize 0x10 0xFB
    [.literal [1, 2, 3, 4], .short [5] 1 6, .medium [] 4 4, .last [7]] (List.replicate 20 0)
    (.inl rfl) (by decide) (by decide) (by decide)).1

end Recap.RefPack
