import Recap.Blaze.ParserBytes
import Recap.Core.DataBufferAppend

/-! The headers of messages, as the server queues them and as it reads them. -/

namespace Recap

/-- `BSWAP16` -/
def bswap16 (value : Nat) : Nat :=
  ((value &&& 0xFF) <<< 8) ||| ((value >>> 8) &&& 0xFF)

/-- The bytes of a number in the machine's own little-endian order. -/
def littleBytes : (width value : Nat) → Bytes
  | 0, _ => []
  | width + 1, value => UInt8.ofNat value :: littleBytes width (value >>> 8)

namespace DataBuffer

/-- `write_u16_be` -/
def writeU16Be (b : DataBuffer) (variable_ : UInt16) : DataBuffer :=
  b.implWrite (littleBytes 2 (bswap16 variable_.toNat))

/-- `write_u32_be` -/
def writeU32Be (b : DataBuffer) (variable_ : UInt32) : DataBuffer :=
  b.implWrite (littleBytes 4 (Blaze.bswap32 variable_.toNat))

end DataBuffer

namespace Blaze

inductive MessageType where
  | message
  | reply
  | notification
  | errorReply
  | other (value : Nat)
  deriving DecidableEq, Repr

namespace MessageType

/-- `static_cast<MessageType>` -/
def ofNat : Nat → MessageType
  | 0 => message
  | 1 => reply
  | 2 => notification
  | 3 => errorReply
  | value + 4 => other (value + 4)

def toNat : MessageType → Nat
  | message => 0
  | reply => 1
  | notification => 2
  | errorReply => 3
  | other value => value

@[simp] theorem toNat_ofNat (value : Nat) : (ofNat value).toNat = value := by
  match value with
  | 0 | 1 | 2 | 3 | _ + 4 => rfl

end MessageType

/-- The header of a request. -/
structure Request where
  messageType : MessageType
  messageId : UInt32
  length : UInt16
  component : UInt16
  command : UInt16
  errorCode : UInt16
  deriving DecidableEq, Repr

namespace Client

/-- The type and the id of a message in one word. -/
def messageWord (messageType : MessageType) (messageId : UInt32) : UInt32 :=
  (UInt32.ofNat messageType.toNat <<< 28) ||| (messageId &&& 0xFFFFF)

/-- `send`, by the buffers that wait to be written. -/
def send (writeBuffers : List DataBuffer) (messageType : MessageType) (messageId : UInt32)
    (componentId commandId errorCode : UInt16) (buffer : DataBuffer) : List DataBuffer :=
  let length := buffer.size
  let writeBuffer := DataBuffer.empty.writeU16Be (UInt16.ofNat length)
  let writeBuffer := writeBuffer.writeU16Be componentId
  let writeBuffer := writeBuffer.writeU16Be commandId
  let writeBuffer := writeBuffer.writeU16Be errorCode
  let writeBuffer := writeBuffer.writeU32Be (messageWord messageType messageId)
  writeBuffers ++ [if 0 < length then writeBuffer.insert buffer else writeBuffer]

/-- `notify` -/
def notify (writeBuffers : List DataBuffer) (packet : Packet) (component command : UInt16)
    (error : UInt32) : Except Fault (List DataBuffer) := do
  let buffer ← packet.writeAll .empty
  return send writeBuffers .notification 0 component command (error >>> 16).toUInt16 buffer

/-- The type of a reply to a request. -/
def replyType (error : UInt32) : MessageType :=
  if error ≠ 0 then .errorReply else .reply

/-- `reply` without a packet. -/
def replyError (writeBuffers : List DataBuffer) (request : Request) (error : UInt32) :
    List DataBuffer :=
  send writeBuffers (replyType error) request.messageId request.component request.command
    (error >>> 16).toUInt16 .empty

/-- `reply` -/
def reply (writeBuffers : List DataBuffer) (request : Request) (packet : Packet) (error : UInt32) :
    Except Fault (List DataBuffer) := do
  let buffer ← packet.writeAll .empty
  return send writeBuffers (replyType error) request.messageId request.component request.command
    (error >>> 16).toUInt16 buffer

/-- `read_u16_be` -/
def readU16Be : Parser.Parse UInt16 := do
  let variable_ ← .act (·.read 2)
  return UInt16.ofNat (bswap16 variable_)

/-- `read_u32_be` -/
def readU32Be : Parser.Parse UInt32 := do
  let variable_ ← .act (·.read 4)
  return UInt32.ofNat (bswap32 variable_)

/-- What `parse_packets` reads before the body. -/
def parseHeader : Parser.Parse Request := do
  let length ← readU16Be
  let component ← readU16Be
  let command ← readU16Be
  let errorCode ← readU16Be
  let message ← readU32Be
  return ⟨.ofNat (message >>> 28).toNat, message &&& 0xFFFFF, length, component, command, errorCode⟩

end Client

end Blaze

/-! ## What is queued is read back -/

/-- The machine's own order puts together what it has taken apart. -/
theorem littleEndian_littleBytes (width value : Nat) :
    Reader.littleEndian (littleBytes width value) = value % 256 ^ width := by
  induction width generalizing value with
  | zero => simp [littleBytes, Reader.littleEndian, Nat.mod_one]
  | succ width ih =>
    -- The first byte is the last digit to the base 256.
    have digit : (UInt8.ofNat value).toNat = value % 256 := by simp
    have shifted : value >>> 8 = value / 256 := Nat.shiftRight_eq_div_pow value 8
    rw [littleBytes, Reader.littleEndian, ih, shifted, digit, pow_succ, Nat.mul_comm (256 ^ width),
      Nat.mod_mul]

@[simp] theorem length_littleBytes (width value : Nat) : (littleBytes width value).length = width := by
  induction width generalizing value with
  | zero => rfl
  | succ width ih => rw [littleBytes, List.length_cons, ih]

theorem bswap16_eq (value : Nat) : bswap16 value = 256 * (value % 256) + value / 256 % 256 := by
  have low : value &&& 0xFF = value % 256 := Nat.and_two_pow_sub_one_eq_mod value 8
  have high : (value >>> 8) &&& 0xFF = value / 256 % 256 := by
    rw [Nat.shiftRight_eq_div_pow]
    exact Nat.and_two_pow_sub_one_eq_mod _ 8
  have small : value / 256 % 256 < 2 ^ 8 := Nat.mod_lt _ (by decide)
  rw [bswap16, low, high, ← Nat.shiftLeft_add_eq_or_of_lt small, Nat.shiftLeft_eq]
  omega

theorem bswap16_bytes {high low : Nat} (highByte : high < 256) (lowByte : low < 256) :
    bswap16 (256 * high + low) = 256 * low + high := by
  rw [bswap16_eq]
  omega

/-- Swapping two bytes twice changes nothing. -/
theorem bswap16_bswap16 {value : Nat} (small : value < 2 ^ 16) : bswap16 (bswap16 value) = value := by
  have parts : value = 256 * (value / 256) + value % 256 := by omega
  have high : value / 256 < 256 := by omega
  have low : value % 256 < 256 := Nat.mod_lt _ (by decide)
  rw [parts, bswap16_bytes high low, bswap16_bytes low high]

theorem bswap16_lt (value : Nat) : bswap16 value < 256 ^ 2 := by
  rw [bswap16_eq]
  omega

namespace Blaze

theorem bswap32_bytes {first second third fourth : Nat} (one : first < 256) (two : second < 256)
    (three : third < 256) (four : fourth < 256) :
    bswap32 (16777216 * first + 65536 * second + 256 * third + fourth) =
      16777216 * fourth + 65536 * third + 256 * second + first := by
  rw [bswap32_eq]
  omega

/-- Swapping four bytes twice changes nothing. -/
theorem bswap32_bswap32 {value : Nat} (small : value < 2 ^ 32) : bswap32 (bswap32 value) = value := by
  have parts : value = 16777216 * (value / 16777216) + 65536 * (value / 65536 % 256) +
      256 * (value / 256 % 256) + value % 256 := by omega
  have one : value / 16777216 < 256 := by omega
  have two : value / 65536 % 256 < 256 := Nat.mod_lt _ (by decide)
  have three : value / 256 % 256 < 256 := Nat.mod_lt _ (by decide)
  have four : value % 256 < 256 := Nat.mod_lt _ (by decide)
  rw [parts, bswap32_bytes one two three four, bswap32_bytes four three two one]

theorem bswap32_lt (value : Nat) : bswap32 value < 256 ^ 4 := by
  rw [bswap32_eq]
  omega

namespace Client

/-- The type and the id stay apart in their word. -/
theorem messageWord_toNat {type : Nat} (narrow : type < 16) {messageId : UInt32}
    (short : messageId.toNat < 2 ^ 20) :
    (messageWord (.ofNat type) messageId).toNat = type * 2 ^ 28 + messageId.toNat := by
  have mask : messageId.toNat &&& 0xFFFFF = messageId.toNat := by
    rw [show (0xFFFFF : Nat) = 2 ^ 20 - 1 from rfl, Nat.and_two_pow_sub_one_eq_mod]
    exact Nat.mod_eq_of_lt short
  have shifted : type <<< 28 < 2 ^ 32 := by
    rw [Nat.shiftLeft_eq]
    omega
  simp only [messageWord, MessageType.toNat_ofNat, UInt32.toNat_or, UInt32.toNat_and,
    UInt32.toNat_shiftLeft, UInt32.toNat_ofNat', UInt32.toNat_ofNat]
  rw [Nat.mod_eq_of_lt (show type < 2 ^ 32 by omega), Nat.mod_eq_of_lt shifted, mask,
    ← Nat.shiftLeft_add_eq_or_of_lt (by omega), Nat.shiftLeft_eq]

/-- A number of two bytes is read back from its bytes. -/
theorem readU16Be_eq {r : Reader} {value : UInt16} {more : Bytes}
    (holds : Holds r (littleBytes 2 (bswap16 value.toNat) ++ more)) :
    readU16Be r = .done (value, r.advance 2) := by
  obtain ⟨tail, found⟩ := holds.left.found
  have bounded := holds.left.noWrap
  rw [length_littleBytes] at bounded
  have taken := Reader.read_of_rest found (length_littleBytes 2 _).symm
    (List.ne_nil_of_length_pos (by simp)) (by rw [length_littleBytes]; omega)
  rw [littleEndian_littleBytes, length_littleBytes, Nat.mod_eq_of_lt (bswap16_lt _)] at taken
  rw [readU16Be, Program.act_bind, taken]
  simp only [bswap16_bswap16 value.toNat_lt, UInt16.ofNat_toNat, Program.pure_apply]

/-- A number of four bytes is read back from its bytes. -/
theorem readU32Be_eq {r : Reader} {value : UInt32}
    (holds : Holds r (littleBytes 4 (bswap32 value.toNat))) :
    readU32Be r = .done (value, r.advance 4) := by
  obtain ⟨tail, found⟩ := holds.found
  have bounded := holds.noWrap
  rw [length_littleBytes] at bounded
  have taken := Reader.read_of_rest found (length_littleBytes 4 _).symm
    (List.ne_nil_of_length_pos (by simp)) (by rw [length_littleBytes]; omega)
  rw [littleEndian_littleBytes, length_littleBytes, Nat.mod_eq_of_lt (bswap32_lt _)] at taken
  rw [readU32Be, Program.act_bind, taken]
  simp only [bswap32_bswap32 value.toNat_lt, UInt32.ofNat_toNat, Program.pure_apply]

/-- The twelve bytes that `send` puts in front of a body. -/
def headerBytes (length component command errorCode : UInt16) (message : UInt32) : Bytes :=
  littleBytes 2 (bswap16 length.toNat) ++ (littleBytes 2 (bswap16 component.toNat) ++
    (littleBytes 2 (bswap16 command.toNat) ++ (littleBytes 2 (bswap16 errorCode.toNat) ++
      littleBytes 4 (bswap32 message.toNat))))

@[simp] theorem length_headerBytes (length component command errorCode : UInt16) (message : UInt32) :
    (headerBytes length component command errorCode message).length = 12 := by
  simp [headerBytes]

/-- The parser of headers takes a header apart as it was put together. -/
theorem parseHeader_eq {r : Reader} {length component command errorCode : UInt16} {message : UInt32}
    (holds : Holds r (headerBytes length component command errorCode message)) :
    parseHeader r = .done (⟨.ofNat (message >>> 28).toNat, message &&& 0xFFFFF, length, component,
      command, errorCode⟩, r.advance 12) := by
  have first := holds.right (littleBytes 2 (bswap16 length.toNat))
  have second := first.right (littleBytes 2 (bswap16 component.toNat))
  have third := second.right (littleBytes 2 (bswap16 command.toNat))
  have fourth := third.right (littleBytes 2 (bswap16 errorCode.toNat))
  simp only [length_littleBytes] at first second third fourth
  -- Each number starts where the one before it has ended.
  rw [parseHeader, Program.bind_done (readU16Be_eq holds), Program.bind_done (readU16Be_eq first),
    Program.bind_done (readU16Be_eq second), Program.bind_done (readU16Be_eq third),
    Program.bind_done (readU32Be_eq fourth)]
  rfl

/-- What `send` queues is the header, and behind it the body. -/
theorem send_content (writeBuffers : List DataBuffer) (messageType : MessageType)
    (messageId : UInt32) (component command errorCode : UInt16) {body : DataBuffer}
    (sound : body.Sound) :
    ∃ queued, send writeBuffers messageType messageId component command errorCode body =
        writeBuffers ++ [queued] ∧
      queued.content = headerBytes (UInt16.ofNat body.size) component command errorCode
        (messageWord messageType messageId) ++ body.content := by
  have wrote (b : DataBuffer) (bytes : Bytes) (front : b.position + bytes.length < wordBound) :
      DataBuffer.Wrote b bytes (b.implWrite bytes) := DataBuffer.implWrite_wrote front
  refine ⟨_, rfl, ?_⟩
  -- Five writes lay out the header one after the other.
  have one := wrote .empty (littleBytes 2 (bswap16 (UInt16.ofNat body.size).toNat))
    (by rw [length_littleBytes]; decide)
  have onePosition := one.position
  have two := wrote _ (littleBytes 2 (bswap16 component.toNat))
    (by rw [onePosition, length_littleBytes, length_littleBytes]; decide)
  have twoPosition := two.position
  have three := wrote _ (littleBytes 2 (bswap16 command.toNat))
    (by rw [twoPosition, onePosition]; simp only [length_littleBytes]; decide)
  have threePosition := three.position
  have four := wrote _ (littleBytes 2 (bswap16 errorCode.toNat))
    (by rw [threePosition, twoPosition, onePosition]; simp only [length_littleBytes]; decide)
  have fourPosition := four.position
  have five := wrote _ (littleBytes 4 (bswap32 (messageWord messageType messageId).toNat))
    (by rw [fourPosition, threePosition, twoPosition, onePosition]; simp only [length_littleBytes]; decide)
  have header := one.trans (two.trans (three.trans (four.trans five)))
  obtain ⟨content, atEnd, inside⟩ := header.content (Nat.le_refl _) rfl
  have position := header.position
  have bodyInside := sound.size_le
  have bodySmall := sound.capacity_lt
  have far : maxCapacity + maxCapacity ≤ wordBound := by decide
  split
  · refine (DataBuffer.content_insert inside bodyInside ?_).trans ?_
    · rw [← atEnd, position]
      simp only [List.length_append, length_littleBytes]
      have start : DataBuffer.empty.position = 0 := rfl
      have near : 12 ≤ maxCapacity := by decide
      omega
    · rw [content]
      simp [DataBuffer.content, DataBuffer.empty, headerBytes]
  · rename_i vacant
    have nothing : body.content = [] := by
      rw [DataBuffer.content, Nat.eq_zero_of_not_pos vacant, List.take_zero]
    refine content.trans ?_
    rw [nothing]
    simp [DataBuffer.content, DataBuffer.empty, headerBytes]

/--
What was queued is a header of twelve bytes and then the body, and the parser of headers reads back
from it what the message was sent with.
-/
def Framed (queued : DataBuffer) (messageType : MessageType) (messageId : UInt32)
    (component command errorCode : UInt16) (body : DataBuffer) : Prop :=
  ∃ header : Bytes, header.length = 12 ∧ queued.content = header ++ body.content ∧
    ∀ r : Reader, Holds r header → ∃ length : UInt16, length.toNat = body.size ∧
      parseHeader r = .done (⟨messageType, messageId, length, component, command, errorCode⟩,
        r.advance 12)

/-- A message is framed exactly if its body's size is one that the header has room for. -/
theorem framed_iff_short {queued body : DataBuffer} {type : Nat} (narrow : type < 16)
    {messageId : UInt32} (short : messageId.toNat < 2 ^ 20) (component command errorCode : UInt16)
    (content : queued.content = headerBytes (UInt16.ofNat body.size) component command errorCode
      (messageWord (.ofNat type) messageId) ++ body.content) :
    Framed queued (.ofNat type) messageId component command errorCode body ↔ body.size < 2 ^ 16 := by
  have word := messageWord_toNat narrow short
  have typeBack : (messageWord (.ofNat type) messageId >>> 28).toNat = type := by
    rw [UInt32.toNat_shiftRight, word]
    have shift : (28 : UInt32).toNat % 32 = 28 := rfl
    rw [shift, Nat.shiftRight_eq_div_pow]
    omega
  have idBack : messageWord (.ofNat type) messageId &&& 0xFFFFF = messageId := by
    apply UInt32.toNat_inj.mp
    rw [UInt32.toNat_and, word, show (0xFFFFF : UInt32).toNat = 2 ^ 20 - 1 from rfl,
      Nat.and_two_pow_sub_one_eq_mod]
    omega
  have size : (UInt16.ofNat body.size).toNat = body.size % 2 ^ 16 := UInt16.toNat_ofNat'
  constructor
  · intro framed
    obtain ⟨header, twelve, held, reads⟩ := framed
    -- The header can only be the one that was written.
    obtain ⟨rfl, -⟩ := List.append_inj (held.symm.trans content) (by simp [twelve])
    let header := headerBytes (UInt16.ofNat body.size) component command errorCode
      (messageWord (.ofNat type) messageId)
    let r : Reader := ⟨⟨header, 12, 0⟩, fun _ => 0⟩
    have holds : Holds r header :=
      ⟨⟨[], (List.append_nil header).symm⟩, by simp [r, header],
        by simp only [r, header, length_headerBytes]; decide⟩
    obtain ⟨length, same, parsed⟩ := reads r holds
    rw [parseHeader_eq holds] at parsed
    simp only [Outcome.done.injEq, Prod.mk.injEq, Request.mk.injEq, and_true] at parsed
    rw [← same, ← parsed.2.2]
    exact UInt16.toNat_lt _
  · intro fits
    refine ⟨_, length_headerBytes .., content, fun r holds => ⟨UInt16.ofNat body.size, ?_, ?_⟩⟩
    · rw [size, Nat.mod_eq_of_lt fits]
    · rw [parseHeader_eq holds, typeBack, idBack]

/-- What `send` queues is framed exactly if the body is short. -/
theorem send_framed (writeBuffers : List DataBuffer) {body : DataBuffer} (sound : body.Sound)
    {type : Nat} (narrow : type < 16) {messageId : UInt32} (short : messageId.toNat < 2 ^ 20)
    (component command errorCode : UInt16) :
    ∃ queued, send writeBuffers (.ofNat type) messageId component command errorCode body =
        writeBuffers ++ [queued] ∧
      (Framed queued (.ofNat type) messageId component command errorCode body ↔
        body.size < 2 ^ 16) := by
  obtain ⟨queued, sent, content⟩ :=
    send_content writeBuffers (.ofNat type) messageId component command errorCode sound
  exact ⟨queued, sent, framed_iff_short narrow short component command errorCode content⟩

theorem replyType_ofNat (error : UInt32) :
    ∃ type < 16, replyType error = .ofNat type := by
  unfold replyType
  split
  · exact ⟨3, by decide, rfl⟩
  · exact ⟨1, by decide, rfl⟩

/--
Every message is framed when it is sent, exactly if its body has less than 2^16 bytes.

A notification has the id zero, and a reply the id, component and command of its request.
Both have the upper half of their error.
-/
theorem framed_iff (writeBuffers : List DataBuffer) {body : DataBuffer} (sound : body.Sound) :
    (∀ type < 16, ∀ (messageId : UInt32) (component command errorCode : UInt16),
      messageId.toNat < 2 ^ 20 →
        ∃ queued, send writeBuffers (.ofNat type) messageId component command errorCode body =
            writeBuffers ++ [queued] ∧
          (Framed queued (.ofNat type) messageId component command errorCode body ↔
            body.size < 2 ^ 16)) ∧
    (∀ (packet : Packet) (component command : UInt16) (error : UInt32),
      packet.writeAll .empty = .ok body →
        ∃ queued, notify writeBuffers packet component command error =
            .ok (writeBuffers ++ [queued]) ∧
          (Framed queued .notification 0 component command (error >>> 16).toUInt16 body ↔
            body.size < 2 ^ 16)) ∧
    (∀ (request : Request) (packet : Packet) (error : UInt32), request.messageId.toNat < 2 ^ 20 →
      packet.writeAll .empty = .ok body →
        ∃ queued, reply writeBuffers request packet error = .ok (writeBuffers ++ [queued]) ∧
          (Framed queued (replyType error) request.messageId request.component request.command
            (error >>> 16).toUInt16 body ↔ body.size < 2 ^ 16)) ∧
    ∀ (request : Request) (error : UInt32), request.messageId.toNat < 2 ^ 20 →
      ∃ queued, replyError writeBuffers request error = writeBuffers ++ [queued] ∧
        Framed queued (replyType error) request.messageId request.component request.command
          (error >>> 16).toUInt16 .empty := by
  refine ⟨fun type narrow messageId component command errorCode short => ?_,
    fun packet component command error wrote => ?_, fun request packet error short wrote => ?_,
    fun request error short => ?_⟩
  · exact send_framed writeBuffers sound narrow short component command errorCode
  · obtain ⟨queued, sent, framed⟩ := send_framed writeBuffers sound (show 2 < 16 by decide)
      (show (0 : UInt32).toNat < 2 ^ 20 by decide) component command (error >>> 16).toUInt16
    refine ⟨queued, ?_, framed⟩
    rw [notify, wrote]
    exact congrArg Except.ok sent
  · obtain ⟨type, narrow, same⟩ := replyType_ofNat error
    obtain ⟨queued, sent, framed⟩ := send_framed writeBuffers sound narrow short request.component
      request.command (error >>> 16).toUInt16
    rw [← same] at sent framed
    refine ⟨queued, ?_, framed⟩
    rw [reply, wrote]
    exact congrArg Except.ok sent
  · -- No body at all is short.
    obtain ⟨type, narrow, same⟩ := replyType_ofNat error
    obtain ⟨queued, sent, framed⟩ := send_framed writeBuffers DataBuffer.empty_sound narrow short
      request.component request.command (error >>> 16).toUInt16
    rw [← same] at sent framed
    exact ⟨queued, sent, framed.mpr (by decide)⟩

/-- A buffer that holds as many zero bytes as asked for. -/
def zeros (count : Nat) : DataBuffer := ⟨List.replicate count 0, count, 0⟩

theorem zeros_sound {count : Nat} (small : count < maxCapacity) : (zeros count).Sound :=
  ⟨(List.length_replicate).ge, by rw [zeros, List.length_replicate]; exact small, Nat.zero_lt_succ _⟩

/-- A body of three bytes is framed in every way that it can be sent. -/
theorem framed_iff_three :
    ∃ queued, send [] (.ofNat 1) 7 5 10 0 (zeros 3) = [] ++ [queued] ∧
      (Framed queued (.ofNat 1) 7 5 10 0 (zeros 3) ↔ (zeros 3).size < 2 ^ 16) :=
  (framed_iff [] (zeros_sound (show 3 < maxCapacity by decide))).1 1 (by decide) 7 5 10 0 (by decide)

/-- The length of a body of 2^16 bytes is written as zero. -/
theorem not_framed :
    ¬ ∀ (body : DataBuffer) (type : Nat) (messageId : UInt32) (component command errorCode : UInt16),
      body.Sound → type < 16 → messageId.toNat < 2 ^ 20 →
        ∃ queued, send [] (.ofNat type) messageId component command errorCode body = [] ++ [queued] ∧
          Framed queued (.ofNat type) messageId component command errorCode body := by
  intro framed
  have sound := zeros_sound (show 2 ^ 16 < maxCapacity by decide)
  obtain ⟨queued, sent, whole⟩ := framed (zeros (2 ^ 16)) 1 7 5 10 0 sound (by decide) (by decide)
  obtain ⟨other, sentAgain, short⟩ := send_framed [] sound (show 1 < 16 by decide)
    (show (7 : UInt32).toNat < 2 ^ 20 by decide) 5 10 0
  -- Both are the one buffer that was queued.
  rw [sent] at sentAgain
  obtain rfl := List.singleton_inj.mp sentAgain
  exact absurd (short.mp whole) (lt_irrefl _)

end Client
end Blaze
end Recap
