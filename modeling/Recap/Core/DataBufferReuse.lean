import Recap.Core.DataBufferLaws
import Recap.Lib.Runs

/-! Which bytes a reused buffer returns, over every sequence of operations on it. -/

namespace Recap
namespace DataBuffer

/-- The socket overwrites the front of the buffer and cannot deliver more than its capacity. -/
def delivered (b : DataBuffer) (bytes : Bytes) : Bytes := bytes.take b.capacity

/-- What `handle_read` finds: the delivered bytes in front, the size cut to them, position zero. -/
def receive (b : DataBuffer) (bytes : Bytes) : DataBuffer :=
  let received := b.delivered bytes
  let overwritten := { b with buffer := received ++ b.buffer.drop received.length }
  (overwritten.resize received.length).setPosition 0

/-- The three numbers of a buffer as its operations keep them. -/
structure Sound (b : DataBuffer) : Prop where
  size_le : b.size ≤ b.buffer.length
  capacity_lt : b.buffer.length < maxCapacity
  position_lt : b.position < wordBound

/-- A buffer is sound when it is constructed. -/
theorem empty_sound : empty.Sound := ⟨by decide, by decide, by decide⟩

/-- One use of a buffer by the code around it. -/
inductive Use where
  | write (bytes : Bytes)
  | insert (other : {other : DataBuffer // other.Sound})
  | resize (newSize : Nat)
  | clear
  | setPosition (newPosition : Nat)
  | receive (bytes : Bytes)
  | skip (width count : Nat)
  | read (width count : Nat)
  | peek (width count : Nat)
  | decode (uninit : Nat → Nat)

/-- The buffer, unless it would have had to throw on the way there. -/
def allocated (b : DataBuffer) : Option DataBuffer :=
  if b.capacity < maxCapacity then some b else none

/-- The buffer after one use, or nothing when the use throws or writes outside the address space. -/
def use (b : DataBuffer) : Use → Option DataBuffer
  | .write bytes =>
    if b.position + bytes.length < wordBound then (b.implWrite bytes).allocated else none
  | .insert other => (b.insert other.val).allocated
  | .resize newSize => (b.resize newSize).allocated
  | .clear => some b.clear
  | .setPosition newPosition => some (b.setPosition newPosition)
  | .receive bytes => some (b.receive bytes)
  | .skip width count => some (b.skip width count)
  | .read width count => some (b.implRead width count).2
  | .peek _ _ => some b
  | .decode uninit => some (Reader.decodeTdfInteger ⟨b, uninit⟩).2.buffer

theorem allocated_some {b after : DataBuffer} (kept : b.allocated = some after) :
    b.buffer.length < maxCapacity ∧ after = b := by
  unfold allocated at kept
  split at kept
  · rename_i small
    exact ⟨small, (Option.some.inj kept).symm⟩
  · exact absurd kept (by simp)

/-- A write that does not wrap keeps the size within the capacity. -/
private theorem implWrite_size_le {b : DataBuffer} {bytes : Bytes} (sound : b.Sound)
    (room : b.position + bytes.length < wordBound) :
    (b.implWrite bytes).size ≤ (b.implWrite bytes).buffer.length ∧
      (b.implWrite bytes).position < wordBound := by
  -- The write ends inside the capacity, and growing never drops what was content.
  obtain ⟨admitted, added, grown⟩ := b.makeRoom_eq bytes.length
  have held := sound.size_le
  simp only [canRw, grown, decide_eq_true_eq, Nat.mod_eq_of_lt room, List.length_append,
    List.length_replicate] at admitted
  simp only [implWrite, grown, Nat.mod_eq_of_lt room, List.length_append, List.length_take,
    List.length_drop, List.length_replicate]
  omega

theorem resize_buffer_length (b : DataBuffer) (newSize : Nat) :
    (b.resize newSize).buffer.length = max b.buffer.length newSize := by
  unfold resize
  split
  · simp only [reserve, List.length_append, List.length_take, List.length_replicate]
    omega
  · dsimp only
    omega

private theorem resize_size (b : DataBuffer) (newSize : Nat) : (b.resize newSize).size = newSize := by
  unfold resize
  split <;> rfl

private theorem resize_position (b : DataBuffer) (newSize : Nat) :
    (b.resize newSize).position = b.position := by
  unfold resize
  split <;> rfl

/-- The socket delivers into the capacity that is already there. -/
theorem delivered_length_le (b : DataBuffer) (bytes : Bytes) :
    (b.delivered bytes).length ≤ b.buffer.length := by
  simp only [delivered, capacity, List.length_take]
  omega

theorem receive_eq (b : DataBuffer) (bytes : Bytes) :
    b.receive bytes = ⟨b.delivered bytes ++ b.buffer.drop (b.delivered bytes).length,
      (b.delivered bytes).length, 0⟩ := by
  -- Nothing is delivered past the capacity, so resizing never has to grow it.
  have inside := b.delivered_length_le bytes
  have enough : ¬ (b.delivered bytes ++ b.buffer.drop (b.delivered bytes).length).length <
      (b.delivered bytes).length := by simp
  simp only [receive, resize, if_neg enough, setPosition, Nat.min_zero]

/-- After a delivery the content is exactly the bytes delivered. -/
theorem receive_content (b : DataBuffer) (bytes : Bytes) :
    (b.receive bytes).content = b.delivered bytes := by
  simp [receive_eq, content]

/-- Copying moves the position only within its word. -/
private theorem implRead_sound {b : DataBuffer} (sound : b.Sound) (width count : Nat) :
    (b.implRead width count).2.Sound := by
  unfold implRead
  dsimp only
  split
  · exact { sound with position_lt := Nat.mod_lt _ (by decide) }
  · exact sound

end DataBuffer

namespace Reader

/-- A one-byte read keeps the buffer sound. -/
private theorem read_sound {r : Reader} (sound : r.buffer.Sound) : (r.read 1).2.buffer.Sound := by
  have moved := DataBuffer.implRead_sound sound 1 1
  unfold read
  split
  · rename_i took
    rwa [took] at moved
  · exact sound

private theorem decodeTdfTail_sound :
    ∀ remaining i value (r : Reader), r.buffer.Sound →
      (decodeTdfTail remaining i value r).2.buffer.Sound := by
  intro remaining
  induction remaining with
  | zero => intro _ _ _ sound; exact sound
  | succ remaining ih =>
    intro i value r sound
    simp only [decodeTdfTail]
    split
    · exact read_sound sound
    · exact ih _ _ _ (read_sound sound)

/-- A decode is a sequence of reads, so it keeps the buffer sound. -/
private theorem decodeTdfInteger_sound {r : Reader} (sound : r.buffer.Sound) :
    r.decodeTdfInteger.2.buffer.Sound := by
  have moved := read_sound sound
  unfold decodeTdfInteger
  dsimp only
  split
  · exact decodeTdfTail_sound _ _ _ _ moved
  · exact moved

end Reader

namespace DataBuffer

/-- Every use of a buffer keeps it sound. -/
theorem use_kept : Runs.Kept use Sound := by
  -- One case per operation; those that grow the capacity throw before it gets too large.
  intro b step after sound taken
  have held := sound.size_le
  cases step with
  | write bytes =>
    simp only [use] at taken
    split at taken
    · rename_i room
      obtain ⟨small, rfl⟩ := allocated_some taken
      obtain ⟨size_le, position_lt⟩ := implWrite_size_le sound room
      exact ⟨size_le, small, position_lt⟩
    · simp at taken
  | insert other =>
    obtain ⟨small, rfl⟩ := allocated_some taken
    have inserted := other.property.size_le
    have bounded : maxCapacity < wordBound := by decide
    refine ⟨?_, small, sound.position_lt⟩
    simp only [insert, List.length_append, List.length_take, List.length_drop] at small ⊢
    rw [Nat.mod_eq_of_lt (by omega)]
    omega
  | resize newSize =>
    obtain ⟨small, rfl⟩ := allocated_some taken
    refine ⟨?_, small, ?_⟩
    · rw [resize_size, resize_buffer_length]
      exact Nat.le_max_right _ _
    · rw [resize_position]
      exact sound.position_lt
  | clear =>
    cases taken
    exact empty_sound
  | setPosition newPosition =>
    cases taken
    have := sound.capacity_lt
    have bounded : maxCapacity < wordBound := by decide
    exact { sound with position_lt := by simp only [setPosition]; omega }
  | receive bytes =>
    cases taken
    have inside := b.delivered_length_le bytes
    have small := sound.capacity_lt
    rw [receive_eq]
    refine ⟨?_, ?_, Nat.zero_lt_succ _⟩ <;>
      simp only [List.length_append, List.length_drop] <;> omega
  | skip width count =>
    cases taken
    exact { sound with position_lt := Nat.mod_lt _ (by decide) }
  | read width count =>
    cases taken
    exact implRead_sound sound width count
  | peek width count =>
    cases taken
    exact sound
  | decode uninit =>
    cases taken
    exact Reader.decodeTdfInteger_sound sound

/-- Copied bytes come from the content at the position, all of those asked for. -/
def FromContent (b : DataBuffer) (length : Nat) (copied : Option Bytes) : Prop :=
  ∀ bytes, copied = some bytes →
    bytes.length = length ∧ bytes = (b.content.drop b.position).take length

/-- Bytes to be copied end inside the content, or else outside the capacity. -/
def Fits (b : DataBuffer) (length : Nat) : Prop :=
  length = 0 ∨ b.position + length ≤ b.size ∨ b.buffer.length < (b.position + length) % wordBound

/-- The bytes a copy of the given length takes, when the guard admits it. -/
private def copied (b : DataBuffer) (length : Nat) : Option Bytes :=
  if b.canRw length then some ((b.buffer.drop b.position).take length) else none

private theorem implRead_copied (b : DataBuffer) (width count : Nat) :
    (b.implRead width count).1 = b.copied (width * count % wordBound) := by
  unfold implRead copied
  dsimp only
  split <;> rfl

/-- Exactly the copies that fit come from the content. -/
private theorem copied_fromContent {b : DataBuffer} (sound : b.Sound) (length : Nat) :
    b.FromContent length (b.copied length) ↔ b.Fits length := by
  have held := sound.size_le
  have position_lt := sound.position_lt
  by_cases admitted : b.canRw length = true
  · have within : (b.position + length) % wordBound ≤ b.buffer.length := by
      simpa [canRw] using admitted
    simp only [FromContent, copied, if_pos admitted, Option.some.injEq, forall_eq', Fits]
    constructor
    · -- A full-length slice of the content leaves no room for bytes past the size.
      rintro ⟨whole, same⟩
      have lengths := congrArg List.length same
      simp only [content, List.length_take, List.length_drop] at whole lengths
      omega
    · intro fits
      have inside : length = 0 ∨ b.position + length ≤ b.size := by omega
      refine ⟨by simp only [List.length_take, List.length_drop]; omega, ?_⟩
      rcases inside with rfl | inside
      · simp
      · simp only [content, List.drop_take, List.take_take]
        rw [Nat.min_eq_left (by omega)]
  · have beyond : b.buffer.length < (b.position + length) % wordBound := by
      simpa [canRw] using admitted
    simp [FromContent, copied, admitted, Fits, beyond]

/-- The readers in which a decode takes its reads, at most as many as the limit. -/
def decodeReads : Nat → Reader → List Reader
  | 0, _ => []
  | limit + 1, r => r :: if (r.read 1).1 < 0x80 then [] else decodeReads limit (r.read 1).2

/-- Put together the bytes of a decode, the first of which gives six bits unless it is the last. -/
def assemble : List Nat → Nat
  | [] => 0
  | first :: rest => (rest.foldl
      (fun (value, i) next => (value ||| ((next &&& 0x7F) <<< (i * 7 - 1)), i + 1))
      (if 0x80 ≤ first then first &&& 0x3F else first, 1)).1

private theorem decodeTdfTail_assemble (limit i value : Nat) (r : Reader) :
    (Reader.decodeTdfTail limit i value r).1 =
      (((decodeReads limit r).map fun r => (r.read 1).1).foldl
        (fun (value, i) next => (value ||| ((next &&& 0x7F) <<< (i * 7 - 1)), i + 1))
        (value, i)).1 := by
  -- The loop and the list of its reads stop at the same byte.
  induction limit generalizing i value r with
  | zero => rfl
  | succ limit ih =>
    simp only [Reader.decodeTdfTail, decodeReads, List.map_cons, List.foldl_cons]
    split
    · rfl
    · exact ih _ _ _

/-- A decoded integer is put together from what its reads return and from nothing else. -/
theorem decodeTdfInteger_assemble (r : Reader) :
    r.decodeTdfInteger.1 = assemble ((decodeReads 8 r).map fun r => (r.read 1).1) := by
  have reads : decodeReads 8 r =
      r :: if (r.read 1).1 < 0x80 then [] else decodeReads 7 (r.read 1).2 := rfl
  rw [reads, List.map_cons, assemble, Reader.decodeTdfInteger]
  by_cases last : (r.read 1).1 < 0x80
  · simp only [if_pos last, if_neg (Nat.not_le.mpr last), List.map_nil, List.foldl_nil]
  · simp only [if_neg last, if_pos (Nat.not_lt.mp last)]
    exact decodeTdfTail_assemble 7 1 _ _

/-- What the code around a buffer relies on when it uses it. -/
def Contained (b : DataBuffer) : Use → Prop
  | .read width count => b.FromContent (width * count % wordBound) (b.implRead width count).1
  | .peek width count => b.FromContent (width * count % wordBound) (b.implPeek width count)
  | .decode uninit => ∀ r ∈ decodeReads 8 ⟨b, uninit⟩, r.buffer.FromContent 1 (r.buffer.implRead 1 1).1
  | .receive bytes => (b.receive bytes).content = b.delivered bytes
  | _ => True

/-- Where a decode continues, the bytes before are flagged, and each byte it reads has to fit. -/
def DecodeFits (b : DataBuffer) (limit : Nat) : Prop :=
  ∀ j < limit, (∀ i < j, ∃ byte, b.buffer[b.position + i]? = some byte ∧ 0x80 ≤ byte.toNat) →
    { b with position := b.position + j }.Fits 1

/-- Every access ends inside the content, or else outside the capacity. -/
def Clear (b : DataBuffer) : Use → Prop
  | .read width count | .peek width count => b.Fits (width * count % wordBound)
  | .decode _ => b.DecodeFits 8
  | _ => True

/-- A byte inside the capacity is what a one-byte read returns. -/
private theorem read_inside {r : Reader} (inside : r.buffer.position < r.buffer.buffer.length)
    (sound : r.buffer.Sound) :
    ∃ byte, r.buffer.buffer[r.buffer.position]? = some byte ∧
      r.read 1 = (byte.toNat, r.advance 1) := by
  have small := sound.capacity_lt
  have bounded : maxCapacity < wordBound := by decide
  refine ⟨r.buffer.buffer[r.buffer.position], List.getElem?_eq_getElem inside, ?_⟩
  exact Reader.read_byte (List.drop_eq_getElem_cons inside) (by omega)

/-- A read that the guard refuses leaves the buffer where it is. -/
private theorem read_refused {r : Reader} (refused : r.buffer.canRw 1 = false) :
    (r.read 1).2.buffer = r.buffer := by
  simp [Reader.read, implRead, refused, Reader.takeUninit]

private theorem decodeReads_refused (limit : Nat) {r : Reader} (refused : r.buffer.canRw 1 = false) :
    ∀ later ∈ decodeReads limit r, later.buffer = r.buffer := by
  induction limit generalizing r with
  | zero => simp [decodeReads]
  | succ limit ih =>
    intro later member
    have same := read_refused refused
    simp only [decodeReads, List.mem_cons] at member
    rcases member with rfl | member
    · rfl
    · split at member
      · simp at member
      · rw [ih (by rw [same]; exact refused) later member, same]

/-- A decode that ends at its first byte only needs that byte to fit. -/
private theorem decodeFits_ended {b : DataBuffer} {limit : Nat}
    (ended : ¬ ∃ byte, b.buffer[b.position]? = some byte ∧ 0x80 ≤ byte.toNat) :
    b.DecodeFits (limit + 1) ↔ b.Fits 1 := by
  constructor
  · intro all
    exact all 0 (by omega) (by omega)
  · intro fits j _ flagged
    rcases j with _ | j
    · exact fits
    · exact absurd (flagged 0 (by omega)) ended

/-- A decode that goes on past a flagged byte needs that byte and the rest to fit. -/
private theorem decodeFits_flagged {b : DataBuffer} {limit : Nat} {byte : UInt8}
    (found : b.buffer[b.position]? = some byte) (high : 0x80 ≤ byte.toNat) :
    b.DecodeFits (limit + 1) ↔
      b.Fits 1 ∧ { b with position := b.position + 1 }.DecodeFits limit := by
  -- Both sides count the same bytes, one from the position and one from the byte after it.
  have shift : ∀ i, b.position + (i + 1) = b.position + 1 + i := fun i => by omega
  constructor
  · intro all
    refine ⟨all 0 (by omega) (by omega), fun j below flagged => ?_⟩
    have shifted := all (j + 1) (by omega) fun i before => by
      rcases i with _ | i
      · exact ⟨byte, found, high⟩
      · rw [shift]
        exact flagged i (by omega)
    rwa [shift] at shifted
  · rintro ⟨fits, rest⟩ j below flagged
    rcases j with _ | j
    · exact fits
    · rw [shift]
      refine rest j (by omega) fun i before => ?_
      have earlier := flagged (i + 1) (by omega)
      rwa [shift] at earlier

/-- The reads of a decode all come from the content exactly when each of its bytes fits. -/
theorem decodeReads_fromContent (limit : Nat) (r : Reader) (sound : r.buffer.Sound) :
    (∀ later ∈ decodeReads limit r, later.buffer.FromContent 1 (later.buffer.implRead 1 1).1) ↔
      r.buffer.DecodeFits limit := by
  -- The induction follows the reads: a refused one repeats, a final one ends them, others move on.
  induction limit generalizing r with
  | zero => simp [decodeReads, DecodeFits]
  | succ limit ih =>
    have head : r.buffer.FromContent 1 (r.buffer.implRead 1 1).1 ↔ r.buffer.Fits 1 := by
      rw [implRead_copied]
      exact copied_fromContent sound 1
    have small := sound.capacity_lt
    have bounded : maxCapacity < wordBound := by decide
    by_cases fits : r.buffer.Fits 1
    · rcases Nat.lt_or_ge r.buffer.position r.buffer.buffer.length with inside | outside
      · obtain ⟨byte, found, taken⟩ := read_inside inside sound
        by_cases last : byte.toNat < 0x80
        · rw [decodeFits_ended (by simp [found, last])]
          simpa [decodeReads, taken, last] using head
        · have moved : (r.advance 1).buffer.Sound :=
            { sound with position_lt := by simp only [Reader.advance_position]; omega }
          rw [decodeFits_flagged found (by omega)]
          simp only [decodeReads, taken, if_neg last, List.forall_mem_cons, head, ih _ moved]
          rfl
      · -- Outside the capacity a byte only fits when the guard refuses it, again and again.
        have held := sound.size_le
        have refused : r.buffer.canRw 1 = false := by
          simp only [Fits] at fits
          simp only [canRw, decide_eq_false_iff_not]
          omega
        rw [decodeFits_ended (by simp [List.getElem?_eq_none outside])]
        refine iff_of_true (fun later member => ?_) fits
        rw [decodeReads_refused _ refused later member]
        exact head.mpr fits
    · refine iff_of_false (fun all => fits (head.mp (all r ?_))) fun all => fits (all 0 ?_ ?_)
      · simp [decodeReads]
      · omega
      · omega

/-- A use is contained exactly when its accesses are clear of what lies past the content. -/
theorem contained_iff_clear (b : DataBuffer) (step : Use) (sound : b.Sound) :
    b.Contained step ↔ b.Clear step := by
  cases step with
  | read width count =>
    rw [Contained, implRead_copied]
    exact copied_fromContent sound _
  | peek width count => exact copied_fromContent sound _
  | decode uninit => exact decodeReads_fromContent 8 ⟨b, uninit⟩ sound
  | receive bytes => simp [Contained, Clear, receive_content]
  | _ => exact Iff.rfl

/--
A buffer returns only bytes of its current content exactly where its accesses keep clear.

This covers every sequence of uses of a fresh buffer, with messages received in between.
-/
theorem reuse_contained_iff (uses : List Use) :
    Runs.Along use Contained empty uses ↔ Runs.Along use Clear empty uses :=
  use_kept.along_congr contained_iff_clear uses empty_sound

/-- A short message received after a long one leaves bytes of the long one within reach of a read. -/
theorem reuse_not_contained :
    ¬ ∀ uses, Runs.Along use Contained empty uses := by
  intro always
  -- After four bytes, a message of one byte is received, and two bytes are read.
  have run := always [.resize 4, .receive [1, 2, 3, 4], .receive [9], .read 1 2]
  have after := run.2 _ rfl
  have received := after.2 _ rfl
  have short := received.2 _ rfl
  have two := short.1 [9, 2] (by decide)
  exact absurd two (by decide)

end DataBuffer
end Recap
