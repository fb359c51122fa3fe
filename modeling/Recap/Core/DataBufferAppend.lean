import Recap.Core.DataBufferReuse

/-! What a buffer holds after writes at its position and insertions at its end. -/

namespace Recap
namespace DataBuffer

/-- Bytes are added by a write, or by the insertion of another buffer. -/
inductive Append where
  | write (bytes : Bytes)
  | insert (other : {other : DataBuffer // other.Sound})

namespace Append

/-- The bytes that are added. -/
def chunk : Append → Bytes
  | write bytes => bytes
  | insert other => other.val.content

def toUse : Append → Use
  | write bytes => .write bytes
  | insert other => .insert other

def isInsert : Append → Bool
  | write _ => false
  | insert _ => true

end Append

/-- The buffer after one addition after another, unless one has to throw. -/
def appendAll (b : DataBuffer) (appends : List Append) : Option DataBuffer :=
  appends.foldlM (fun b append => b.use append.toUse) b

/-- No bytes are written after others were inserted. -/
def InOrder (appends : List Append) : Prop :=
  appends.Pairwise fun earlier later =>
    earlier.isInsert = true → earlier.chunk ≠ [] → later.isInsert = false → later.chunk = []

section Parts

variable {b : DataBuffer}

/-- What is written at the end of the content is added to it. -/
theorem Wrote.content {after : DataBuffer} {bytes : Bytes} (wrote : Wrote b bytes after)
    (inside : b.size ≤ b.buffer.length) (atEnd : b.position = b.size) :
    after.content = b.content ++ bytes ∧ after.position = after.size ∧
      after.size ≤ after.buffer.length := by
  have moved := wrote.position
  have size : after.size = after.position := by
    have upper := wrote.size_le
    have lower := wrote.le_size
    by_cases nothing : bytes = []
    · subst nothing
      simp only [List.length_nil] at moved
      omega
    · have reached := wrote.written nothing
      omega
  have before : b.laid = b.content := by
    rw [laid_inside (by omega), atEnd]
    rfl
  -- Up to the new position, the buffer holds what was laid and what was written.
  have within : after.position ≤ after.buffer.length := by
    rcases wrote.inside with inside | same
    · exact inside
    · rw [same]
      omega
  refine ⟨?_, size.symm, by omega⟩
  rw [DataBuffer.content, size, ← laid_inside within, wrote.laid, before]

/-- A write makes the content longer by what does not fit between the position and its end. -/
theorem size_implWrite {bytes : Bytes} (room : b.position + bytes.length < wordBound) :
    (b.implWrite bytes).size = max b.size (b.position + bytes.length) := by
  have ⟨_, added, grown⟩ := b.makeRoom_eq bytes.length
  simp only [implWrite, grown, Nat.mod_eq_of_lt room]

theorem length_content (inside : b.size ≤ b.buffer.length) : b.content.length = b.size := by
  rw [content, List.length_take, Nat.min_eq_left inside]

/-- An insertion adds the other buffer's content, whatever else that buffer owns. -/
theorem content_insert {other : DataBuffer} (inside : b.size ≤ b.buffer.length)
    (otherInside : other.size ≤ other.buffer.length) (room : b.size + other.size < wordBound) :
    (b.insert other).content = b.content ++ other.content := by
  have front : (b.buffer.take b.size).length = b.size := length_content inside
  have whole : (b.size + other.size) % wordBound = b.size + other.size := Nat.mod_eq_of_lt room
  simp only [content, insert, whole]
  rw [List.append_assoc, List.take_append, front, Nat.add_sub_cancel_left,
    List.take_of_length_le (by omega), List.take_append_of_le_length otherInside]

/-- The sizes of sound buffers have a sum. -/
theorem Sound.room {other : DataBuffer} (sound : b.Sound) (otherSound : other.Sound) :
    b.size + other.size < wordBound := by
  have inside := sound.size_le
  have otherInside := otherSound.size_le
  have small := sound.capacity_lt
  have otherSmall := otherSound.capacity_lt
  have far : maxCapacity + maxCapacity ≤ wordBound := by decide
  omega

end Parts

/-- A buffer beside all that was added to it. -/
structure Appended (appends : List Append) (b : DataBuffer) : Prop where
  sound : b.Sound
  position_le : b.position ≤ b.size
  size_le : b.size ≤ (appends.flatMap Append.chunk).length
  whole : InOrder appends → b.content = appends.flatMap Append.chunk ∧
    (b.position < b.size ↔ ∃ append ∈ appends, append.isInsert = true ∧ append.chunk ≠ [])
  short : ¬ InOrder appends → b.size < (appends.flatMap Append.chunk).length

theorem appended_empty : Appended [] empty where
  sound := empty_sound
  position_le := Nat.le_refl _
  size_le := Nat.le_refl _
  whole := fun _ => ⟨rfl, by simp [empty]⟩
  short := fun unordered => absurd List.Pairwise.nil unordered

/-- One more addition is in order if it is no write of bytes behind inserted ones. -/
theorem inOrder_concat {appends : List Append} {append : Append} :
    InOrder (appends ++ [append]) ↔ InOrder appends ∧
      ((∃ earlier ∈ appends, earlier.isInsert = true ∧ earlier.chunk ≠ []) →
        append.isInsert = false → append.chunk = []) := by
  unfold InOrder
  rw [List.pairwise_append]
  constructor
  · intro ordered
    refine ⟨ordered.1, fun some_insert written => ?_⟩
    obtain ⟨earlier, member, inserted, bytes⟩ := some_insert
    exact ordered.2.2 earlier member append (by simp) inserted bytes written
  · intro ordered
    refine ⟨ordered.1, List.pairwise_singleton .., fun earlier member later single => ?_⟩
    rw [List.mem_singleton.mp single]
    exact fun inserted bytes => ordered.2 ⟨earlier, member, inserted, bytes⟩

/-- A write keeps the buffer beside all that was added to it. -/
theorem Appended.write {appends : List Append} {b : DataBuffer} (appended : Appended appends b)
    {bytes : Bytes} (room : b.position + bytes.length < wordBound)
    (sound : (b.implWrite bytes).Sound) :
    Appended (appends ++ [.write bytes]) (b.implWrite bytes) := by
  have size := size_implWrite room
  have moved := (implWrite_wrote room).position
  have total : ((appends ++ [Append.write bytes]).flatMap Append.chunk).length =
      (appends.flatMap Append.chunk).length + bytes.length := by
    simp [Append.chunk]
  have behind := appended.position_le
  have upper := appended.size_le
  have inserts : (∃ append ∈ appends ++ [Append.write bytes],
      append.isInsert = true ∧ append.chunk ≠ []) ↔
        ∃ append ∈ appends, append.isInsert = true ∧ append.chunk ≠ [] := by
    simp [Append.isInsert]
  refine ⟨sound, by omega, by omega, fun ordered => ?_, fun unordered => ?_⟩
  · obtain ⟨before, late⟩ := inOrder_concat.mp ordered
    obtain ⟨held, inserted⟩ := appended.whole before
    rw [inserts, ← inserted]
    rcases Nat.lt_or_ge b.position b.size with inside | atEnd
    · -- Behind an insertion, only a write of nothing is in order.
      have nothing : bytes = [] := late (inserted.mp inside) rfl
      subst nothing
      have same : (b.implWrite []).content = b.content := by
        have noRoom : b.makeRoom 0 = b := by
          rw [makeRoom, if_pos]
          have small := appended.sound.size_le
          have bounded := appended.sound.position_lt
          simp only [canRw, Nat.add_zero, Nat.mod_eq_of_lt bounded, decide_eq_true_eq]
          omega
        simp only [implWrite, List.length_nil, noRoom, Nat.add_zero, List.append_nil,
          List.take_append_drop, content]
        rw [Nat.mod_eq_of_lt appended.sound.position_lt, Nat.max_eq_left (by omega)]
      simp only [List.length_nil, Nat.add_zero] at size moved
      refine ⟨by simp [same, held, Append.chunk], by omega⟩
    · have content := ((implWrite_wrote room).content appended.sound.size_le (by omega)).1
      refine ⟨by simp [content, held, Append.chunk], by omega⟩
  · rw [inOrder_concat, not_and_or] at unordered
    rcases unordered with before | late
    · have deficit := appended.short before
      omega
    · push Not at late
      obtain ⟨some_insert, -, bytes_⟩ := late
      have some_bytes := List.length_pos_iff.mpr bytes_
      -- What was inserted last is written over, at least in part.
      by_cases before : InOrder appends
      · have inside := (appended.whole before).2.mpr some_insert
        simp only [Append.chunk] at some_bytes
        omega
      · have deficit := appended.short before
        omega

/-- An insertion keeps the buffer beside all that was added to it. -/
theorem Appended.insert {appends : List Append} {b : DataBuffer} (appended : Appended appends b)
    (other : {other : DataBuffer // other.Sound}) (sound : (b.insert other.val).Sound) :
    Appended (appends ++ [.insert other]) (b.insert other.val) := by
  -- An insertion never comes too late, so that the additions are in order if they were before.
  have room := appended.sound.room other.property
  have size : (b.insert other.val).size = b.size + other.val.size := Nat.mod_eq_of_lt room
  have moved : (b.insert other.val).position = b.position := rfl
  have length := length_content other.property.size_le
  have total : ((appends ++ [Append.insert other]).flatMap Append.chunk).length =
      (appends.flatMap Append.chunk).length + other.val.size := by
    simp [Append.chunk, length]
  have behind := appended.position_le
  have upper := appended.size_le
  have ordered : InOrder (appends ++ [.insert other]) ↔ InOrder appends := by
    rw [inOrder_concat]
    simp [Append.isInsert]
  refine ⟨sound, by omega, by omega, fun after => ?_, fun unordered => ?_⟩
  · obtain ⟨held, inserted⟩ := appended.whole (ordered.mp after)
    refine ⟨?_, ?_⟩
    · rw [content_insert appended.sound.size_le other.property.size_le room, held]
      simp [Append.chunk]
    · have nothing : other.val.content ≠ [] ↔ 0 < other.val.size := by
        rw [← length, List.length_pos_iff]
      have either : (∃ append ∈ appends ++ [Append.insert other],
          append.isInsert = true ∧ append.chunk ≠ []) ↔
            b.position < b.size ∨ 0 < other.val.size := by
        rw [inserted, ← nothing]
        simp [or_and_right, exists_or, Append.isInsert, Append.chunk]
      rw [either]
      omega
  · have deficit := appended.short (mt ordered.mpr unordered)
    omega

/-- What was added to a fresh buffer, one addition after another, as far as none has to throw. -/
theorem appended_of_appendAll {appends : List Append} {b : DataBuffer}
    (returned : empty.appendAll appends = some b) : Appended appends b := by
  -- The last addition is made to the buffer that all the others have left.
  induction appends using List.reverseRecOn generalizing b with
  | nil =>
    cases returned
    exact appended_empty
  | append_singleton appends append ih =>
    rw [appendAll, List.foldlM_append] at returned
    obtain ⟨before, earlier, later⟩ := Option.bind_eq_some_iff.mp returned
    simp only [List.foldlM_cons, List.foldlM_nil, bind_pure] at later
    have appended := ih earlier
    have sound := use_kept before append.toUse b appended.sound later
    cases append with
    | write bytes =>
      simp only [Append.toUse, use] at later
      split at later
      · rename_i room
        obtain ⟨-, rfl⟩ := allocated_some later
        exact appended.write room sound
      · cases later
    | insert other =>
      obtain ⟨-, rfl⟩ := allocated_some later
      exact appended.insert other sound

/--
A fresh buffer holds all that was added to it, in order, exactly when no bytes were written after
others were inserted.

An insertion does not move the position, so the next write starts in front of what was inserted.
-/
theorem content_appendAll_iff {appends : List Append} {b : DataBuffer}
    (returned : empty.appendAll appends = some b) :
    b.content = appends.flatMap Append.chunk ↔ InOrder appends := by
  have appended := appended_of_appendAll returned
  constructor
  · intro same
    by_contra unordered
    have deficit := appended.short unordered
    have length := length_content appended.sound.size_le
    rw [same] at length
    omega
  · intro ordered
    exact (appended.whole ordered).1

/-- A buffer that holds one byte. -/
def single (byte : UInt8) : {other : DataBuffer // other.Sound} :=
  ⟨⟨[byte], 1, 0⟩, ⟨by simp, by simp, by simp⟩⟩

/-- Two insertions are in order. -/
theorem content_appendAll_iff_single :
    (⟨[1, 2], 2, 0⟩ : DataBuffer).content = [Append.insert (single 1), .insert (single 2)].flatMap Append.chunk ↔
      InOrder [.insert (single 1), .insert (single 2)] :=
  content_appendAll_iff rfl

/-- A byte that is written after another one was inserted takes its place. -/
theorem not_content_appendAll :
    ¬ ∀ (appends : List Append) (b : DataBuffer), empty.appendAll appends = some b →
      b.content = appends.flatMap Append.chunk := by
  intro held
  have returned : empty.appendAll [.insert (single 1), .write [2]] = some ⟨[2], 1, 1⟩ := by
    have roomy : (⟨[1], 1, 0⟩ : DataBuffer).makeRoom 1 = ⟨[1], 1, 0⟩ := by
      rw [makeRoom, if_pos (by decide)]
    have written : (⟨[1], 1, 0⟩ : DataBuffer).implWrite [2] = ⟨[2], 1, 1⟩ := by
      simp [implWrite, roomy]
    have inserted : empty.use (Append.insert (single 1)).toUse = some ⟨[1], 1, 0⟩ := rfl
    rw [appendAll, List.foldlM_cons, inserted]
    simp [Append.toUse, use, written, allocated, capacity]
  exact absurd (held _ _ returned) (by decide)

end DataBuffer
end Recap
