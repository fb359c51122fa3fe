import Recap.Game.Package

/-! One request can leave the stream of a package failed, and all reads behind it fail. -/

namespace Recap.Game.DBPF

/-! ## What an item takes from the stream -/

namespace DBPFItem

variable (item : DBPFItem)

/-- What `ProcessFile` throws of an item whatever the file holds. -/
def refused : Option Failure :=
  if signed item.memSize < 0 then some .invalidMemSize
  else if signed item.compressedSize < 0 ∧ item.isCompressed then some .invalidCompressedSize
  else none

/-- How many bytes `ProcessFile` takes from the stream. -/
def wants : Nat :=
  if item.refused.isSome then 0
  else if item.isCompressed then item.compressedSize.toNat
  else item.memSize.toNat

/-- What `ProcessFile` makes of the bytes that it takes. -/
def finish (raw : Bytes) : Except Failure Bytes :=
  if item.isCompressed then item.decompress raw else .ok raw

/-- What `ProcessFile` makes of an item in a file that nothing has been read from. -/
def contents (file : Bytes) : Except Failure Bytes := (item.processFile ⟨file, 0, false⟩).1

/-- Whether the offset of an item is in front of the file, or the file ends before the item does. -/
def Spoils (file : Bytes) : Prop :=
  2 ^ 63 ≤ item.chunkOffset.toNat ∨
    item.wants ≠ 0 ∧ file.length < item.chunkOffset.toNat + item.wants

instance (file : Bytes) : Decidable (item.Spoils file) := inferInstanceAs (Decidable (_ ∨ _))

end DBPFItem

namespace FileReadStream

/-- Take bytes from the stream, which is not asked for an empty run of them. -/
def fetch (stream : FileReadStream) (count : Nat) : Except Failure Bytes × FileReadStream :=
  if count = 0 then (.ok [], stream) else stream.readBytes count

@[simp] theorem seek_file (stream : FileReadStream) (offset : UInt64) :
    (stream.seek offset).file = stream.file := by
  unfold seek
  split
  · rfl
  · split <;> rfl

@[simp] theorem fetch_file (stream : FileReadStream) (count : Nat) :
    (stream.fetch count).2.file = stream.file := by
  simp only [fetch, readBytes]
  split
  · rfl
  · split
    · rfl
    · split <;> rfl

/-- A stream that has failed stays as it is. -/
theorem seek_failed {stream : FileReadStream} (failed : stream.failed = true) (offset : UInt64) :
    stream.seek offset = stream := by
  rw [seek, if_pos failed]

/-- A stream that has failed has only empty runs of bytes left. -/
theorem fetch_failed {stream : FileReadStream} (failed : stream.failed = true) (count : Nat) :
    stream.fetch count =
      (if count = 0 then .ok [] else .error (.reading .unexpectedEnd), stream) := by
  simp only [fetch, readBytes, failed, if_true]
  split <;> rfl

/-- What a stream that has not failed gives for some bytes at an offset depends on the file alone. -/
theorem fetch_seek {stream : FileReadStream} (working : stream.failed = false) (offset : UInt64)
    (count : Nat) :
    ((stream.seek offset).fetch count).1 = ((seek ⟨stream.file, 0, false⟩ offset).fetch count).1 := by
  simp only [seek, working, Bool.false_eq_true, if_false]
  split
  · rw [fetch_failed rfl, fetch_failed rfl]
  · rfl

/-- Bytes that are all there are taken from the file. -/
theorem fetch_seek_inside {file : Bytes} {offset : UInt64} {count : Nat}
    (near : ¬ 2 ^ 63 ≤ offset.toNat) (inside : offset.toNat + count ≤ file.length) :
    ((seek ⟨file, 0, false⟩ offset).fetch count).1 = .ok ((file.drop offset.toNat).take count) := by
  simp only [seek, Bool.false_eq_true, if_false, if_neg near, fetch]
  split
  · rename_i none
    rw [none, List.take_zero]
  · simp only [readBytes, Bool.false_eq_true, if_false, if_pos inside]

/-- A stream fails where the offset is in front of the file or the bytes are not all there. -/
theorem failed_fetch_seek {stream : FileReadStream} (working : stream.failed = false)
    (offset : UInt64) (count : Nat) :
    ((stream.seek offset).fetch count).2.failed = true ↔
      2 ^ 63 ≤ offset.toNat ∨ count ≠ 0 ∧ stream.file.length < offset.toNat + count := by
  by_cases front : 2 ^ 63 ≤ offset.toNat
  · -- The seek fails, and nothing mends the stream.
    have moved : (stream.seek offset).failed = true := by
      simp only [seek, working, Bool.false_eq_true, if_false, if_pos front]
    rw [fetch_failed moved]
    exact iff_of_true moved (.inl front)
  · have moved : stream.seek offset = { stream with position := offset.toNat } := by
      simp only [seek, working, Bool.false_eq_true, if_false, if_neg front]
    rw [moved, or_iff_right front]
    by_cases none : count = 0
    · simp [fetch, none, working]
    · by_cases inside : offset.toNat + count ≤ stream.file.length
      · simp [fetch, readBytes, none, working, inside]
      · simp only [fetch, readBytes, none, working, inside, Bool.false_eq_true, if_false,
          ne_eq, not_false_eq_true, true_and, true_iff]
        omega

end FileReadStream

namespace DBPFItem

variable (item : DBPFItem)

/-- `ProcessFile` is a seek, unless the item is refused a read, and what is made of the bytes. -/
theorem processFile_eq (stream : FileReadStream) :
    item.processFile stream =
      match item.refused with
      | some failure => (.error failure, stream.seek item.chunkOffset)
      | none =>
        let (raw, stream) := (stream.seek item.chunkOffset).fetch item.wants
        (raw.bind item.finish, stream) := by
  unfold processFile wants refused
  by_cases memory : signed item.memSize < 0
  · simp [memory]
  · by_cases compressed : signed item.compressedSize < 0 ∧ item.isCompressed
    · simp [memory, compressed]
    · simp only [memory, compressed, if_false, Option.isSome_none, Bool.false_eq_true]
      -- The sizes are tested as words, and the bytes are counted as numbers.
      have zero : ∀ word : UInt32, word = 0 ↔ word.toNat = 0 := fun word =>
        UInt32.toNat_inj.symm
      cases kind : item.isCompressed with
      | true =>
        simp only [if_true, FileReadStream.fetch, zero]
        by_cases none : item.compressedSize.toNat = 0
        · simp [none, Except.bind, finish, kind]
        · simp only [none, if_false]
          generalize FileReadStream.readBytes _ item.compressedSize.toNat = read
          obtain ⟨raw, after⟩ := read
          cases raw <;> simp [Except.bind, finish, kind]
      | false =>
        simp only [Bool.false_eq_true, if_false, FileReadStream.fetch, zero]
        by_cases none : item.memSize.toNat = 0
        · simp [none, Except.bind, finish, kind]
        · simp only [none, if_false]
          generalize FileReadStream.readBytes _ item.memSize.toNat = read
          obtain ⟨raw, after⟩ := read
          cases raw <;> simp [Except.bind, finish, kind]

@[simp] theorem processFile_file (stream : FileReadStream) :
    (item.processFile stream).2.file = stream.file := by
  rw [processFile_eq]
  cases item.refused <;> simp

/-- A stream that has not failed gives the contents of an item. -/
theorem processFile_working {stream : FileReadStream} (working : stream.failed = false) :
    (item.processFile stream).1 = item.contents stream.file ∧
      ((item.processFile stream).2.failed = true ↔ item.Spoils stream.file) := by
  rw [contents, processFile_eq, processFile_eq]
  cases refusal : item.refused with
  | some failure =>
    -- Nothing is read of an item that is refused, so that only its offset counts.
    have wants : item.wants = 0 := by simp [DBPFItem.wants, refusal]
    refine ⟨rfl, ?_⟩
    have failed := FileReadStream.failed_fetch_seek working item.chunkOffset 0
    simpa [FileReadStream.fetch, Spoils, wants] using failed
  | none =>
    constructor
    · exact congrArg (Except.bind · item.finish) (FileReadStream.fetch_seek working _ _)
    · exact FileReadStream.failed_fetch_seek working item.chunkOffset item.wants

/-- What a stream that has failed gives for an item. -/
def degraded (file : Bytes) : Except Failure Bytes :=
  if item.wants = 0 then item.contents file else .error (.reading .unexpectedEnd)

/-- A stream that has failed gives the contents of an item only if it takes no bytes for them. -/
theorem processFile_failed {stream : FileReadStream} (failed : stream.failed = true) :
    item.processFile stream = (item.degraded stream.file, stream) := by
  rw [degraded, contents, processFile_eq, processFile_eq, FileReadStream.seek_failed failed]
  cases refusal : item.refused with
  | some failure => simp [wants, refusal]
  | none =>
    simp only [FileReadStream.fetch_failed failed]
    split
    · simp [FileReadStream.fetch, *]
    · rfl

end DBPFItem

/-! ## Requests, one after another -/

namespace DBPFManagerImpl

variable (manager : DBPFManagerImpl) (file : Bytes)

/-- The answer to a request by a manager whose stream has not been used. -/
def fresh (request : Request) : Except Failure (Option Bytes) :=
  match manager.choose request with
  | none => .ok none
  | some item => (item.contents file).map some

/-- The answer to a request by a manager whose stream has failed. -/
def degraded (request : Request) : Except Failure (Option Bytes) :=
  match manager.choose request with
  | none => .ok none
  | some item => (item.degraded file).map some

/-- Whether a request is for an item that leaves the stream failed. -/
def Spoils (request : Request) : Prop := ∃ item, manager.choose request = some item ∧ item.Spoils file

/-- A manager works until a request has left its stream failed. -/
theorem breaks : Latch.Breaks manager.serve
    (fun stream => stream.file = file ∧ stream.failed = false)
    (fun stream => stream.file = file ∧ stream.failed = true) (manager.Spoils file)
    (manager.fresh file) (manager.degraded file) where
  answer_sound := by
    intro stream request ⟨same, working⟩
    unfold serve fresh
    cases manager.choose request with
    | none => rfl
    | some item => exact same ▸ congrArg (Except.map some) (item.processFile_working working).1
  works_on := by
    intro stream request ⟨same, working⟩ harmless
    unfold serve
    cases chosen : manager.choose request with
    | none => exact ⟨same, working⟩
    | some item =>
      have kept := (item.processFile_working working).2
      refine ⟨(item.processFile_file stream).trans same, ?_⟩
      -- The stream has failed only if the item is one that spoils it.
      apply Bool.eq_false_iff.mpr
      intro failed
      exact harmless ⟨item, chosen, same ▸ kept.mp failed⟩
  spoilt := by
    intro stream request ⟨same, working⟩ ⟨item, chosen, harm⟩
    simp only [serve, chosen]
    exact ⟨(item.processFile_file stream).trans same,
      (item.processFile_working working).2.mpr (same ▸ harm)⟩
  answer_degraded := by
    intro stream request ⟨same, failed⟩
    unfold serve degraded
    cases manager.choose request with
    | none => rfl
    | some item => simp only [item.processFile_failed failed, same]
  stays_broken := by
    intro stream request ⟨same, failed⟩
    unfold serve
    cases manager.choose request with
    | none => exact ⟨same, failed⟩
    | some item =>
      simp only [item.processFile_failed failed]
      exact ⟨same, failed⟩

/--
Requests on one stream are answered as if each had a stream of its own exactly when none that leaves
the stream failed comes before one for which bytes are read from the file.

A request leaves the stream failed where its item starts in front of the file or ends behind it, and
no later one mends it.
-/
theorem answers_eq_fresh_iff (position : Nat) (requests : List Request) :
    Latch.answers manager.serve ⟨file, position, false⟩ requests = requests.map (manager.fresh file) ↔
      requests.Pairwise fun earlier later => manager.Spoils file earlier →
        ∀ item, manager.choose later = some item → item.wants ≠ 0 →
          item.contents file = .error (.reading .unexpectedEnd) := by
  rw [(manager.breaks file).answers_eq_iff ⟨rfl, rfl⟩]
  -- A degraded answer is the fresh one where no bytes are read or their end is not there anyway.
  apply iff_of_eq
  congr 1
  funext earlier later
  apply propext
  apply imp_congr_right
  intro _
  unfold degraded fresh
  cases manager.choose later with
  | none => simp
  | some item =>
    unfold DBPFItem.degraded
    by_cases none : item.wants = 0
    · simp [none]
    · simp only [none, if_false, Option.some.injEq, forall_eq', ne_eq, not_false_eq_true,
        forall_const]
      cases item.contents file <;> simp [Except.map, eq_comm]

end DBPFManagerImpl

end Recap.Game.DBPF
