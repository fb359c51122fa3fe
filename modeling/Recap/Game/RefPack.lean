import Recap.Core.DataBuffer

/-! The decompressor that unpacks assets, and the commands its input is made of. -/

namespace Recap.RefPack

/-- The errors that stop the decompressor. -/
inductive Fault where
  | inputTooSmall
  | unknownType
  | outputTooSmall
  | truncated
  | plainExceedsOutput
  | invalidOffset
  | copyExceedsOutput
  deriving DecidableEq, Repr

/-- The text each error is thrown with. -/
def Fault.what : Fault → String
  | .inputTooSmall => "input too small"
  | .unknownType => "unknown compression type"
  | .outputTooSmall => "output buffer too small"
  | .truncated => "compressed data truncated"
  | .plainExceedsOutput => "plain run exceeds output"
  | .invalidOffset => "invalid copy offset"
  | .copyExceedsOutput => "copy run exceeds output"

/-- The decompressor between two commands. -/
structure Decoder where
  /-- How many input bytes are used up. -/
  pin : Nat
  /-- How many output bytes are produced. -/
  size : Nat
  /-- The caller's whole output buffer. -/
  output : Bytes
  deriving DecidableEq, Repr

/-- What one command asks for, once its control bytes are unpacked. -/
structure Request where
  numPlain : Nat
  numCopy : Nat
  copyOff : Nat
  deriving DecidableEq, Repr

/-- One byte of the input as a number. -/
def byteAt (input : Bytes) (pin : Nat) : Nat := (input.getD pin 0).toNat

/-- Unpack the control bytes of a command, and move past them. -/
def readControl (input : Bytes) (pin : Nat) : Except Fault (Request × Nat) :=
  if input.length ≤ pin then .error .truncated else
  let ctrl := byteAt input pin
  let pin := pin + 1
  if 252 ≤ ctrl then .ok (⟨ctrl &&& 0x03, 0, 0⟩, pin)
  else if 224 ≤ ctrl then .ok (⟨((ctrl &&& 0x1F) <<< 2) + 4, 0, 0⟩, pin)
  else if 192 ≤ ctrl then
    if input.length < pin + 3 then .error .truncated else
    let b1 := byteAt input pin
    let b2 := byteAt input (pin + 1)
    let b3 := byteAt input (pin + 2)
    .ok (⟨ctrl &&& 0x03, ((ctrl &&& 0x0C) <<< 6) + b3 + 5,
      ((ctrl &&& 0x10) <<< 12) + (b1 <<< 8) + b2 + 1⟩, pin + 3)
  else if 128 ≤ ctrl then
    if input.length < pin + 2 then .error .truncated else
    let b2 := byteAt input pin
    let b3 := byteAt input (pin + 1)
    .ok (⟨((b2 &&& 0xC0) >>> 6) &&& 0x03, (ctrl &&& 0x3F) + 4,
      ((b2 &&& 0x3F) <<< 8) + b3 + 1⟩, pin + 2)
  else
    if input.length < pin + 1 then .error .truncated else
    let b1 := byteAt input pin
    .ok (⟨ctrl &&& 0x03, ((ctrl &&& 0x1C) >>> 2) + 3, ((ctrl &&& 0x60) <<< 3) + b1 + 1⟩, pin + 1)

/-- `memcpy` into the output at some place. -/
def blit (output : Bytes) (place : Nat) (bytes : Bytes) : Bytes :=
  output.take place ++ bytes ++ output.drop (place + bytes.length)

/-- Copy the plain bytes that follow the control bytes. -/
def plainRun (input : Bytes) (decompSize numPlain : Nat) (s : Decoder) : Decoder × Option Fault :=
  if numPlain = 0 then (s, none)
  else if input.length < s.pin + numPlain then (s, some .truncated)
  else if decompSize < s.size + numPlain then (s, some .plainExceedsOutput)
  else
    ({ output := blit s.output s.size ((input.drop s.pin).take numPlain)
       pin := s.pin + numPlain
       size := s.size + numPlain }, none)

/-- The overlapping copy, one byte at a time. -/
def copyLoop (copyOff : Nat) : Nat → Decoder → Decoder
  | 0, s => s
  | numCopy + 1, s =>
    copyLoop copyOff numCopy { s with
      output := s.output.set s.size (s.output.getD (s.size - copyOff) 0)
      size := s.size + 1 }

/-- The block copy, for source and target that do not overlap. -/
def copyBlock (copyOff numCopy : Nat) (s : Decoder) : Decoder :=
  { s with
    output := blit s.output s.size ((s.output.drop (s.size - copyOff)).take numCopy)
    size := s.size + numCopy }

/-- Copy earlier output to the end of the output. -/
def copyRun (decompSize : Nat) (request : Request) (s : Decoder) : Decoder × Option Fault :=
  if request.numCopy = 0 then (s, none)
  -- The offset is one more than an unsigned number, so only its upper bound can fail.
  else if s.size < request.copyOff then (s, some .invalidOffset)
  else if decompSize < s.size + request.numCopy then (s, some .copyExceedsOutput)
  else if request.copyOff < request.numCopy then
    (copyLoop request.copyOff request.numCopy s, none)
  else (copyBlock request.copyOff request.numCopy s, none)

/-- One round of the decompressor: a command's control bytes, plain bytes, and copy. -/
def step (input : Bytes) (decompSize : Nat) (s : Decoder) : Decoder × Option Fault :=
  match readControl input s.pin with
  | .error fault => (s, some fault)
  | .ok (request, pin) =>
    match plainRun input decompSize request.numPlain { s with pin := pin } with
    | (s, some fault) => (s, some fault)
    | (s, none) => copyRun decompSize request s

/-- Control bytes move the input forward by one byte at least, starting inside the input. -/
theorem readControl_moves {input : Bytes} {pin next : Nat} {request : Request}
    (unpacked : readControl input pin = .ok (request, next)) : pin < input.length ∧ pin < next := by
  unfold readControl at unpacked
  split at unpacked
  · simp at unpacked
  · rename_i inside
    refine ⟨by omega, ?_⟩
    dsimp only at unpacked
    -- Each layout moves past the control byte and the bytes it brings along.
    repeat' split at unpacked
    all_goals
      simp only [Except.ok.injEq, Prod.mk.injEq, reduceCtorEq] at unpacked
      try omega

theorem plainRun_pin (input : Bytes) (decompSize numPlain : Nat) (s : Decoder) :
    s.pin ≤ (plainRun input decompSize numPlain s).1.pin := by
  unfold plainRun
  split <;> [skip; split <;> [skip; split]] <;> simp

theorem copyLoop_pin (copyOff numCopy : Nat) (s : Decoder) :
    (copyLoop copyOff numCopy s).pin = s.pin := by
  induction numCopy generalizing s with
  | zero => rfl
  | succ numCopy ih => rw [copyLoop, ih]

theorem copyRun_pin (decompSize : Nat) (request : Request) (s : Decoder) :
    (copyRun decompSize request s).1.pin = s.pin := by
  unfold copyRun
  repeat' split
  all_goals first | rfl | exact copyLoop_pin _ _ _

/-- Every completed round uses up at least one byte of the input. -/
theorem step_moves {input : Bytes} {decompSize : Nat} {s next : Decoder}
    (taken : step input decompSize s = (next, none)) :
    s.pin < input.length ∧ s.pin < next.pin := by
  unfold step at taken
  cases unpacked : readControl input s.pin with
  | error fault => simp [unpacked] at taken
  | ok result =>
    obtain ⟨request, pin⟩ := result
    obtain ⟨inside, moved⟩ := readControl_moves unpacked
    have plain := plainRun_pin input decompSize request.numPlain { s with pin := pin }
    rw [unpacked] at taken
    dsimp only at taken
    split at taken
    · simp at taken
    · rename_i between ran
      rw [ran] at plain
      have same := copyRun_pin decompSize request between
      rw [taken] at same
      exact ⟨inside, by dsimp only at plain same; omega⟩

/-- The main loop, which runs until the output is complete. -/
def decompressLoop (input : Bytes) (decompSize : Nat) (s : Decoder) : Decoder × Option Fault :=
  if s.size < decompSize then
    match _taken : step input decompSize s with
    | (next, some fault) => (next, some fault)
    | (next, none) => decompressLoop input decompSize next
  else (s, none)
termination_by input.length - s.pin
decreasing_by
  have := step_moves _taken
  omega

/-- The loop stops once the output is complete. -/
theorem decompressLoop_complete {input : Bytes} {decompSize : Nat} {s : Decoder}
    (complete : decompSize ≤ s.size) : decompressLoop input decompSize s = (s, none) := by
  rw [decompressLoop, if_neg (Nat.not_lt.mpr complete)]

/-- A round that completes hands its state to the rest of the loop. -/
theorem decompressLoop_round {input : Bytes} {decompSize : Nat} {s next : Decoder}
    (more : s.size < decompSize) (taken : step input decompSize s = (next, none)) :
    decompressLoop input decompSize s = decompressLoop input decompSize next := by
  rw [decompressLoop, if_pos more]
  split
  · rename_i failed
    simp [taken] at failed
  · rename_i reached
    rw [taken] at reached
    rw [(Prod.mk.inj reached).1]

/-- The number of output bytes that the header announces. -/
def headerSize (input : Bytes) : Nat :=
  (byteAt input 2 <<< 16) ||| (byteAt input 3 <<< 8) ||| byteAt input 4

/-- Decompress the input into a buffer, and give the buffer back with the error if there was one. -/
def decompressFast (input output : Bytes) : Bytes × Option Fault :=
  if input.length < 5 then (output, some .inputTooSmall) else
  let cType := byteAt input 0
  if cType ≠ 0x10 ∧ cType ≠ 0x50 then (output, some .unknownType) else
  -- Twenty-four bits are never negative as an `int`, so that check of the source cannot fail.
  let decompSize := headerSize input
  if output.length < decompSize then (output, some .outputTooSmall) else
  let (s, fault) := decompressLoop input decompSize ⟨5, 0, output⟩
  (s.output, fault)

end Recap.RefPack
