import Recap.Game.RefPackStream

/-! The memory that decompression touches, which is all inside the input and the announced output. -/

namespace Recap.RefPack

/-- One byte that the decompressor touches. A copy reads what is in the output. -/
inductive Access where
  | read (index : Nat)
  | write (index : Nat)
  | copy (index : Nat)
  deriving DecidableEq

section Accesses

open Access

/-- The reads of a command's control bytes. Those behind the first are checked for together. -/
def controlAccesses (input : Bytes) (pin : Nat) : List Access :=
  if input.length ≤ pin then [] else
  let ctrl := byteAt input pin
  let more := if 224 ≤ ctrl then 0 else if 192 ≤ ctrl then 3 else if 128 ≤ ctrl then 2 else 1
  read pin :: if input.length < pin + 1 + more then [] else (List.range' (pin + 1) more).map read

/-- The `memcpy` of plain bytes, behind its checks. -/
def plainAccesses (input : Bytes) (decompSize numPlain : Nat) (s : Decoder) : List Access :=
  if input.length < s.pin + numPlain ∨ decompSize < s.size + numPlain then []
  else (List.range' s.pin numPlain).map read ++ (List.range' s.size numPlain).map write

/-- The overlapping copy, one byte after another. -/
def loopAccesses (copyOff : Nat) : (numCopy size : Nat) → List Access
  | 0, _ => []
  | numCopy + 1, size => copy (size - copyOff) :: write size :: loopAccesses copyOff numCopy (size + 1)

/-- The copy of earlier output, behind its checks. -/
def copyAccesses (decompSize : Nat) (request : Request) (s : Decoder) : List Access :=
  if request.numCopy = 0 ∨ s.size < request.copyOff ∨ decompSize < s.size + request.numCopy then []
  else if request.copyOff < request.numCopy then
    loopAccesses request.copyOff request.numCopy s.size
  else
    (List.range' (s.size - request.copyOff) request.numCopy).map copy ++
      (List.range' s.size request.numCopy).map write

/-- What one round touches. -/
def stepAccesses (input : Bytes) (decompSize : Nat) (s : Decoder) : List Access :=
  controlAccesses input s.pin ++
    match readControl input s.pin with
    | .error _ => []
    | .ok (request, pin) =>
      plainAccesses input decompSize request.numPlain { s with pin := pin } ++
        match plainRun input decompSize request.numPlain { s with pin := pin } with
        | (_, some _) => []
        | (s, none) => copyAccesses decompSize request s

/-- What the main loop touches. -/
def roundAccesses (input : Bytes) (decompSize : Nat) (s : Decoder) : List Access :=
  if s.size < decompSize then
    match _taken : step input decompSize s with
    | (_, some _) => stepAccesses input decompSize s
    | (next, none) => stepAccesses input decompSize s ++ roundAccesses input decompSize next
  else []
termination_by input.length - s.pin
decreasing_by
  have := step_moves _taken
  omega

/-- What a decompression touches, in order. The second byte of the header is skipped. -/
def accesses (input output : Bytes) : List Access :=
  if input.length < 5 then []
  else if byteAt input 0 ≠ 0x10 ∧ byteAt input 0 ≠ 0x50 then [read 0]
  else
    [read 0, read 2, read 3, read 4] ++
      if output.length < headerSize input then []
      else roundAccesses input (headerSize input) ⟨5, 0, output⟩

end Accesses

/--
Every access is where it may be: a read inside the input, a write inside the announced size and the
output buffer, and a copy from where something was written before.
-/
def Contained (inputSize outputSize decompSize : Nat) (written : List Nat) : List Access → Prop
  | [] => True
  | .read index :: rest => index < inputSize ∧ Contained inputSize outputSize decompSize written rest
  | .write index :: rest =>
    index < decompSize ∧ index < outputSize ∧
      Contained inputSize outputSize decompSize (index :: written) rest
  | .copy index :: rest =>
    index ∈ written ∧ Contained inputSize outputSize decompSize written rest

section Contained

variable {inputSize outputSize decompSize : Nat} {written : List Nat}

/-- The places that some accesses write to. -/
def writes (accesses : List Access) : List Nat :=
  accesses.filterMap fun access =>
    match access with
    | .write index => some index
    | _ => none

theorem mem_writes {accesses : List Access} {index : Nat} :
    index ∈ writes accesses ↔ .write index ∈ accesses := by
  unfold writes
  rw [List.mem_filterMap]
  constructor
  · rintro ⟨access, member, same⟩
    cases access with
    | write place =>
      cases same
      exact member
    | read place => cases same
    | copy place => cases same
  · exact fun member => ⟨_, member, rfl⟩

/-- More may have been written before. -/
theorem Contained.mono {accesses : List Access} {more : List Nat}
    (contained : Contained inputSize outputSize decompSize written accesses)
    (included : ∀ index ∈ written, index ∈ more) :
    Contained inputSize outputSize decompSize more accesses := by
  induction accesses generalizing written more with
  | nil => trivial
  | cons access rest ih =>
    cases access with
    | read index => exact ⟨contained.1, ih contained.2 included⟩
    | copy index => exact ⟨included _ contained.1, ih contained.2 included⟩
    | write index =>
      obtain ⟨announced, inside, later⟩ := contained
      refine ⟨announced, inside, ih later fun place member => ?_⟩
      rcases List.mem_cons.mp member with rfl | member
      · exact List.mem_cons_self
      · exact List.mem_cons_of_mem _ (included _ member)

/-- What comes second may copy from what was written first. -/
theorem Contained.append {first second : List Access}
    (before : Contained inputSize outputSize decompSize written first)
    (after : Contained inputSize outputSize decompSize (writes first ++ written) second) :
    Contained inputSize outputSize decompSize written (first ++ second) := by
  induction first generalizing written with
  | nil => exact after
  | cons access rest ih =>
    cases access with
    | read index => exact ⟨before.1, ih before.2 after⟩
    | copy index => exact ⟨before.1, ih before.2 after⟩
    | write index =>
      obtain ⟨announced, inside, later⟩ := before
      refine ⟨announced, inside, ih later (after.mono fun place member => ?_)⟩
      -- The place just written is in front on one side and in the middle on the other.
      simp only [writes, List.filterMap_cons, List.mem_append, List.mem_cons] at member ⊢
      tauto

end Contained

/--
A part of the decompression fills the output from where it was to where it is now.

It touches only what it may, if all that comes before was written, and changes nothing else.
-/
structure Fills (input : Bytes) (decompSize : Nat) (s next : Decoder) (accesses : List Access) : Prop where
  onward : s.size ≤ next.size
  announced : next.size ≤ decompSize
  length : next.output.length = s.output.length
  kept : ∀ index, index < s.size ∨ next.size ≤ index → next.output[index]? = s.output[index]?
  written : ∀ index, s.size ≤ index → index < next.size → .write index ∈ accesses
  contained : ∀ written : List Nat, (∀ index < s.size, index ∈ written) →
    Contained input.length s.output.length decompSize written accesses

section Fills

variable {input : Bytes} {decompSize : Nat} {s next last : Decoder}

theorem Fills.nothing (announced : s.size ≤ decompSize) : Fills input decompSize s s [] where
  onward := Nat.le_refl _
  announced := announced
  length := rfl
  kept := fun _ _ => rfl
  written := by omega
  contained := fun _ _ => trivial

/-- One part after another, where the second starts where the first has come to. -/
theorem Fills.trans {first second : List Access} (before : Fills input decompSize s next first)
    (after : Fills input decompSize next last second) :
    Fills input decompSize s last (first ++ second) where
  onward := Nat.le_trans before.onward after.onward
  announced := after.announced
  length := after.length.trans before.length
  kept := by
    intro index outside
    have early := before.onward
    have late := after.onward
    rw [after.kept index (by omega), before.kept index (by omega)]
  written := by
    intro index least below
    by_cases early : index < next.size
    · exact List.mem_append_left _ (before.written index least early)
    · exact List.mem_append_right _ (after.written index (by omega) below)
  contained := by
    intro written filled
    refine (before.contained written filled).append ?_
    rw [← before.length]
    -- What the first part has filled is written by now.
    refine after.contained _ fun index below => List.mem_append.mpr ?_
    by_cases early : index < s.size
    · exact .inr (filled index early)
    · exact .inl (mem_writes.mpr (before.written index (by omega) below))

/-- Reads of the input fill nothing. -/
theorem Fills.reads {accesses : List Access} {pin : Nat} (announced : s.size ≤ decompSize)
    (contained : ∀ outputSize written,
      Contained input.length outputSize decompSize written accesses) :
    Fills input decompSize s { s with pin := pin } accesses where
  onward := Nat.le_refl _
  announced := announced
  length := rfl
  kept := fun _ _ => rfl
  written := by
    intro index least below
    exact absurd below (Nat.not_lt.mpr least)
  contained := fun written _ => contained _ written

end Fills

end Recap.RefPack
