import Recap.Lib.Outcome

/-! Decoders that move through a file, the bytes that they read back, and the bytes that they use up. -/

namespace Recap.Decoding

/-- A place in a file. -/
structure Cursor where
  file : List UInt8
  position : Nat
  deriving DecidableEq, Repr

/-- A decoder returns a value and moves, or throws. -/
abbrev Decoder (ε α : Type) := Program Cursor ε α

variable {ε α β : Type}

/-- Read a number of bytes, or throw where fewer are left. -/
def take (fault : ε) (count : Nat) : Decoder ε (List UInt8) := fun cursor =>
  if cursor.position + count ≤ cursor.file.length then
    .done ((cursor.file.drop cursor.position).take count,
      { cursor with position := cursor.position + count })
  else .thrown fault

/-- Move forward without looking at the file. -/
def skip (count : Nat) : Decoder ε Unit :=
  .act fun cursor => ((), { cursor with position := cursor.position + count })

/-- Move to a place. -/
def seek (position : Nat) : Decoder ε Unit := .act fun cursor => ((), { cursor with position })

/-- The place. -/
def tell : Decoder ε Nat := .act fun cursor => (cursor.position, cursor)

/-! ## Numbers -/

/-- The number whose bytes these are, from the lowest to the highest. -/
def littleEndian : List UInt8 → Nat
  | [] => 0
  | byte :: rest => byte.toNat + 256 * littleEndian rest

/-- The lowest bytes of a number, from the lowest up. -/
def lowBytes : (width number : Nat) → List UInt8
  | 0, _ => []
  | width + 1, number => UInt8.ofNat number :: lowBytes width (number / 256)

@[simp] theorem lowBytes_length (width number : Nat) : (lowBytes width number).length = width := by
  induction width generalizing number with
  | zero => rfl
  | succ width ih => rw [lowBytes, List.length_cons, ih]

/-- The lowest bytes of a number make the number, if they are enough for it. -/
theorem littleEndian_lowBytes {width number : Nat} (small : number < 256 ^ width) :
    littleEndian (lowBytes width number) = number := by
  -- One byte is taken off on either side.
  induction width generalizing number with
  | zero =>
    rw [pow_zero] at small
    rw [lowBytes, littleEndian]
    omega
  | succ width ih =>
    have fewer : number / 256 < 256 ^ width := by
      rw [pow_succ] at small
      exact Nat.div_lt_of_lt_mul (by omega)
    rw [lowBytes, littleEndian, ih fewer, UInt8.toNat_ofNat']
    exact Nat.mod_add_div number 256

/-! ## What is read back -/

/-- Behind some bytes the decoder makes the value of the bytes that come next, and ends behind them. -/
def ReadsAt (front : List UInt8) (part : Decoder ε α) (bytes : List UInt8) (value : α) : Prop :=
  ∀ back, part ⟨front ++ (bytes ++ back), front.length⟩ =
    .done (value, ⟨front ++ (bytes ++ back), front.length + bytes.length⟩)

/-- The decoder makes the value of the bytes wherever they stand. -/
def Reads (part : Decoder ε α) (bytes : List UInt8) (value : α) : Prop :=
  ∀ front, ReadsAt front part bytes value

theorem Reads.pure (value : α) : Reads (Pure.pure value : Decoder ε α) [] value := by
  intro front back
  rfl

theorem readsAt_tell (front : List UInt8) : ReadsAt front (tell : Decoder ε Nat) [] front.length := by
  intro back
  rfl

theorem readsAt_seek (front : List UInt8) : ReadsAt front (seek front.length : Decoder ε Unit) [] () := by
  intro back
  rfl

/-- Decoders in sequence read their bytes in sequence. -/
theorem ReadsAt.bind {front : List UInt8} {part : Decoder ε α} {next : α → Decoder ε β}
    {first second : List UInt8} {value : α} {result : β} (before : ReadsAt front part first value)
    (later : ReadsAt (front ++ first) (next value) second result) :
    ReadsAt front (part >>= next) (first ++ second) result := by
  intro back
  have here := before (second ++ back)
  have there := later back
  -- The second part starts behind the first one's bytes.
  rw [List.length_append, List.append_assoc] at there
  rw [List.append_assoc, Program.bind_done here, there, List.length_append, Nat.add_assoc]

theorem Reads.bind {part : Decoder ε α} {next : α → Decoder ε β} {first second : List UInt8}
    {value : α} {result : β} (before : Reads part first value)
    (later : Reads (next value) second result) : Reads (part >>= next) (first ++ second) result :=
  fun front => (before front).bind (later (front ++ first))

theorem Reads.map {part : Decoder ε α} {bytes : List UInt8} {value : α}
    (reads : Reads part bytes value) (change : α → β) :
    Reads (part >>= fun value => Pure.pure (change value)) bytes (change value) := by
  have both := @Reads.bind _ _ _ _ (fun value => Pure.pure (change value)) _ _ _ _ reads
    (Reads.pure (change value))
  rwa [List.append_nil] at both

theorem reads_take (fault : ε) (bytes : List UInt8) : Reads (take fault bytes.length) bytes bytes := by
  intro front back
  have room : front.length + bytes.length ≤ (front ++ (bytes ++ back)).length := by
    simp only [List.length_append]
    omega
  simp only [take, if_pos room, List.drop_left, List.take_left]

theorem reads_skip (bytes : List UInt8) : Reads (skip bytes.length : Decoder ε Unit) bytes () := by
  intro front back
  rfl

/-- Decoding one piece after another reads the bytes of all of them. -/
theorem Reads.repeated {Piece : Type} {round : α → Decoder ε α} {bytes : Piece → List UInt8}
    {grow : α → Piece → α} {pieces : List Piece}
    (each : ∀ piece ∈ pieces, ∀ value, Reads (round value) (bytes piece) (grow value piece))
    (value : α) :
    Reads (Program.repeated round pieces.length value) (pieces.flatMap bytes)
      (pieces.foldl grow value) := by
  induction pieces generalizing value with
  | nil => exact Reads.pure value
  | cons piece rest ih =>
    have now := each piece List.mem_cons_self value
    have later := ih (fun other member => each other (List.mem_cons_of_mem _ member))
      (grow value piece)
    rw [List.flatMap_cons, List.length_cons, List.foldl_cons, Program.repeated]
    exact now.bind later

/-- Some bytes stand at a place in a file. -/
def StandsAt (file : List UInt8) (place : Nat) (bytes : List UInt8) : Prop :=
  ∃ front back, file = front ++ (bytes ++ back) ∧ front.length = place

/-- What reads the bytes behind everything in front of them reads them where they stand. -/
theorem StandsAt.read {file bytes : List UInt8} {place : Nat} (stands : StandsAt file place bytes)
    {part : Decoder ε α} {value : List UInt8 → α}
    (reads : ∀ front, front.length = place → ReadsAt front part bytes (value front)) :
    ∃ front, front.length = place ∧
      part ⟨file, place⟩ = .done (value front, ⟨file, place + bytes.length⟩) := by
  obtain ⟨front, back, rfl, rfl⟩ := stands
  exact ⟨front, rfl, reads front rfl back⟩

/-- Bytes that stand in a file are inside it, and are what a read of as many bytes takes. -/
theorem StandsAt.bytes {file bytes : List UInt8} {place : Nat} (stands : StandsAt file place bytes) :
    place + bytes.length ≤ file.length ∧ (file.drop place).take bytes.length = bytes := by
  obtain ⟨front, back, rfl, rfl⟩ := stands
  constructor
  · simp only [List.length_append]
    omega
  · rw [List.drop_left, List.take_left]

/-! ## What is used up -/

/--
A decoder that returns has moved by a known number of bytes.

It ends inside the file, or no more than the slack behind both the end and where it started.
-/
def Uses (part : Decoder ε α) (count slack : Nat) : Prop :=
  ∀ cursor value after, part cursor = .done (value, after) →
    after.file = cursor.file ∧ after.position = cursor.position + count ∧
      after.position ≤ max cursor.position cursor.file.length + slack

theorem Uses.pure (value : α) : Uses (Pure.pure value : Decoder ε α) 0 0 := by
  intro cursor result after returned
  cases returned
  exact ⟨rfl, rfl, Nat.le_max_left _ _⟩

theorem Uses.bind {part : Decoder ε α} {next : α → Decoder ε β} {first second slack : Nat}
    (before : Uses part first 0) (later : ∀ value, Uses (next value) second slack) :
    Uses (part >>= next) (first + second) slack := by
  intro cursor result after returned
  obtain ⟨value, middle, ran, ended⟩ := Program.bind_eq_done returned
  obtain ⟨sameFile, moved, inside⟩ := before _ _ _ ran
  obtain ⟨alsoSame, alsoMoved, alsoInside⟩ := later _ _ _ _ ended
  refine ⟨alsoSame.trans sameFile, by omega, ?_⟩
  rw [sameFile] at alsoInside
  omega

theorem Uses.map {part : Decoder ε α} {count slack : Nat} (uses : Uses part count slack)
    (change : α → β) : Uses (part >>= fun value => Pure.pure (change value)) count slack := by
  intro cursor result after returned
  obtain ⟨value, middle, ran, ended⟩ := Program.bind_eq_done returned
  cases ended
  exact uses _ _ _ ran

theorem uses_take (fault : ε) (count : Nat) : Uses (take fault count) count 0 := by
  intro cursor value after returned
  unfold take at returned
  split at returned
  · rename_i room
    cases returned
    exact ⟨rfl, rfl, Nat.le_trans room (Nat.le_max_right _ _)⟩
  · cases returned

theorem uses_skip (count : Nat) : Uses (skip count : Decoder ε Unit) count count := by
  intro cursor value after returned
  cases returned
  exact ⟨rfl, rfl, Nat.add_le_add_right (Nat.le_max_left _ _) _⟩

theorem uses_throw (fault : ε) (count slack : Nat) :
    Uses (Program.throw fault : Decoder ε α) count slack := by
  intro cursor value after returned
  cases returned

/-- Rounds that read more than they may skip end inside the file, up to what the last one skips. -/
theorem Uses.repeated {round : α → Decoder ε α} {count slack : Nat} (more : slack < count)
    (each : ∀ value, Uses (round value) count slack) {rounds : Nat} (some_rounds : 0 < rounds)
    {value result : α} {cursor after : Cursor}
    (returned : Program.repeated round rounds value cursor = .done (result, after)) :
    after.position = cursor.position + rounds * count ∧
      after.position ≤ cursor.file.length + slack := by
  -- The induction is on the rounds, and the last one has to find its bytes.
  induction rounds generalizing value cursor with
  | zero => exact absurd some_rounds (Nat.lt_irrefl 0)
  | succ rounds ih =>
    obtain ⟨next, middle, ran, ended⟩ := Program.bind_eq_done returned
    obtain ⟨same, moved, inside⟩ := each value _ _ _ ran
    have bounded : middle.position ≤ cursor.file.length + slack := by omega
    cases rounds with
    | zero =>
      cases ended
      exact ⟨by omega, bounded⟩
    | succ rounds =>
      obtain ⟨total, last⟩ := ih (Nat.succ_pos rounds) ended
      rw [same] at last
      refine ⟨?_, last⟩
      rw [total, moved]
      ring

end Recap.Decoding
