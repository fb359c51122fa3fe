import Recap.Core.DataBufferLaws
import Recap.Lib.Flagged

/-! Integers written in groups of six and then seven bits, and the range in which they read back. -/

namespace Recap

/-- The digits an integer is written as, the first one holding six bits and the others seven. -/
def tdfDigits (value : Nat) : List Nat :=
  if value < 64 then [value] else (value % 64 + 128) :: Flagged.spell 128 (value / 64)

/-- The bytes an integer is written as. -/
def tdfBytes (value : Nat) : Bytes :=
  (tdfDigits value).map UInt8.ofNat

/-- Digits below 256 survive being stored as bytes. -/
theorem toNat_ofNat_digits {digits : List Nat} (small : ∀ digit ∈ digits, digit < 256) :
    (digits.map UInt8.ofNat).map UInt8.toNat = digits := by
  induction digits with
  | nil => rfl
  | cons digit rest ih =>
    have first : (UInt8.ofNat digit).toNat = digit :=
      UInt8.toNat_ofNat_of_lt' (small digit List.mem_cons_self)
    simp only [List.map_cons, first, ih fun later member => small later (List.mem_cons_of_mem _ member)]

/-- A written integer takes at least one byte. -/
theorem tdfBytes_ne_nil (value : Nat) : tdfBytes value ≠ [] := by
  unfold tdfBytes tdfDigits
  split <;> simp

/-- A 64-bit integer takes at most ten bytes. -/
theorem tdfBytes_length_le {value : Nat} (word : value < 2 ^ 64) : (tdfBytes value).length ≤ 10 := by
  unfold tdfBytes tdfDigits
  split
  · simp
  · -- Fifty-eight bits remain after the first byte, which is at most nine groups of seven.
    have groups := Flagged.spell_length_le (show 1 < 128 by decide) 8 (value / 64) (by omega)
    simp only [List.map_cons, List.length_cons, List.length_map]
    omega

/-- Setting the bit above some kept low bits adds it. -/
private theorem or_flag {value : Nat} (kept : value < 128) : value ||| 0x80 = value + 128 := by
  rw [Nat.or_comm, show (0x80 : Nat) = 2 ^ 7 * 1 from rfl,
    ← Nat.two_pow_add_eq_or_of_lt (show value < 2 ^ 7 from kept) 1]
  omega

private theorem low_seven (value : Nat) : value &&& 0x7F = value % 128 :=
  Nat.and_two_pow_sub_one_eq_mod value 7

private theorem low_six (value : Nat) : value &&& 0x3F = value % 64 :=
  Nat.and_two_pow_sub_one_eq_mod value 6

namespace DataBuffer

/-- The continuation loop of the encoder lays out the flagged spelling in base 128. -/
theorem encodeTdfTail_wrote (b : DataBuffer) (value : Nat)
    (room : b.position + (Flagged.spell 128 value).length < wordBound) :
    Wrote b ((Flagged.spell 128 value).map UInt8.ofNat) (b.encodeTdfTail value) := by
  -- The loop and the spelling test the same bound and drop the same seven bits.
  induction b, value using encodeTdfTail.induct with
  | case1 b value large ih =>
    have digit : value &&& 0x7F ||| 0x80 = value % 128 + 128 := by
      rw [low_seven, or_flag (by omega)]
    have rest : value >>> 7 = value / 128 := Nat.shiftRight_eq_div_pow value 7
    rw [encodeTdfTail, if_pos large, Flagged.spell_large (by decide) large]
    rw [Flagged.spell_large (by decide) large, List.length_cons] at room
    rw [digit, rest] at ih ⊢
    have first : Wrote b [UInt8.ofNat (value % 128 + 128)] (b.writeU8 (UInt8.ofNat (value % 128 + 128))) :=
      implWrite_wrote (by simp only [List.length_singleton]; omega)
    have moved := first.position
    simp only [List.length_singleton] at moved
    exact first.trans (ih (by omega))
  | case2 b value small =>
    rw [encodeTdfTail, if_neg small, Flagged.spell_small (by omega)]
    rw [Flagged.spell_small (by omega)] at room
    exact implWrite_wrote (by simpa using room)

/-- The encoder lays out the bytes of the integer. -/
theorem encodeTdfInteger_wrote (b : DataBuffer) (value : Nat)
    (room : b.position + (tdfBytes value).length < wordBound) :
    Wrote b (tdfBytes value) (b.encodeTdfInteger value) := by
  unfold encodeTdfInteger
  by_cases small : value < 0x40
  · have whole : value &&& 0xFF = value := by
      rw [show (0xFF : Nat) = 2 ^ 8 - 1 from rfl, Nat.and_two_pow_sub_one_eq_mod]
      omega
    simp only [tdfBytes, tdfDigits, if_pos small, List.map_cons, List.map_nil] at room ⊢
    rw [whole]
    exact implWrite_wrote room
  · have digit : value &&& 0x3F ||| 0x80 = value % 64 + 128 := by
      rw [low_six, or_flag (by omega)]
    have rest : value >>> 6 = value / 64 := Nat.shiftRight_eq_div_pow value 6
    simp only [tdfBytes, tdfDigits, if_neg small, List.map_cons, List.length_cons,
      List.length_map] at room ⊢
    rw [digit, rest]
    have first : Wrote b [UInt8.ofNat (value % 64 + 128)] (b.writeU8 (UInt8.ofNat (value % 64 + 128))) :=
      implWrite_wrote (by simp only [List.length_singleton]; omega)
    have moved := first.position
    simp only [List.length_singleton] at moved
    exact first.trans (encodeTdfTail_wrote _ _ (by omega))

end DataBuffer

namespace Reader

/-- The bits a continuation byte contributes go above those already assembled. -/
private theorem or_shift {value digit i : Nat} (assembled : value < 2 ^ (i * 7 - 1)) :
    value ||| ((digit &&& 0x7F) <<< (i * 7 - 1)) = value + digit % 128 * 2 ^ (i * 7 - 1) := by
  rw [low_seven, Nat.or_comm, ← Nat.shiftLeft_add_eq_or_of_lt assembled, Nat.shiftLeft_eq,
    Nat.add_comm]

private theorem next_shift {i : Nat} (positive : 0 < i) :
    2 ^ ((i + 1) * 7 - 1) = 128 * 2 ^ (i * 7 - 1) := by
  rw [show (i + 1) * 7 - 1 = 7 + (i * 7 - 1) by omega, Nat.pow_add]

/-- The continuation loop of the decoder reads a flagged spelling in base 128 within its limit. -/
theorem decodeTdfTail_eq :
    ∀ remaining i value (r : Reader) spelled (used tail : Bytes), 0 < i →
      value < 2 ^ (i * 7 - 1) → r.rest = used ++ tail →
      r.buffer.position + used.length < wordBound →
      Flagged.unspell 128 remaining (used.map UInt8.toNat) = some (spelled, []) →
      decodeTdfTail remaining i value r =
        (value + spelled * 2 ^ (i * 7 - 1), r.advance used.length) := by
  intro remaining
  induction remaining with
  | zero =>
    intro i value r spelled used tail _ _ _ _ read
    simp only [Flagged.unspell, Option.some.injEq, Prod.mk.injEq, List.map_eq_nil_iff] at read
    obtain ⟨rfl, rfl⟩ := read
    simp [decodeTdfTail]
  | succ remaining ih =>
    intro i value r spelled used tail positive assembled found noWrap read
    cases used with
    | nil => simp [Flagged.unspell] at read
    | cons byte used =>
      simp only [List.length_cons] at noWrap
      have next : r.read 1 = (byte.toNat, r.advance 1) :=
        read_byte (by rw [found, List.cons_append]) (by omega)
      simp only [decodeTdfTail, next, or_shift assembled]
      simp only [List.map_cons, Flagged.unspell] at read
      have digit := byte.toNat_lt
      by_cases final : byte.toNat < 128
      · -- An unflagged byte ends the spelling, so no byte is left over.
        rw [if_pos final] at read
        simp only [Option.some.injEq, Prod.mk.injEq, List.map_eq_nil_iff] at read
        obtain ⟨rfl, rfl⟩ := read
        rw [if_pos final, Nat.mod_eq_of_lt final]
        rfl
      · rw [if_neg final] at read
        rw [if_neg final]
        obtain ⟨⟨higher, left⟩, inner, joined⟩ := Option.map_eq_some_iff.mp read
        simp only [Prod.mk.injEq] at joined
        obtain ⟨rfl, rfl⟩ := joined
        have low : byte.toNat % 128 = byte.toNat - 128 := by omega
        have power := next_shift positive
        have room : value + byte.toNat % 128 * 2 ^ (i * 7 - 1) < 2 ^ ((i + 1) * 7 - 1) := by
          have : (byte.toNat % 128 + 1) * 2 ^ (i * 7 - 1) ≤ 128 * 2 ^ (i * 7 - 1) :=
            Nat.mul_le_mul_right _ (by omega)
          rw [Nat.add_mul] at this
          omega
        have tail_read := ih (i + 1) _ (r.advance 1) higher used tail (by omega) room
          (by simp [found]) (by simp only [advance_position]; omega) inner
        rw [tail_read, power, low, advance_advance, List.length_cons, Nat.add_comm 1]
        -- The flagged digit stands one place below everything the rest of the spelling adds.
        congr 1
        ring

/-- An integer below 2 ^ 55 reads back from its own bytes, and the reader moves past them. -/
theorem decodeTdfInteger_eq {r : Reader} {value : Nat} {tail : Bytes} (small : value < 2 ^ 55)
    (found : r.rest = tdfBytes value ++ tail)
    (noWrap : r.buffer.position + (tdfBytes value).length < wordBound) :
    r.decodeTdfInteger = (value, r.advance (tdfBytes value).length) := by
  unfold decodeTdfInteger
  by_cases single : value < 64
  · -- Below sixty-four the value is its own byte, whose top bit is clear.
    have bytes : tdfBytes value = [UInt8.ofNat value] := by simp [tdfBytes, tdfDigits, single]
    have byte : (UInt8.ofNat value).toNat = value :=
      UInt8.toNat_ofNat_of_lt' (show value < 256 by omega)
    rw [bytes] at found noWrap ⊢
    rw [read_byte found (by simpa using noWrap), byte]
    simp [show ¬ 0x80 ≤ value by omega]
  · have bytes : tdfBytes value = UInt8.ofNat (value % 64 + 128) ::
        (Flagged.spell 128 (value / 64)).map UInt8.ofNat := by
      simp [tdfBytes, tdfDigits, single]
    have byte : (UInt8.ofNat (value % 64 + 128)).toNat = value % 64 + 128 :=
      UInt8.toNat_ofNat_of_lt' (show value % 64 + 128 < 256 by omega)
    have bytesSmall : ∀ digit ∈ Flagged.spell 128 (value / 64), digit < 256 :=
      fun digit member => Flagged.spell_lt (show 1 < 128 by decide) _ digit member
    have digits := toNat_ofNat_digits bytesSmall
    -- Forty-nine bits remain after the first byte, which is exactly the seven groups read.
    have spelled := Flagged.unspell_spell (show 1 < 128 by decide) 6 (value / 64) [] (by omega)
    rw [bytes, List.length_cons] at noWrap
    rw [bytes, List.cons_append] at found
    rw [read_byte found (by omega), byte, bytes]
    simp only [if_pos (show 0x80 ≤ value % 64 + 128 by omega), low_six]
    rw [decodeTdfTail_eq 7 1 _ (r.advance 1) (value / 64)
      ((Flagged.spell 128 (value / 64)).map UInt8.ofNat) tail (by decide) (by omega)
      (by simp [found]) (by simp only [advance_position]; omega)
      (by simpa only [digits, List.append_nil] using spelled)]
    rw [advance_advance, List.length_cons, Nat.add_comm 1]
    congr 1
    omega

/-- Each continuation byte adds at most seven bits to what is assembled. -/
theorem decodeTdfTail_lt :
    ∀ remaining i value (r : Reader), 0 < i → value < 2 ^ (i * 7 - 1) →
      (decodeTdfTail remaining i value r).1 < 2 ^ ((i + remaining) * 7 - 1) := by
  intro remaining
  induction remaining with
  | zero => intro i value r _ assembled; simpa [decodeTdfTail] using assembled
  | succ remaining ih =>
    intro i value r positive assembled
    simp only [decodeTdfTail, or_shift assembled]
    have power := next_shift positive
    have room : value + (r.read 1).1 % 128 * 2 ^ (i * 7 - 1) < 2 ^ ((i + 1) * 7 - 1) := by
      have : ((r.read 1).1 % 128 + 1) * 2 ^ (i * 7 - 1) ≤ 128 * 2 ^ (i * 7 - 1) :=
        Nat.mul_le_mul_right _ (by omega)
      rw [Nat.add_mul] at this
      omega
    have grown : 2 ^ ((i + 1) * 7 - 1) ≤ 2 ^ ((i + (remaining + 1)) * 7 - 1) :=
      Nat.pow_le_pow_right (by decide) (by omega)
    split
    · exact Nat.lt_of_lt_of_le room grown
    · have deeper := ih (i + 1) _ (r.read 1).2 (by omega) room
      rwa [show i + 1 + remaining = i + (remaining + 1) by omega] at deeper

/-- Whatever the buffer and the uninitialised locals hold, a decoded integer has 55 bits at most. -/
theorem decodeTdfInteger_lt (r : Reader) : r.decodeTdfInteger.1 < 2 ^ 55 := by
  have byte := r.read_one_lt
  unfold decodeTdfInteger
  split
  · rename_i value moved took
    split
    · exact decodeTdfTail_lt 7 1 _ moved (by decide) (by rw [low_six]; omega)
    · rw [took] at byte
      omega

end Reader

/-- Write integers one after another. -/
def encodeAll (b : DataBuffer) (values : List UInt64) : DataBuffer :=
  values.foldl (fun written value => written.encodeTdfInteger value.toNat) b

/-- Read integers one after another. -/
def decodeAll : Nat → Reader → List Nat × Reader
  | 0, r => ([], r)
  | count + 1, r =>
    let (value, r) := r.decodeTdfInteger
    let (values, r) := decodeAll count r
    (value :: values, r)

/-- Writing integers lays out the bytes of each in turn. -/
theorem encodeAll_wrote (b : DataBuffer) (values : List UInt64)
    (room : b.position + 10 * values.length < wordBound) :
    DataBuffer.Wrote b (values.flatMap fun value => tdfBytes value.toNat) (encodeAll b values) := by
  induction values generalizing b with
  | nil => exact DataBuffer.Wrote.refl b
  | cons value rest ih =>
    have short := tdfBytes_length_le value.toNat_lt
    simp only [List.length_cons] at room
    have first := b.encodeTdfInteger_wrote value.toNat (by omega)
    have moved := first.position
    exact first.trans (ih _ (by omega))

/-- Reading as many integers as were written gives them back while all are below 2 ^ 55. -/
theorem decodeAll_eq (values : List UInt64) (small : ∀ value ∈ values, value.toNat < 2 ^ 55)
    (r : Reader) (tail : Bytes)
    (found : r.rest = (values.flatMap fun value => tdfBytes value.toNat) ++ tail)
    (noWrap : r.buffer.position + (values.flatMap fun value => tdfBytes value.toNat).length <
      wordBound) :
    decodeAll values.length r = (values.map UInt64.toNat,
      r.advance (values.flatMap fun value => tdfBytes value.toNat).length) := by
  induction values generalizing r with
  | nil => rfl
  | cons value rest ih =>
    simp only [List.flatMap_cons, List.length_append, List.append_assoc] at found noWrap
    have first := Reader.decodeTdfInteger_eq (small value List.mem_cons_self) found (by omega)
    have later := ih (fun v member => small v (List.mem_cons_of_mem _ member))
      (r.advance (tdfBytes value.toNat).length) (by simp [found])
      (by simp only [Reader.advance_position]; omega)
    simp only [List.length_cons, decodeAll, first, later, List.map_cons, List.flatMap_cons,
      List.length_append, Reader.advance_advance]

/-- Every integer that was read has fifty-five bits at most. -/
theorem decodeAll_lt (count : Nat) (r : Reader) :
    ∀ value ∈ (decodeAll count r).1, value < 2 ^ 55 := by
  induction count generalizing r with
  | zero => simp [decodeAll]
  | succ count ih =>
    intro value member
    simp only [decodeAll, List.mem_cons] at member
    rcases member with rfl | later
    · exact r.decodeTdfInteger_lt
    · exact ih _ value later

/--
What a reader expects of integers written from a position on.

Reading as many integers from that position returns them and ends where writing ended.
-/
def RoundTrips (b : DataBuffer) (uninit : Nat → Nat) (values : List UInt64) : Prop :=
  let written := encodeAll b values
  let (decoded, r) := decodeAll values.length ⟨{ written with position := b.position }, uninit⟩
  decoded = values.map UInt64.toNat ∧ r.buffer.position = written.position

/-- Integers below 2 ^ 55 round-trip wherever they are written. -/
theorem RoundTrips.of_small {b : DataBuffer} {uninit : Nat → Nat} {values : List UInt64}
    (room : b.position + 10 * values.length < wordBound)
    (small : ∀ value ∈ values, value.toNat < 2 ^ 55) : RoundTrips b uninit values := by
  have wrote := encodeAll_wrote b values room
  have short : (values.flatMap fun value => tdfBytes value.toNat).length ≤ 10 * values.length := by
    rw [List.length_flatMap]
    calc (values.map fun value => (tdfBytes value.toNat).length).sum
        ≤ (values.map fun _ => 10).sum :=
          List.sum_le_sum fun value _ => tdfBytes_length_le value.toNat_lt
      _ = 10 * values.length := by simp [Nat.mul_comm]
  obtain ⟨tail, found⟩ := wrote.found
  have read := decodeAll_eq values small
    ⟨{ encodeAll b values with position := b.position }, uninit⟩ tail found (by
      dsimp only
      omega)
  simp only [RoundTrips, read, true_and, Reader.advance_position]
  exact wrote.position.symm

/-- A round trip returns integers that were decoded, so none of them exceeds 55 bits. -/
theorem RoundTrips.small {b : DataBuffer} {uninit : Nat → Nat} {values : List UInt64}
    (trips : RoundTrips b uninit values) : ∀ value ∈ values, value.toNat < 2 ^ 55 := by
  intro value member
  refine decodeAll_lt values.length
    ⟨{ encodeAll b values with position := b.position }, uninit⟩ _ ?_
  rw [trips.1]
  exact List.mem_map_of_mem member

/-- Written integers round-trip exactly when each of them is below 2 ^ 55. -/
theorem roundTrips_iff_small (b : DataBuffer) (uninit : Nat → Nat) (values : List UInt64)
    (room : b.position + 10 * values.length < wordBound) :
    RoundTrips b uninit values ↔ ∀ value ∈ values, value.toNat < 2 ^ 55 :=
  ⟨RoundTrips.small, RoundTrips.of_small room⟩

/-- A two-integer list just below the bound round-trips from a fresh buffer. -/
theorem roundTrips_iff_small_fresh :
    DataBuffer.empty.position + 10 * [(5 : UInt64), 2 ^ 55 - 1].length < wordBound ∧
      (RoundTrips DataBuffer.empty (fun _ => 0) [5, 2 ^ 55 - 1] ↔
        ∀ value ∈ [(5 : UInt64), 2 ^ 55 - 1], value.toNat < 2 ^ 55) :=
  ⟨by decide, roundTrips_iff_small _ _ _ (by decide)⟩

/-- The integer 2 ^ 55 takes nine bytes, of which only eight are read. -/
theorem roundTrips_fails_at_bound : ¬ RoundTrips DataBuffer.empty (fun _ => 0) [2 ^ 55] := by
  intro trips
  exact absurd (trips.small (2 ^ 55) (by simp)) (by decide)

end Recap
