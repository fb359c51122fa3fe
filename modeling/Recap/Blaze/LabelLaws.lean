import Recap.Blaze.Tree

/-! Labels survive being packed into six bits a character, and never start like a terminator. -/

namespace Recap.Blaze

/-- Bits below a multiple of a power of two are added to it. -/
private theorem or_low {low : Nat} (width high : Nat) (small : low < 2 ^ width) :
    2 ^ width * high ||| low = 2 ^ width * high + low :=
  (Nat.two_pow_add_eq_or_of_lt small high).symm

/-- Four bytes that are put next to each other add up at their places. -/
private theorem or_bytes {first second third fourth : Nat} (secondByte : second < 256)
    (thirdByte : third < 256) (fourthByte : fourth < 256) :
    (first <<< 24) ||| (second <<< 16) ||| (third <<< 8) ||| fourth =
      16777216 * first + 65536 * second + 256 * third + fourth := by
  -- From the left, each byte falls below the lowest bit that is already set.
  have upper := or_low 24 first (show 65536 * second < 2 ^ 24 by omega)
  have middle := or_low 16 (256 * first + second) (show 256 * third < 2 ^ 16 by omega)
  have lower := or_low 8 (65536 * first + 256 * second + third) (show fourth < 2 ^ 8 from fourthByte)
  simp only [Nat.shiftLeft_eq]
  rw [show first * 2 ^ 24 = 2 ^ 24 * first by omega, show second * 2 ^ 16 = 65536 * second by omega,
    show third * 2 ^ 8 = 256 * third by omega, upper,
    show 2 ^ 24 * first + 65536 * second = 2 ^ 16 * (256 * first + second) by omega, middle,
    show 2 ^ 16 * (256 * first + second) + 256 * third =
      2 ^ 8 * (65536 * first + 256 * second + third) by omega, lower]
  omega

/-- Swapping the bytes of a word puts each at the opposite place. -/
theorem bswap32_eq (value : Nat) :
    bswap32 value = 16777216 * (value % 256) + 65536 * (value / 256 % 256) +
      256 * (value / 65536 % 256) + value / 16777216 % 256 := by
  have mask : ∀ part, part &&& 0xFF = part % 256 := fun part => Nat.and_two_pow_sub_one_eq_mod part 8
  unfold bswap32
  simp only [mask, Nat.shiftRight_eq_div_pow]
  exact or_bytes (Nat.mod_lt _ (by decide)) (Nat.mod_lt _ (by decide)) (Nat.mod_lt _ (by decide))

/-- What a label is shifted to after its bytes are swapped: its three bytes in opposite order. -/
theorem bswap32_shift {value : Nat} (small : value < 2 ^ 24) :
    bswap32 value >>> 8 = 65536 * (value % 256) + 256 * (value / 256 % 256) + value / 65536 := by
  rw [bswap32_eq, Nat.shiftRight_eq_div_pow]
  omega

/-- Swapping the three bytes of a label twice gives the label back. -/
private theorem bswap32_shift_twice {value : Nat} (small : value < 2 ^ 24) :
    bswap32 (bswap32 value >>> 8) >>> 8 = value := by
  -- Three bytes low, middle, and high make up the label, and only their order changes.
  generalize low_eq : value % 256 = low
  generalize middle_eq : value / 256 % 256 = middle
  generalize high_eq : value / 65536 = high
  have whole : value = 65536 * high + 256 * middle + low := by omega
  have swapped : bswap32 value >>> 8 = 65536 * low + 256 * middle + high := by
    rw [bswap32_shift small, low_eq, middle_eq, high_eq]
  rw [swapped, bswap32_shift (by omega), whole]
  have first : (65536 * low + 256 * middle + high) % 256 = high := by omega
  have second : (65536 * low + 256 * middle + high) / 256 % 256 = middle := by omega
  have third : (65536 * low + 256 * middle + high) / 65536 = low := by omega
  rw [first, second, third]

/-- The six bits that stand for a character. -/
def characterCode (character : UInt8) : Nat := 32 + character.toNat % 32

private theorem compressCharacter_eq (character : UInt8) (i : Nat) :
    compressCharacter character i = characterCode character * 2 ^ ((3 - i) * 6) := by
  have low : character.toNat &&& 0x1F = character.toNat % 32 :=
    Nat.and_two_pow_sub_one_eq_mod character.toNat 5
  -- The five low bits stand below the one that is always set.
  have marked := or_low 5 1 (show character.toNat % 32 < 2 ^ 5 by omega)
  rw [compressCharacter, low, Nat.shiftLeft_eq]
  exact congrArg (· * _) marked

/-- The codes of a label's first four characters, next to each other from the top of 24 bits. -/
def packedLabel : Bytes → Nat
  | [] => 0
  | [a] => 262144 * characterCode a
  | [a, b] => 262144 * characterCode a + 4096 * characterCode b
  | [a, b, c] => 262144 * characterCode a + 4096 * characterCode b + 64 * characterCode c
  | a :: b :: c :: d :: _ =>
    262144 * characterCode a + 4096 * characterCode b + 64 * characterCode c + characterCode d

private theorem characterCode_bounds (character : UInt8) :
    32 ≤ characterCode character ∧ characterCode character < 64 := by
  unfold characterCode
  omega

/-- Packed labels take twenty-four bits. -/
theorem packedLabel_lt (label : Bytes) : packedLabel label < 2 ^ 24 := by
  -- Every code takes six bits, and there are four at most.
  unfold packedLabel
  split
  · decide
  · rename_i a
    have := characterCode_bounds a
    omega
  · rename_i a b
    have := characterCode_bounds a
    have := characterCode_bounds b
    omega
  · rename_i a b c
    have := characterCode_bounds a
    have := characterCode_bounds b
    have := characterCode_bounds c
    omega
  · rename_i a b c d _
    have := characterCode_bounds a
    have := characterCode_bounds b
    have := characterCode_bounds c
    have := characterCode_bounds d
    omega

/-- Packing a label puts the codes of its characters next to each other. -/
theorem compressLabel_eq (label : Bytes) : compressLabel label = bswap32 (packedLabel label) >>> 8 := by
  have upper : ∀ a b : UInt8, 262144 * characterCode a ||| 4096 * characterCode b =
      262144 * characterCode a + 4096 * characterCode b := fun a b => by
    have := characterCode_bounds b
    exact or_low 18 _ (by omega)
  have middle : ∀ a b c : UInt8, (262144 * characterCode a + 4096 * characterCode b) |||
      64 * characterCode c = 262144 * characterCode a + 4096 * characterCode b +
        64 * characterCode c := fun a b c => by
    have := characterCode_bounds c
    have joined := or_low 12 (64 * characterCode a + characterCode b)
      (show 64 * characterCode c < 2 ^ 12 by omega)
    rwa [show 2 ^ 12 * (64 * characterCode a + characterCode b) =
      262144 * characterCode a + 4096 * characterCode b by omega] at joined
  have lower : ∀ a b c d : UInt8, (262144 * characterCode a + 4096 * characterCode b +
      64 * characterCode c) ||| characterCode d = 262144 * characterCode a +
        4096 * characterCode b + 64 * characterCode c + characterCode d := fun a b c d => by
    have := characterCode_bounds d
    have joined := or_low 6 (4096 * characterCode a + 64 * characterCode b + characterCode c)
      (show characterCode d < 2 ^ 6 by omega)
    rwa [show 2 ^ 6 * (4096 * characterCode a + 64 * characterCode b + characterCode c) =
      262144 * characterCode a + 4096 * characterCode b + 64 * characterCode c by omega] at joined
  have place : ∀ (character : UInt8) (i : Nat), compressCharacter character i =
      2 ^ ((3 - i) * 6) * characterCode character := fun character i => by
    rw [compressCharacter_eq, Nat.mul_comm]
  -- The characters are packed from the left, and no two codes share a bit.
  have packed : (label.take 4).zipIdx.foldl
      (fun ret entry => ret ||| compressCharacter entry.1 entry.2) 0 = packedLabel label := by
    unfold packedLabel
    split <;> simp [List.zipIdx, place, upper, middle, lower]
  exact congrArg (fun ret => bswap32 ret >>> 8) packed

/-- Packed labels take twenty-four bits in their swapped order too. -/
theorem compressLabel_lt (label : Bytes) : compressLabel label < 2 ^ 24 := by
  have small := packedLabel_lt label
  rw [compressLabel_eq, bswap32_shift small]
  omega

/-- The character that a code stands for. -/
private theorem decompressCharacter_eq {packed i code : Nat} {character : UInt8}
    (stands : packed / 2 ^ ((3 - i) * 6) % 64 = code) (coded : code = characterCode character) :
    decompressCharacter packed i = [UInt8.ofNat (64 + character.toNat % 32)] := by
  have six : (packed >>> ((3 - i) * 6)) &&& 0x3F = code := by
    rw [Nat.shiftRight_eq_div_pow, ← stands]
    exact Nat.and_two_pow_sub_one_eq_mod _ 6
  have bounds := characterCode_bounds character
  have five : code &&& 0x1F = character.toNat % 32 := by
    rw [coded, characterCode]
    refine (Nat.and_two_pow_sub_one_eq_mod _ 5).trans ?_
    omega
  have marked := or_low 6 1 (show character.toNat % 32 < 2 ^ 6 by omega)
  simp only [decompressCharacter, six, five, if_pos (show 0 < code by omega)]
  exact congrArg (fun value => [UInt8.ofNat value]) marked

/-- A place that no character was packed into gives none. -/
private theorem decompressCharacter_none {packed i : Nat}
    (stands : packed / 2 ^ ((3 - i) * 6) % 64 = 0) : decompressCharacter packed i = [] := by
  have six : (packed >>> ((3 - i) * 6)) &&& 0x3F = 0 := by
    rw [Nat.shiftRight_eq_div_pow, ← stands]
    exact Nat.and_two_pow_sub_one_eq_mod _ 6
  simp only [decompressCharacter, six, if_neg (Nat.lt_irrefl 0)]

/-- Unpacking a packed label gives its first four characters, each by its five low bits. -/
theorem decompressLabel_compressLabel (label : Bytes) :
    decompressLabel (compressLabel label) =
      (label.take 4).map fun character => UInt8.ofNat (64 + character.toNat % 32) := by
  have small := packedLabel_lt label
  rw [decompressLabel, compressLabel_eq]
  simp only [bswap32_shift_twice small]
  -- Each place of the packed label is looked up by dividing down to it.
  have codes := characterCode_bounds
  match label with
  | [] => rfl
  | [a] =>
    have := codes a
    have first : packedLabel [a] / 2 ^ ((3 - 0) * 6) % 64 = characterCode a := by
      simp only [packedLabel]; omega
    have second : packedLabel [a] / 2 ^ ((3 - 1) * 6) % 64 = 0 := by simp only [packedLabel]; omega
    have third : packedLabel [a] / 2 ^ ((3 - 2) * 6) % 64 = 0 := by simp only [packedLabel]; omega
    have fourth : packedLabel [a] / 2 ^ ((3 - 3) * 6) % 64 = 0 := by simp only [packedLabel]; omega
    simp [decompressCharacter_eq first rfl, decompressCharacter_none second,
      decompressCharacter_none third, decompressCharacter_none fourth]
  | [a, b] =>
    have := codes a
    have := codes b
    have first : packedLabel [a, b] / 2 ^ ((3 - 0) * 6) % 64 = characterCode a := by
      simp only [packedLabel]; omega
    have second : packedLabel [a, b] / 2 ^ ((3 - 1) * 6) % 64 = characterCode b := by
      simp only [packedLabel]; omega
    have third : packedLabel [a, b] / 2 ^ ((3 - 2) * 6) % 64 = 0 := by simp only [packedLabel]; omega
    have fourth : packedLabel [a, b] / 2 ^ ((3 - 3) * 6) % 64 = 0 := by simp only [packedLabel]; omega
    simp [decompressCharacter_eq first rfl, decompressCharacter_eq second rfl,
      decompressCharacter_none third, decompressCharacter_none fourth]
  | [a, b, c] =>
    have := codes a
    have := codes b
    have := codes c
    have first : packedLabel [a, b, c] / 2 ^ ((3 - 0) * 6) % 64 = characterCode a := by
      simp only [packedLabel]; omega
    have second : packedLabel [a, b, c] / 2 ^ ((3 - 1) * 6) % 64 = characterCode b := by
      simp only [packedLabel]; omega
    have third : packedLabel [a, b, c] / 2 ^ ((3 - 2) * 6) % 64 = characterCode c := by
      simp only [packedLabel]; omega
    have fourth : packedLabel [a, b, c] / 2 ^ ((3 - 3) * 6) % 64 = 0 := by
      simp only [packedLabel]; omega
    simp [decompressCharacter_eq first rfl, decompressCharacter_eq second rfl,
      decompressCharacter_eq third rfl, decompressCharacter_none fourth]
  | a :: b :: c :: d :: rest =>
    have := codes a
    have := codes b
    have := codes c
    have := codes d
    have first : packedLabel (a :: b :: c :: d :: rest) / 2 ^ ((3 - 0) * 6) % 64 =
        characterCode a := by simp only [packedLabel]; omega
    have second : packedLabel (a :: b :: c :: d :: rest) / 2 ^ ((3 - 1) * 6) % 64 =
        characterCode b := by simp only [packedLabel]; omega
    have third : packedLabel (a :: b :: c :: d :: rest) / 2 ^ ((3 - 2) * 6) % 64 =
        characterCode c := by simp only [packedLabel]; omega
    have fourth : packedLabel (a :: b :: c :: d :: rest) / 2 ^ ((3 - 3) * 6) % 64 =
        characterCode d := by simp only [packedLabel]; omega
    simp [decompressCharacter_eq first rfl, decompressCharacter_eq second rfl,
      decompressCharacter_eq third rfl, decompressCharacter_eq fourth rfl]

/-- At most four characters of the range that labels are made of unpack to themselves. -/
theorem decompressLabel_ranged {name : Bytes} (short : name.length ≤ 4)
    (range : ∀ character ∈ name, 0x40 ≤ character ∧ character ≤ 0x5F) :
    decompressLabel (compressLabel name) = name := by
  rw [decompressLabel_compressLabel, List.take_of_length_le short]
  -- From 0x40 to 0x5F, the five low bits are all that differs between characters.
  refine (List.map_congr_left fun character member => ?_).trans (List.map_id name)
  obtain ⟨least, most⟩ := range character member
  have above : 0x40 ≤ character.toNat := least
  have below : character.toNat ≤ 0x5F := most
  apply UInt8.toNat_inj.mp
  rw [UInt8.toNat_ofNat_of_lt' (show 64 + character.toNat % 32 < 256 by omega), id]
  omega

/-- A label of the packet builder unpacks to itself. -/
theorem decompressLabel_label {name : Bytes} (label : Label name) :
    decompressLabel (compressLabel name) = name :=
  decompressLabel_ranged label.2.1 label.2.2

/-- The first byte of a header with a label has its top bit set. -/
theorem compressLabel_first {name : Bytes} (nonempty : name ≠ []) :
    128 ≤ compressLabel name % 256 := by
  have small := packedLabel_lt name
  have codes := characterCode_bounds
  rw [compressLabel_eq, bswap32_shift small]
  -- The first character's code stands in the highest bits, and its own highest bit is set.
  have high : 8388608 ≤ packedLabel name := by
    unfold packedLabel
    split
    · exact absurd rfl nonempty
    · rename_i a
      have := codes a
      omega
    · rename_i a b
      have := codes a
      omega
    · rename_i a b c
      have := codes a
      omega
    · rename_i a b c d _
      have := codes a
      omega
  -- Only the highest byte is left when the swapped label is cut to its lowest.
  generalize packedLabel name % 256 = low
  generalize packedLabel name / 256 % 256 = middle
  have last : 128 ≤ packedLabel name / 65536 ∧ packedLabel name / 65536 < 256 := by omega
  generalize packedLabel name / 65536 = top at last
  omega

end Recap.Blaze
