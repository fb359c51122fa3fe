import Recap.Blaze.ParserBytes

/-! Labels and types are read back from the headers that they are written in. -/

namespace Recap.Blaze

/-- Labels that the characters of the packet builder can spell, the empty one included. -/
def Spellable (label : Bytes) : Prop :=
  label.length ≤ 4 ∧ ∀ character ∈ label, 0x40 ≤ character ∧ character ≤ 0x5F

instance (label : Bytes) : Decidable (Spellable label) := inferInstanceAs (Decidable (_ ∧ _))

/-- What packing leaves of a character. -/
def keptBits (character : UInt8) : UInt8 := 0x40 ||| (character &&& 0x1F)

theorem keptBits_eq (character : UInt8) :
    keptBits character = UInt8.ofNat (64 + character.toNat % 32) := by
  -- The five low bits stand below the one that is set.
  have low : (character &&& 0x1F).toNat = character.toNat % 32 := by
    rw [UInt8.toNat_and]
    exact Nat.and_two_pow_sub_one_eq_mod character.toNat 5
  apply UInt8.toNat_inj.mp
  rw [keptBits, UInt8.toNat_or, low, UInt8.toNat_ofNat_of_lt' (show 64 + character.toNat % 32 < 256 by omega)]
  exact (Nat.two_pow_add_eq_or_of_lt (show character.toNat % 32 < 2 ^ 6 by omega) 1).symm

/-- Labels that can be spelt are told apart by what they are packed into. -/
theorem compressLabel_injective {label other : Bytes} (spellable : Spellable label)
    (another : Spellable other) (same : compressLabel label = compressLabel other) :
    label = other := by
  rw [← decompressLabel_ranged spellable.1 spellable.2, same,
    decompressLabel_ranged another.1 another.2]

/-- A type has the number that it was made from. -/
theorem kind_ofNat_toNat (type : Nat) : (Kind.ofNat type).toNat = type := by
  unfold Kind.ofNat
  split <;> rfl

/-- Where a header was written, its label and its type are read. -/
theorem readHeader_writeHeader {label : Bytes} (spellable : Spellable label) {type : Nat}
    (byte : type < 256) {b : DataBuffer} (room : b.position + 4 < maxCapacity) (uninit : Nat → Nat) :
    Parser.readHeader ⟨{ writeHeader b label (.ofNat type) with position := b.position }, uninit⟩ =
      .done (⟨label, .ofNat type⟩, ⟨writeHeader b label (.ofNat type), uninit⟩) := by
  have far : maxCapacity + 1 < wordBound := by decide
  have wrote := writeHeader_wrote label (Kind.ofNat type) (show b.position + 4 < wordBound by omega)
  have moved := wrote.position
  have inside := wrote.written (List.cons_ne_nil _ _)
  rw [headerBytes_length] at moved
  -- Going back to the front of the header, its four bytes are what comes next.
  have holds : Holds ⟨{ writeHeader b label (.ofNat type) with position := b.position }, uninit⟩
      (headerBytes label (.ofNat type)) :=
    ⟨wrote.found, by simp only [headerBytes_length]; omega, by simpa using room⟩
  have same : (Kind.ofNat type).toNat = type := kind_ofNat_toNat type
  rw [Parser.readHeader_unpacks (by rw [same]; exact byte) (by rw [same]) holds,
    decompressLabel_ranged spellable.1 spellable.2]
  simp only [Reader.advance, ← moved]

/-- No header of a label starts with one of the two bytes that the parser looks ahead for. -/
theorem writeHeader_first {label : Bytes} (nonempty : label ≠ []) (type : Kind) {b : DataBuffer}
    (room : b.position + 4 < maxCapacity) :
    ∃ first, (writeHeader b label type).buffer[b.position]? = some first ∧ first ≠ 0x00 ∧
      first ≠ 0x02 := by
  have far : maxCapacity + 1 < wordBound := by decide
  have wrote := writeHeader_wrote label type (show b.position + 4 < wordBound by omega)
  obtain ⟨tail, found⟩ := wrote.found
  have high := compressLabel_first nonempty
  refine ⟨UInt8.ofNat (compressLabel label % 256), ?_, ?_⟩
  · rw [← List.head?_drop, found]
    rfl
  · -- The first byte has its top bit set, which neither of the two has.
    have value : (UInt8.ofNat (compressLabel label % 256)).toNat = compressLabel label % 256 :=
      UInt8.toNat_ofNat_of_lt' (show compressLabel label % 256 < 256 from Nat.mod_lt _ (by decide))
    constructor
    · intro same
      rw [same] at value
      rw [← value] at high
      exact absurd high (by decide)
    · intro same
      rw [same] at value
      rw [← value] at high
      exact absurd high (by decide)

/--
Labels are packed and unpacked up to the bits that packing drops, and without loss where they can be
spelt. A header gives them back with their type, and never starts like a terminator.
-/
theorem labels_kept :
    (∀ label, decompressLabel (compressLabel label) = (label.take 4).map keptBits) ∧
    (∀ label other, Spellable label → Spellable other →
      compressLabel label = compressLabel other → label = other) ∧
    (∀ (b : DataBuffer) (label : Bytes) (type : Nat) (uninit : Nat → Nat), Spellable label →
      type < 256 → b.position + 4 < maxCapacity →
      Parser.readHeader ⟨{ writeHeader b label (.ofNat type) with position := b.position }, uninit⟩ =
        .done (⟨label, .ofNat type⟩, ⟨writeHeader b label (.ofNat type), uninit⟩)) ∧
    ∀ (b : DataBuffer) (label : Bytes) (type : Nat), label ≠ [] → b.position + 4 < maxCapacity →
      ∃ first, (writeHeader b label (.ofNat type)).buffer[b.position]? = some first ∧
        first ≠ 0x00 ∧ first ≠ 0x02 := by
  refine ⟨fun label => ?_, fun label other => compressLabel_injective,
    fun b label type uninit spellable byte room => readHeader_writeHeader spellable byte room uninit,
    fun b label type nonempty room => writeHeader_first nonempty (.ofNat type) room⟩
  rw [decompressLabel_compressLabel]
  exact List.map_congr_left fun character _ => (keptBits_eq character).symm

end Recap.Blaze
