import Recap.Core.Strings
import Recap.Game.Catalyst
import Recap.HTTP.Request
import Recap.SporeNet.Xml

/-! Numbers and hashes of views, and when they depend on the characters behind a view. -/

namespace Recap

open Blaze

/-! ### Numbers in texts -/

/-- The sizes of integral types. -/
inductive Width where
  | w8 | w16 | w32 | w64
  deriving DecidableEq

def Width.bits : Width → Nat
  | w8 => 8
  | w16 => 16
  | w32 => 32
  | w64 => 64

/-- The integral types that `to_number` is used for. -/
inductive Integral where
  | bool
  | signed (width : Width)
  | unsigned (width : Width)

/-- A base that `strtol` takes; 0 leaves it to how the number starts. -/
structure Base where
  value : Nat
  valid : value = 0 ∨ 2 ≤ value ∧ value ≤ 36

/-- The default of `to_number`. -/
def Base.decimal : Base := ⟨10, by decide⟩

namespace Numeral

/-- The base of a number that has no prefix. -/
def plainRadix (base : Nat) (body : Bytes) : Nat :=
  if base = 0 then if body.head? = some 48 then 8 else 10 else base

/-- Whether a character makes the zero in front of it a prefix. -/
def IsMark (base : Nat) (mark : UInt8) : Prop := (base = 0 ∨ base = 16) ∧ (mark = 120 ∨ mark = 88)

instance (base : Nat) (mark : UInt8) : Decidable (IsMark base mark) :=
  inferInstanceAs (Decidable (_ ∧ _))

/-- The base of a number, and the characters that start with its digits. -/
def radix (base : Nat) (body : Bytes) : Nat × Bytes :=
  match body with
  | 48 :: mark :: rest =>
    if IsMark base mark ∧ leadingDigits 16 rest ≠ [] then (16, rest)
    else (plainRadix base body, body)
  | _ => (plainRadix base body, body)

/-- The number that starts behind the spaces and the sign. -/
def magnitude (base : Nat) (body : Bytes) : Nat :=
  digitsValue (radix base body).1 (leadingDigits (radix base body).1 (radix base body).2)

/-- Whether there is a minus sign, and what is behind the sign. -/
def afterSign : Bytes → Bool × Bytes
  | 45 :: rest => (true, rest)
  | 43 :: rest => (false, rest)
  | rest => (false, rest)

/-- The sign behind the spaces of a text, and what is behind it. -/
def behindSign (text : Bytes) : Bool × Bytes := afterSign (text.dropWhile isSpace)

/-- `strtol` and `strtoll`, which stay within their types. -/
def strtoSigned (width : Width) (base : Nat) (text : Bytes) : Int :=
  let (negative, body) := behindSign text
  if negative then max (-(magnitude base body : Int)) (-2 ^ (width.bits - 1))
  else min (magnitude base body : Int) (2 ^ (width.bits - 1) - 1)

/-- `strtoul` and `strtoull`, for which a number that is too large is the largest one. -/
def strtoUnsigned (width : Width) (base : Nat) (text : Bytes) : Nat :=
  let (negative, body) := behindSign text
  if 2 ^ width.bits ≤ magnitude base body then 2 ^ width.bits - 1
  else if negative then (2 ^ width.bits - magnitude base body) % 2 ^ width.bits
  else magnitude base body

end Numeral

/-- `const_tolower` -/
def constTolower (c : UInt8) : UInt8 := if 0x41 ≤ c ∧ c ≤ 0x5A then c + 0x20 else c

namespace StringView

open Numeral

/-- `utils::to_number` of a view, for a platform with the given size of `long`. -/
def toNumber (long : Width) (base : Base) (view : StringView) : Integral → Int
  | .bool =>
    -- The word is compared with the view, and the number is read from the C string.
    if view.text.map constTolower = ascii "true" ∨ 0 < strtoUnsigned long base.value view.cString
    then 1 else 0
  -- Only types of 64 bits are read with a function of their own.
  | .signed .w64 => strtoSigned .w64 base.value view.cString
  | .signed width => (strtoSigned long base.value view.cString).bmod (2 ^ width.bits)
  | .unsigned .w64 => strtoUnsigned .w64 base.value view.cString
  | .unsigned width => strtoUnsigned long base.value view.cString % 2 ^ width.bits

/-- `utils::hash_id` of a view -/
def hashId (view : StringView) : UInt32 := Game.hashId view.cString

/-- What is read of a view is the same whatever is behind the view. -/
def Local {Result : Type} (read : StringView → Result) (text : Bytes) : Prop :=
  ∀ behind behind' : Bytes, read ⟨text, behind⟩ = read ⟨text, behind'⟩

end StringView

/-! ### Where a number may go on -/

namespace Numeral

/-- Whether a text has only digits of a base. -/
def AllDigits (base : Nat) (text : Bytes) : Prop :=
  ∀ character ∈ text, ∃ digit, digitValue character = some digit ∧ digit < base

/-- Whether a number goes on to the end of a text, so that digits behind the text belong to it. -/
inductive Open (base : Nat) : Bytes → Prop
  | plain {body : Bytes} (digits : AllDigits (plainRadix base body) body) : Open base body
  | marked {mark : UInt8} {rest : Bytes} (isMark : IsMark base mark) (digits : AllDigits 16 rest) :
    Open base (48 :: mark :: rest)

/-- Whether a number is too large for all types already, or the largest one of them. -/
def Saturated (negative : Bool) (number : Nat) : Prop :=
  if negative then 2 ^ 64 ≤ number else 2 ^ 64 - 1 ≤ number

/-! ### Digits in front of other characters -/

section Digits

variable {base : Nat} {text more : Bytes}

theorem leadingDigits_cons {character : UInt8} {digit : Nat}
    (read : digitValue character = some digit) (small : digit < base) (rest : Bytes) :
    leadingDigits base (character :: rest) = digit :: leadingDigits base rest := by
  simp [leadingDigits, read, small]

/-- The digits of a text that has no others go on in what is behind it. -/
theorem leadingDigits_append (digits : AllDigits base text) (more : Bytes) :
    leadingDigits base (text ++ more) = leadingDigits base text ++ leadingDigits base more := by
  induction text with
  | nil => rfl
  | cons character rest ih =>
    obtain ⟨digit, read, small⟩ := digits character List.mem_cons_self
    rw [List.cons_append, leadingDigits_cons read small, leadingDigits_cons read small,
      ih fun other member => digits other (List.mem_cons_of_mem _ member), List.cons_append]

/-- A character that is no digit ends the digits of a text. -/
theorem leadingDigits_stops (ended : ¬ AllDigits base text) (more : Bytes) :
    leadingDigits base (text ++ more) = leadingDigits base text := by
  -- The digits in front of that character are all there are.
  induction text with
  | nil => exact absurd (fun _ member => absurd member List.not_mem_nil) ended
  | cons character rest ih =>
    by_cases here : ∃ digit, digitValue character = some digit ∧ digit < base
    · obtain ⟨digit, read, small⟩ := here
      have later : ¬ AllDigits base rest := fun digits => ended fun other member => by
        rcases List.mem_cons.mp member with rfl | behind
        · exact ⟨digit, read, small⟩
        · exact digits other behind
      rw [List.cons_append, leadingDigits_cons read small, leadingDigits_cons read small, ih later]
    · have none_here : ∀ others, leadingDigits base (character :: others) = [] := by
        intro others
        rw [leadingDigits]
        cases read : digitValue character with
        | none => rfl
        | some digit => exact if_neg fun small => here ⟨digit, read, small⟩
      rw [List.cons_append, none_here, none_here]

/-- More digits make a number no smaller. -/
theorem digitsValue_le_append (positive : 0 < base) (digits others : List Nat) :
    digitsValue base digits ≤ digitsValue base (digits ++ others) := by
  -- Each further digit takes the number times the base.
  induction others using List.reverseRecOn with
  | nil => rw [List.append_nil]
  | append_singleton front last ih =>
    have step : digitsValue base (digits ++ (front ++ [last])) =
        digitsValue base (digits ++ front) * base + last := by
      rw [← List.append_assoc, digitsValue, List.foldl_append]
      rfl
    have grown := Nat.le_mul_of_pos_right (digitsValue base (digits ++ front)) positive
    omega

/-- One more digit is the last one of the number. -/
theorem digitsValue_concat (digits : List Nat) (last : Nat) :
    digitsValue base (digits ++ [last]) = digitsValue base digits * base + last := by
  rw [digitsValue, List.foldl_append]
  rfl

/-- The digits 0 and 1 are there in every base. -/
theorem leadingDigits_bit {bit : Nat} (small : bit < 2) (two : 2 ≤ base) :
    leadingDigits base [48 + UInt8.ofNat bit] = [bit] := by
  have read : digitValue (48 + UInt8.ofNat bit) = some bit := by
    obtain rfl | rfl : bit = 0 ∨ bit = 1 := by omega
    · rfl
    · rfl
  rw [leadingDigits_cons read (by omega)]
  rfl

end Digits

/-! ### Numbers in front of other characters -/

section Bodies

variable {base : Nat} {body : Bytes}

/-- A mark is no digit of the bases in which it is one. -/
theorem not_digit_of_isMark {mark : UInt8} {digit : Nat} (isMark : IsMark base mark)
    (read : digitValue mark = some digit) : 16 ≤ digit := by
  rcases isMark.2 with rfl | rfl <;> cases read <;> decide

/-- With a mark, the number is that of the digits behind it. -/
theorem magnitude_marked {mark : UInt8} (isMark : IsMark base mark) (rest : Bytes) :
    magnitude base (48 :: mark :: rest) = digitsValue 16 (leadingDigits 16 rest) := by
  by_cases digits : leadingDigits 16 rest = []
  · -- Without digits there, the number is the zero in front of the mark.
    have small : plainRadix base (48 :: mark :: rest) ≤ 16 := by
      rcases isMark.1 with rfl | rfl <;> simp [plainRadix]
    have positive : 0 < plainRadix base (48 :: mark :: rest) := by
      rcases isMark.1 with rfl | rfl <;> simp [plainRadix]
    have zero : leadingDigits (plainRadix base (48 :: mark :: rest)) (48 :: mark :: rest) = [0] := by
      rw [leadingDigits_cons rfl positive, leadingDigits]
      cases read : digitValue mark with
      | none => rfl
      | some digit =>
        have large := not_digit_of_isMark isMark read
        simp
        omega
    rw [magnitude, radix, if_neg fun both => both.2 digits, zero, digits]
    simp [digitsValue]
  · rw [magnitude, radix, if_pos ⟨isMark, digits⟩]

/-- How a number is read that may go on behind its body. -/
inductive Reading (base : Nat) (body : Bytes) : Prop
  /-- It has not started, or it is a zero that may still be a prefix. -/
  | start (opened : Open base body) (zero : magnitude base body = 0)
      (next : ∀ bit < 2, magnitude base (body ++ [48 + UInt8.ofNat bit]) = bit)
  /-- Its base is known, and so is where its digits start. -/
  | going (radix : Nat) (digits : Bytes) (two : 2 ≤ radix) (small : radix ≤ 36)
      (opened : Open base body ↔ AllDigits radix digits)
      (next : ∀ more, magnitude base (body ++ more) =
        digitsValue radix (leadingDigits radix (digits ++ more)))

theorem plainRadix_bounds (valid : base = 0 ∨ 2 ≤ base ∧ base ≤ 36) (body : Bytes) :
    2 ≤ plainRadix base body ∧ plainRadix base body ≤ 36 := by
  unfold plainRadix
  split
  · split <;> decide
  · omega

/-- Whether no zero at the start of a body is a prefix. -/
def Unmarked (base : Nat) (body : Bytes) : Prop :=
  ∀ mark rest, body = 48 :: mark :: rest → ¬ IsMark base mark

theorem unmarked_singleton (character : UInt8) : Unmarked base [character] :=
  fun _ _ same => absurd (congrArg List.length same) (by simp)

theorem magnitude_unmarked (unmarked : Unmarked base body) :
    magnitude base body =
      digitsValue (plainRadix base body) (leadingDigits (plainRadix base body) body) := by
  have plain : radix base body = (plainRadix base body, body) := by
    unfold radix
    split
    · rename_i mark rest
      exact if_neg fun both => unmarked mark rest rfl both.1
    · rfl
  rw [magnitude, plain]

/-- A body that has more than a zero, and no mark behind it, is read in the same way with more. -/
theorem going_of_unmarked (valid : base = 0 ∨ 2 ≤ base ∧ base ≤ 36) (something : body ≠ [])
    (unmarked : ∀ more, Unmarked base (body ++ more)) : Reading base body := by
  obtain ⟨two, small⟩ := plainRadix_bounds valid body
  refine .going (plainRadix base body) body two small ⟨?_, .plain⟩ fun more => ?_
  · intro opened
    cases opened with
    | plain digits => exact digits
    | marked isMark _ => exact absurd isMark (unmarked [] _ _ (List.append_nil _))
  · -- The base shows in the first character, which is still the same.
    have same : plainRadix base (body ++ more) = plainRadix base body := by
      rw [plainRadix, plainRadix, List.head?_append_of_ne_nil _ something]
    rw [magnitude_unmarked (unmarked more), same]

/-- A number starts with the next digit, or goes on with all that follow. -/
theorem reading (valid : base = 0 ∨ 2 ≤ base ∧ base ≤ 36) (body : Bytes) : Reading base body := by
  -- A mark and what is no digit can only stand at the first two places.
  rcases body with _ | ⟨first, _ | ⟨second, rest⟩⟩
  · refine .start (.plain fun _ member => absurd member List.not_mem_nil) rfl fun bit small => ?_
    rw [List.nil_append, magnitude_unmarked (unmarked_singleton _),
      leadingDigits_bit small (plainRadix_bounds valid _).1]
    simp [digitsValue]
  · by_cases zero : first = 48
    · subst zero
      have two := plainRadix_bounds valid [48]
      have isDigit : digitValue 48 = some 0 := rfl
      refine .start (.plain ?_) ?_ fun bit small => ?_
      · intro character member
        rw [List.mem_singleton.mp member]
        exact ⟨0, rfl, by omega⟩
      · rw [magnitude_unmarked (unmarked_singleton _), leadingDigits_cons isDigit (by omega)]
        simp [digitsValue, leadingDigits]
      · -- A digit is no mark, so that the zero stays a digit in front of it.
        have unmarked' : Unmarked base [48, 48 + UInt8.ofNat bit] := by
          intro mark rest same isMark
          obtain ⟨rfl, -⟩ := List.cons.inj (List.cons.inj same).2
          obtain rfl | rfl : bit = 0 ∨ bit = 1 := by omega
          · exact absurd isMark.2 (by decide)
          · exact absurd isMark.2 (by decide)
        have bounds := plainRadix_bounds valid [48, 48 + UInt8.ofNat bit]
        change magnitude base [48, 48 + UInt8.ofNat bit] = bit
        rw [magnitude_unmarked unmarked', leadingDigits_cons isDigit (by omega),
          leadingDigits_bit small bounds.1]
        simp [digitsValue]
    · exact going_of_unmarked valid (List.cons_ne_nil _ _) fun more mark rest same =>
        absurd (List.cons.inj same).1 zero
  · by_cases marked : first = 48 ∧ IsMark base second
    · obtain ⟨rfl, isMark⟩ := marked
      refine .going 16 rest (by decide) (by decide) ⟨?_, .marked isMark⟩ fun more =>
        magnitude_marked isMark (rest ++ more)
      intro opened
      cases opened with
      | marked _ digits => exact digits
      | plain digits =>
        -- The mark is no digit of the base without a prefix.
        obtain ⟨digit, read, small⟩ :=
          digits second (List.mem_cons_of_mem _ List.mem_cons_self)
        have large := not_digit_of_isMark isMark read
        have bound : plainRadix base (48 :: second :: rest) ≤ 16 := by
          rcases isMark.1 with rfl | rfl <;> simp [plainRadix]
        omega
    · refine going_of_unmarked valid (List.cons_ne_nil _ _) fun more mark others same isMark => ?_
      obtain ⟨same_first, same_rest⟩ := List.cons.inj same
      exact marked ⟨same_first, (List.cons.inj same_rest).1 ▸ isMark⟩

/-- A number that has ended is the same whatever follows. -/
theorem magnitude_append (valid : base = 0 ∨ 2 ≤ base ∧ base ≤ 36) (ended : ¬ Open base body)
    (more : Bytes) : magnitude base (body ++ more) = magnitude base body := by
  cases reading valid body with
  | start opened => exact absurd opened ended
  | going radix digits _ _ opened next =>
    have stops : ¬ AllDigits radix digits := mt opened.mpr ended
    have alone := next []
    rw [List.append_nil, List.append_nil] at alone
    rw [next more, alone, leadingDigits_stops stops]

/-- What follows does not make a number smaller. -/
theorem magnitude_le_append (valid : base = 0 ∨ 2 ≤ base ∧ base ≤ 36) (body more : Bytes) :
    magnitude base body ≤ magnitude base (body ++ more) := by
  -- A number that has ended stays the same, and one that has not gets more digits.
  by_cases opened : Open base body
  · cases reading valid body with
    | start _ zero => omega
    | going radix digits two _ same next =>
      have alone := next []
      rw [List.append_nil, List.append_nil] at alone
      rw [next more, alone, leadingDigits_append (same.mp opened)]
      exact digitsValue_le_append (by omega) _ _
  · rw [magnitude_append valid opened more]

/-- A number that has not ended goes on with a digit. -/
theorem magnitude_bit (valid : base = 0 ∨ 2 ≤ base ∧ base ≤ 36) (opened : Open base body) :
    ∃ radix ≤ 36, ∀ bit < 2,
      magnitude base (body ++ [48 + UInt8.ofNat bit]) = magnitude base body * radix + bit := by
  -- Where no digit has come yet, the number is 0 and any base will do.
  cases reading valid body with
  | start _ zero next =>
    refine ⟨10, by decide, fun bit small => ?_⟩
    rw [next bit small, zero, Nat.zero_mul, Nat.zero_add]
  | going radix digits two small same next =>
    refine ⟨radix, small, fun bit isBit => ?_⟩
    have alone := next []
    rw [List.append_nil, List.append_nil] at alone
    rw [next, alone, leadingDigits_append (same.mp opened), leadingDigits_bit isBit two,
      digitsValue_concat]

end Bodies

/-! ### Signs in front of other characters -/

section Signs

variable {text more : Bytes}

theorem afterSign_plain {first : UInt8} (notMinus : first ≠ 45) (notPlus : first ≠ 43)
    (rest : Bytes) : afterSign (first :: rest) = (false, first :: rest) := by
  unfold afterSign
  split
  · rename_i same
    exact absurd (List.cons.inj same).1 notMinus
  · rename_i same
    exact absurd (List.cons.inj same).1 notPlus
  · rfl

theorem afterSign_append (something : text ≠ []) (more : Bytes) :
    afterSign (text ++ more) = ((afterSign text).1, (afterSign text).2 ++ more) := by
  -- The sign is the first character, if there is one.
  obtain ⟨first, rest, rfl⟩ := List.exists_cons_of_ne_nil something
  by_cases minus : first = 45
  · rw [minus]
    rfl
  · by_cases plus : first = 43
    · rw [plus]
      rfl
    · rw [List.cons_append, afterSign_plain minus plus, afterSign_plain minus plus]
      rfl

/-- What follows a number that has started is behind its sign. -/
theorem behindSign_append (started : (behindSign text).2 ≠ []) (more : Bytes) :
    behindSign (text ++ more) = ((behindSign text).1, (behindSign text).2 ++ more) := by
  have something : text.dropWhile isSpace ≠ [] := by
    intro empty
    rw [behindSign, empty] at started
    exact started rfl
  rw [behindSign, List.dropWhile_append, if_neg (by simpa using something)]
  exact afterSign_append something more

/-- A digit is behind the spaces and the sign, also where the number starts with it. -/
theorem behindSign_digit {digit : UInt8} {value : Nat} (read : digitValue digit = some value)
    (text : Bytes) :
    behindSign (text ++ [digit]) = ((behindSign text).1, (behindSign text).2 ++ [digit]) := by
  -- Behind spaces only, the digit itself is where the number starts.
  obtain ⟨solid, notMinus, notPlus⟩ := not_space_of_digit read
  by_cases spaces : text.dropWhile isSpace = []
  · have alone : [digit].dropWhile isSpace = [digit] := by simp [solid]
    rw [behindSign, behindSign, List.dropWhile_append, if_pos (by simpa using spaces), spaces, alone,
      afterSign_plain notMinus notPlus]
    rfl
  · rw [behindSign, List.dropWhile_append, if_neg (by simpa using spaces)]
    exact afterSign_append spaces [digit]

end Signs

/-! ### Texts with the same number -/

/-- The sign of the number in a text, and its size without the sign. -/
def numberIn (base : Nat) (text : Bytes) : Bool × Nat :=
  ((behindSign text).1, magnitude base (behindSign text).2)

/-- Whether two texts have the same number, or numbers of one sign that are both too large. -/
def SameNumber (base : Nat) (text text' : Bytes) : Prop :=
  numberIn base text = numberIn base text' ∨
    (numberIn base text).1 = (numberIn base text').1 ∧
      Saturated (numberIn base text).1 (numberIn base text).2 ∧
      Saturated (numberIn base text').1 (numberIn base text').2

section SameNumber

variable {base : Nat} {text text' : Bytes}

theorem strtoSigned_eq (width : Width) (base : Nat) (text : Bytes) :
    strtoSigned width base text =
      if (numberIn base text).1 then max (-((numberIn base text).2 : Int)) (-2 ^ (width.bits - 1))
      else min ((numberIn base text).2 : Int) (2 ^ (width.bits - 1) - 1) := rfl

theorem strtoUnsigned_eq (width : Width) (base : Nat) (text : Bytes) :
    strtoUnsigned width base text =
      if 2 ^ width.bits ≤ (numberIn base text).2 then 2 ^ width.bits - 1
      else if (numberIn base text).1 then
        (2 ^ width.bits - (numberIn base text).2) % 2 ^ width.bits
      else (numberIn base text).2 := rfl

theorem Saturated.mono {negative : Bool} {number larger : Nat} (large : Saturated negative number)
    (least : number ≤ larger) : Saturated negative larger := by
  -- The bound depends on the sign, which stays.
  unfold Saturated at *
  split at large
  · rename_i minus
    rw [if_pos minus]
    omega
  · rename_i plus
    rw [if_neg plus]
    omega

/-- A signed number is at one end of its type if it is too large. -/
theorem strtoSigned_congr (same : SameNumber base text text') (width : Width) :
    strtoSigned width base text = strtoSigned width base text' := by
  rw [strtoSigned_eq, strtoSigned_eq]
  rcases same with same | ⟨same, large, large'⟩
  · rw [same]
  · rw [← same] at large' ⊢
    generalize (numberIn base text).1 = negative at large large' ⊢
    -- Both numbers are beyond the end on their side.
    cases negative <;> cases width <;> simp [Saturated, Width.bits] at large large' ⊢ <;> omega

/-- An unsigned number is the largest one if it is too large. -/
theorem strtoUnsigned_congr (same : SameNumber base text text') (width : Width) :
    strtoUnsigned width base text = strtoUnsigned width base text' := by
  -- A number that is too large for 64 bits is too large for fewer ones.
  rw [strtoUnsigned_eq, strtoUnsigned_eq]
  rcases same with same | ⟨same, large, large'⟩
  · rw [same]
  · rw [← same] at large' ⊢
    generalize (numberIn base text).1 = negative at large large' ⊢
    cases negative <;> cases width <;> simp [Saturated, Width.bits] at large large' ⊢ <;>
      repeat' split
    all_goals omega

theorem numberIn_append (started : (behindSign text).2 ≠ []) (more : Bytes) :
    numberIn base (text ++ more) =
      ((numberIn base text).1, magnitude base ((behindSign text).2 ++ more)) := by
  rw [numberIn, behindSign_append started]
  rfl

/-- A number that has ended or is too large is settled, whatever follows. -/
theorem sameNumber_append (valid : base = 0 ∨ 2 ≤ base ∧ base ≤ 36)
    (settled : ¬ Open base (behindSign text).2 ∨
      Saturated (numberIn base text).1 (numberIn base text).2) (more more' : Bytes) :
    SameNumber base (text ++ more) (text ++ more') := by
  -- In both cases there is something behind the sign.
  have started : (behindSign text).2 ≠ [] := by
    intro empty
    rcases settled with ended | large
    · rw [empty] at ended
      exact ended (.plain fun _ member => absurd member List.not_mem_nil)
    · have zero : magnitude base [] = 0 := rfl
      rw [numberIn, empty, zero] at large
      unfold Saturated at large
      split at large <;> omega
  rw [SameNumber, numberIn_append started, numberIn_append started]
  rcases settled with ended | large
  · left
    rw [magnitude_append valid ended, magnitude_append valid ended]
  · -- More characters do not make the number smaller.
    have grows (more : Bytes) : Saturated (numberIn base text).1
        (magnitude base ((behindSign text).2 ++ more)) :=
      large.mono (magnitude_le_append valid (behindSign text).2 more)
    exact .inr ⟨rfl, grows more, grows more'⟩

/-- A number that has not ended goes on with a digit behind the text. -/
theorem numberIn_bit (valid : base = 0 ∨ 2 ≤ base ∧ base ≤ 36)
    (opened : Open base (behindSign text).2) :
    ∃ radix ≤ 36, ∀ bit < 2, numberIn base (text ++ [48 + UInt8.ofNat bit]) =
      ((numberIn base text).1, (numberIn base text).2 * radix + bit) := by
  -- The digit is behind the sign, and it is one of each base.
  obtain ⟨radix, small, next⟩ := magnitude_bit valid opened
  refine ⟨radix, small, fun bit isBit => ?_⟩
  have read : digitValue (48 + UInt8.ofNat bit) = some bit := by
    obtain rfl | rfl : bit = 0 ∨ bit = 1 := by omega
    · rfl
    · rfl
  rw [numberIn, behindSign_digit read, next bit isBit]
  rfl

/-- With base 10 there is no prefix. -/
theorem magnitude_decimal (body : Bytes) : magnitude 10 body = digitsValue 10 (leadingDigits 10 body) :=
  magnitude_unmarked fun _ _ _ isMark => absurd isMark.1 (by decide)

theorem numberIn_decimal (text : Bytes) : numberIn 10 text = SporeNet.numberOf text := by
  rw [numberIn, behindSign, SporeNet.numberOf, magnitude_decimal]
  generalize text.dropWhile isSpace = body
  unfold afterSign
  split
  · rfl
  · rfl
  · simp_all

/-- The numbers in the fields of documents are those of base 10. -/
theorem strto_decimal (text : Bytes) :
    strtoUnsigned .w64 10 text = SporeNet.strtoul text ∧
      strtoSigned .w64 10 text = SporeNet.strtoll text := by
  rw [strtoUnsigned_eq, strtoSigned_eq, numberIn_decimal]
  exact ⟨rfl, rfl⟩

/-- Two characters are not enough for a prefix with digits. -/
theorem magnitude_short {body : Bytes} (few : body.length ≤ 2) :
    magnitude 16 body = digitsValue 16 (leadingDigits 16 body) := by
  by_cases marked : ∃ mark rest, body = 48 :: mark :: rest ∧ IsMark 16 mark
  · -- Behind a mark there is nothing, and the zero in front of it is the number.
    obtain ⟨mark, rest, rfl, isMark⟩ := marked
    obtain rfl : rest = [] := List.eq_nil_of_length_eq_zero (by simpa using few)
    have isDigit : digitValue 48 = some 0 := rfl
    rw [magnitude_marked isMark, leadingDigits_cons isDigit (by decide)]
    rcases isMark.2 with rfl | rfl <;> rfl
  · exact magnitude_unmarked fun mark rest same isMark => marked ⟨mark, rest, same, isMark⟩

/-- The character of an escape is the number in its two digits, with the sign. -/
theorem toChar_eq (high low : UInt8) :
    HTTP.URI.toChar [high, low] =
      if (numberIn 16 [high, low]).1 then 0 - UInt8.ofNat (numberIn 16 [high, low]).2
      else UInt8.ofNat (numberIn 16 [high, low]).2 := by
  -- What is behind the spaces is empty, starts with a sign or is the number.
  have few : ([high, low].dropWhile isSpace).length ≤ 2 := (List.dropWhile_suffix _).length_le
  rw [numberIn, behindSign, HTTP.URI.toChar]
  generalize [high, low].dropWhile isSpace = body at few
  cases body with
  | nil => rfl
  | cons sign rest =>
    have short : rest.length ≤ 2 := by
      rw [List.length_cons] at few
      omega
    by_cases minus : sign = 45
    · subst minus
      simp [afterSign, magnitude_short short]
    · by_cases plus : sign = 43
      · subst plus
        simp [afterSign, magnitude_short short]
      · rw [afterSign_plain minus plus, magnitude_short few]
        simp [minus, plus]

/-- What `strtoull` makes of a sign and a number. -/
def capped (negative : Bool) (number : Nat) : Nat :=
  if 2 ^ 64 ≤ number then 2 ^ 64 - 1
  else if negative then (2 ^ 64 - number) % 2 ^ 64 else number

/-- Two numbers in a row are only the same as a shorter one if that one is too large. -/
theorem saturated_of_capped {negative : Bool} {number longer : Nat}
    (single : number = 1 → longer ≤ 36) (zero : capped negative number = capped negative longer)
    (one : capped negative number = capped negative (longer + 1)) : Saturated negative number := by
  unfold Saturated
  unfold capped at zero one
  cases negative <;> simp only [Bool.false_eq_true, if_false, if_true] at zero one ⊢
  · split_ifs at zero one <;> omega
  · split_ifs at zero one <;> omega

end SameNumber

end Numeral

namespace StringView

open Numeral

section Views

variable {text : Bytes}

/-- A C string that starts with a NUL in the view ends there. -/
theorem cString_of_mem (inside : 0 ∈ text) (behind : Bytes) :
    (⟨text, behind⟩ : StringView).cString = text.takeWhile fun character => character ≠ 0 := by
  obtain ⟨front, back, rfl, clear⟩ := List.eq_append_cons_of_mem inside
  have all : ∀ character ∈ front, (fun character : UInt8 => decide (character ≠ 0)) character := by
    intro character member
    simpa using fun same : character = 0 => clear (same ▸ member)
  change List.takeWhile _ (front ++ 0 :: back ++ behind) = _
  rw [List.append_assoc, List.takeWhile_append_of_pos all, List.takeWhile_append_of_pos all]
  rfl

/-- Without a NUL in the view, the C string goes on behind it. -/
theorem cString_of_not_mem (clear : 0 ∉ text) (behind : Bytes) :
    (⟨text, behind⟩ : StringView).cString =
      text ++ behind.takeWhile fun character => character ≠ 0 := by
  refine List.takeWhile_append_of_pos fun character member => ?_
  simpa using fun same : character = 0 => clear (same ▸ member)

/-- Views of one text with the same number behind its sign give the same result for all types. -/
theorem toNumber_congr {base : Base} {behind behind' : Bytes} (same : SameNumber base.value
    (⟨text, behind⟩ : StringView).cString (⟨text, behind'⟩ : StringView).cString)
    (long : Width) (type : Integral) :
    (⟨text, behind⟩ : StringView).toNumber long base type =
      (⟨text, behind'⟩ : StringView).toNumber long base type := by
  cases type with
  | bool => simp only [toNumber, strtoUnsigned_congr same]
  | signed width => cases width <;> simp only [toNumber, strtoSigned_congr same]
  | unsigned width => cases width <;> simp only [toNumber, strtoUnsigned_congr same]

/-- The number of a view does not depend on what is behind the view if it cannot go on there. -/
theorem toNumber_local (base : Base)
    (settled : 0 ∈ text ∨ ¬ Open base.value (behindSign text).2 ∨
      Saturated (numberIn base.value text).1 (numberIn base.value text).2)
    (long : Width) (type : Integral) : Local (fun view => view.toNumber long base type) text := by
  intro behind behind'
  apply toNumber_congr
  by_cases inside : 0 ∈ text
  · rw [cString_of_mem inside, cString_of_mem inside]
    exact .inl rfl
  · rw [cString_of_not_mem inside, cString_of_not_mem inside]
    exact sameNumber_append base.valid (settled.resolve_left inside) _ _

/-- Where it does not depend on it, a number that has not ended is too large. -/
theorem saturated_of_local {long : Width} {base : Base} (clear : 0 ∉ text)
    (same : Local (fun view => view.toNumber long base (.unsigned .w64)) text)
    (opened : Open base.value (behindSign text).2) :
    Saturated (numberIn base.value text).1 (numberIn base.value text).2 := by
  obtain ⟨radix, small, next⟩ := numberIn_bit base.valid opened
  -- Without anything behind the view, and with one of two digits there, the number is the same.
  have behind (bit : Nat) (isBit : bit < 2) :
      capped (numberIn base.value text).1 (numberIn base.value text).2 =
        capped (numberIn base.value text).1 ((numberIn base.value text).2 * radix + bit) := by
    have whole : [48 + UInt8.ofNat bit].takeWhile (fun character => decide (character ≠ 0)) =
        [48 + UInt8.ofNat bit] := by
      obtain rfl | rfl : bit = 0 ∨ bit = 1 := by omega
      · rfl
      · rfl
    have equal : strtoUnsigned .w64 base.value (⟨text, []⟩ : StringView).cString =
        strtoUnsigned .w64 base.value (⟨text, [48 + UInt8.ofNat bit]⟩ : StringView).cString :=
      Int.ofNat_inj.mp (same [] [48 + UInt8.ofNat bit])
    rw [cString_of_not_mem clear, cString_of_not_mem clear, whole, List.takeWhile_nil,
      List.append_nil, strtoUnsigned_eq, strtoUnsigned_eq, next bit isBit] at equal
    exact equal
  refine saturated_of_capped (fun single => ?_) (behind 0 (by decide)) (behind 1 (by decide))
  rw [single, Nat.one_mul]
  exact small

/-- A hash is made of the hash of all characters but the last one. -/
theorem hashId_concat (name : Bytes) {character : UInt8} (small : ¬ (0x41 ≤ character ∧ character ≤ 0x5A)) :
    Game.hashId (name ++ [character]) =
      (Game.hashId name * 0x1000193) ^^^ character.toInt8.toInt32.toUInt32 := by
  rw [Game.hashId, List.foldl_append]
  simp only [List.foldl_cons, List.foldl_nil, if_neg small]
  rfl

/-- The hash of a view does not depend on what is behind it only where a NUL ends it in the view. -/
theorem hashId_local_iff : Local hashId text ↔ 0 ∈ text := by
  -- Two letters behind a view that no NUL ends give it two hashes.
  constructor
  · intro same
    by_contra clear
    have hashes := same [97] [98]
    have first : [(97 : UInt8)].takeWhile (fun character => decide (character ≠ 0)) = [97] := rfl
    have second : [(98 : UInt8)].takeWhile (fun character => decide (character ≠ 0)) = [98] := rfl
    rw [hashId, hashId, cString_of_not_mem clear, cString_of_not_mem clear, first, second,
      hashId_concat text (by decide), hashId_concat text (by decide), UInt32.xor_right_inj] at hashes
    exact absurd hashes (by decide)
  · intro inside behind behind'
    rw [hashId, hashId, cString_of_mem inside, cString_of_mem inside]

/--
What the numbers and the hash of a view depend on.

For the numbers of all types, whatever is behind the view does not matter if there is a NUL in the
view, if the number ends in the view, or if its digits there are too many for all types. For the
hash there must be a NUL in the view.
-/
theorem toNumber_hashId_local_iff (long : Width) (text : Bytes) :
    (∀ base : Base,
      (∀ type, Local (fun view => view.toNumber long base type) text) ↔
        0 ∈ text ∨ ¬ Open base.value (behindSign text).2 ∨
          Saturated (behindSign text).1 (magnitude base.value (behindSign text).2)) ∧
      (Local hashId text ↔ 0 ∈ text) := by
  refine ⟨fun base => ⟨fun same => ?_, fun settled => toNumber_local base settled long⟩,
    hashId_local_iff⟩
  by_cases inside : 0 ∈ text
  · exact .inl inside
  · by_cases opened : Open base.value (behindSign text).2
    · exact .inr (.inr (saturated_of_local inside (same (.unsigned .w64)) opened))
    · exact .inr (.inl opened)

end Views

/-- A digit behind a view of `1` counts as if it were in the view. -/
theorem not_local_one :
    ¬ ∀ text, (∀ type, Local (fun view => view.toNumber .w64 .decimal type) text) ∧
      Local hashId text := by
  intro always
  have numbers := (always (ascii "1")).1 (.unsigned .w32) [] (ascii "2")
  exact absurd numbers (by decide)

end StringView

end Recap
