import Mathlib

/-! Signed numbers of 32 bits, of which nothing is known once a sum is too large for them. -/

namespace Recap.Signed

/-- Whether a number is in the range of an `int`. -/
def Fits (value : Int) : Prop := -2 ^ 31 ≤ value ∧ value < 2 ^ 31

instance : DecidablePred Fits := fun _ => inferInstanceAs (Decidable (_ ∧ _))

/--
The `int` that a sum comes to.

What an overflow comes to is not defined, and is left to the function that is given.
-/
@[irreducible] def int (beyond : Int → Int32) (value : Int) : Int32 :=
  if Fits value then Int32.ofInt value else beyond value

/-- The conversion of an `int` to a `size_t`, which takes a negative number round the end. -/
def toSize (value : Int32) : Nat := (value.toInt % 2 ^ 64).toNat

variable {beyond : Int → Int32} {value : Int}

theorem toInt_int (fits : Fits value) : (int beyond value).toInt = value := by
  rw [int, if_pos fits]
  exact Int32.toInt_ofInt_of_le fits.1 fits.2

theorem int_of_not_fits (large : ¬ Fits value) : int beyond value = beyond value := by
  rw [int, if_neg large]

/-- A sum is the number -1 only where it is -1 as a sum. -/
theorem int_eq_neg_one_iff (fits : Fits value) : int beyond value = -1 ↔ value = -1 := by
  rw [← Int32.toInt_inj, toInt_int fits]
  rfl

/-- A number that is not negative is converted to itself. -/
theorem toSize_of_toInt {number : Int32} {size : Nat} (same : number.toInt = size) :
    toSize number = size := by
  have small := number.toInt_lt
  rw [toSize, same]
  omega

end Recap.Signed
