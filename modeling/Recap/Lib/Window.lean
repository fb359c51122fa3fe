import Mathlib

/-! Copies from a sliding window of already produced elements, one element at a time. -/

namespace Recap.Window

variable {α : Type*}

/-- Append one element at a time, each time the one standing the given distance from the end. -/
def copyBack (distance : Nat) : Nat → List α → List α
  | 0, produced => produced
  | count + 1, produced =>
    copyBack distance count (produced ++ produced[produced.length - distance]?.toList)

/-- A copy from inside the window appends as many elements as it is asked for. -/
theorem copyBack_length {distance : Nat} (positive : 0 < distance) (count : Nat)
    {produced : List α} (inside : distance ≤ produced.length) :
    (copyBack distance count produced).length = produced.length + count := by
  -- The window only grows, so the distance stays inside it.
  induction count generalizing produced with
  | zero => rfl
  | succ count ih =>
    have found : produced.length - distance < produced.length := by omega
    rw [copyBack, List.getElem?_eq_getElem found, Option.toList_some,
      ih (by simp only [List.length_append, List.length_singleton]; omega)]
    simp only [List.length_append, List.length_singleton]
    omega

/-- What was produced before a copy stays in front of what the copy appends. -/
theorem copyBack_extends (distance count : Nat) (produced : List α) :
    produced <+: copyBack distance count produced := by
  induction count generalizing produced with
  | zero => exact List.prefix_refl produced
  | succ count ih => exact (List.prefix_append produced _).trans (ih _)

/-- Where the copied elements were all produced before, they can be copied as one block. -/
theorem copyBack_block {distance : Nat} (count : Nat) {produced : List α}
    (inside : distance ≤ produced.length) (apart : count ≤ distance) :
    copyBack distance count produced =
      produced ++ (produced.drop (produced.length - distance)).take count := by
  -- The block is taken apart at its last element, which the last step of the copy appends.
  induction count generalizing produced distance with
  | zero => simp [copyBack]
  | succ count ih =>
    have found : produced.length - distance < produced.length := by omega
    rw [copyBack, List.getElem?_eq_getElem found, Option.toList_some,
      ih (by simp only [List.length_append, List.length_singleton]; omega) (by omega)]
    have start : (produced ++ [produced[produced.length - distance]]).length - distance =
        produced.length - distance + 1 := by
      simp only [List.length_append, List.length_singleton]
      omega
    rw [start, List.drop_append_of_le_length (by omega), List.append_assoc, List.singleton_append,
      List.drop_eq_getElem_cons found, List.take_succ_cons,
      List.take_append_of_le_length (by simp only [List.length_drop]; omega)]

end Recap.Window
