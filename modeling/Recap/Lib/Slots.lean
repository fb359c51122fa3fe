import Mathlib

/-! What lies in numbered slots, some of which may be empty. -/

namespace Recap.Slots

variable {Slot Item : Type*} (read : Slot → Option Item)

/-- The items in the slots that hold one. -/
def items (slots : List Slot) : Multiset Item :=
  Multiset.filterMap read (slots : Multiset Slot)

@[simp] theorem items_nil : items read [] = 0 :=
  rfl

theorem items_cons (slot : Slot) (slots : List Slot) :
    items read (slot :: slots) = items read [slot] + items read slots := by
  -- The first slot is read on its own, whatever it holds.
  unfold items
  rw [← List.singleton_append, ← Multiset.coe_add, Multiset.filterMap_add]

theorem items_append (slots others : List Slot) :
    items read (slots ++ others) = items read slots + items read others := by
  unfold items
  rw [← Multiset.coe_add, Multiset.filterMap_add]

@[simp] theorem items_singleton (slot : Slot) :
    items read [slot] = (read slot).elim 0 fun item => {item} := by
  unfold items
  -- The one slot is read through its list.
  rw [Multiset.filterMap_coe, List.filterMap_cons, List.filterMap_nil]
  cases read slot <;> rfl

/-- Order does not matter. -/
theorem items_perm {slots others : List Slot} (same : slots.Perm others) :
    items read slots = items read others := by
  unfold items
  rw [Multiset.coe_eq_coe.mpr same]

/-- Filling a slot adds what is put there and takes away what was there before. -/
theorem items_set {slots : List Slot} {index : Nat} (inside : index < slots.length) (slot : Slot) :
    items read (slots.set index slot) + items read [slots[index]] =
      items read slots + items read [slot] := by
  -- Both lists are what is left without the slot, and one slot more.
  have filled := items_perm read (List.set_perm_cons_eraseIdx inside slot)
  have before := items_perm read (List.getElem_cons_eraseIdx_perm inside)
  rw [items_cons] at filled before
  rw [filled, ← before]
  abel

/-- Two slots that change places hold the same items between them. -/
theorem items_swap {slots : List Slot} {first second : Nat} (apart : first ≠ second)
    (inside : first < slots.length) (inside' : second < slots.length) :
    items read ((slots.set second slots[first]).set first slots[second]) = items read slots := by
  have there := items_set read inside' slots[first]
  -- The first slot is still the one it was when the second has been filled.
  have back : items read ((slots.set second slots[first]).set first slots[second]) +
      items read [slots[first]] = items read (slots.set second slots[first]) +
        items read [slots[second]] := by
    have filled := items_set read
      (show first < (slots.set second slots[first]).length by rwa [List.length_set]) slots[second]
    rwa [List.getElem_set_ne apart.symm] at filled
  exact add_right_cancel (back.trans there)

end Recap.Slots
