import Recap.Game.Catalyst
import Recap.Lib.Runs

/-! Catalysts move between the slots of the players and the world, and none is lost or made. -/

namespace Recap.Game

open Recap.Runs

/-! ### Catalysts as loot -/

/-- Only a prismatic catalyst has the colour of one. -/
theorem CatalystType.color_ne_prismatic (type : CatalystType) : type.color ≠ .prismatic := by
  -- Every type is compared with its bounds in turn, and each answer is a plain colour.
  unfold CatalystType.color
  split_ifs <;> exact nofun

namespace Catalyst

/-- A catalyst is what its type, its rarity and its being prismatic make of it. -/
theorem new_of_real {catalyst : Catalyst} (real : catalyst.real) :
    catalyst = .new catalyst.type catalyst.rarity (catalyst.color = .prismatic) := by
  -- A catalyst is either the empty one or built from a type, a rarity and a flag.
  obtain ⟨fields, built⟩ := catalyst
  rcases built with rfl | ⟨type, rarity, prismatic, rfl⟩
  · -- Without a noun there is no catalyst.
    exact absurd real (by decide)
  · have same : decide ((CatalystFields.make type rarity prismatic).color = .prismatic) =
        prismatic := by
      cases prismatic with
      | true => rfl
      | false => exact decide_eq_false type.color_ne_prismatic
    unfold new
    congr 1
    rw [same]
    rfl

/-- Loot data keeps all that there is to a catalyst. -/
theorem ofLootData_setCatalyst {catalyst : Catalyst} (real : catalyst.real) :
    ofLootData (.setCatalyst catalyst) = catalyst := by
  -- The type, the rarity and the colour are read back, and they are all that it is built from.
  -- The eight bits of a type and of a rarity survive the signed number.
  have kept : ∀ code : UInt8, code.toUInt32.toInt32.toUInt32.toUInt8 = code := by
    intro code
    simp
  unfold ofLootData LootData.setCatalyst
  rw [kept, kept]
  exact (new_of_real real).symm

/-- What a slot holds. -/
def present (catalyst : Catalyst) : Option Catalyst :=
  if catalyst.real then some catalyst else none

end Catalyst

/-- The multiset of a slot that holds a catalyst. -/
theorem items_real {catalyst : Catalyst} (real : catalyst.real) :
    Slots.items Catalyst.present [catalyst] = {catalyst} := by
  -- A real catalyst is counted once.
  rw [Slots.items_singleton, Catalyst.present, if_pos real]
  rfl

theorem items_unreal {catalyst : Catalyst} (unreal : ¬ catalyst.real) :
    Slots.items Catalyst.present [catalyst] = 0 := by
  -- A catalyst without a noun is not counted.
  rw [Slots.items_singleton, Catalyst.present, if_neg unreal]
  rfl

/-- What an object holds that has not been picked up. -/
def WorldObject.catalyst (object : WorldObject) : Option Catalyst :=
  if object.markedForDeletion then none
  else object.lootData.bind fun lootData => (Catalyst.ofLootData lootData).present

/-- An object that is marked for deletion no longer counts. -/
theorem items_marked {objects : List WorldObject} {index : Nat} (within : index < objects.length) :
    Slots.items WorldObject.catalyst
        (objects.set index { objects[index] with markedForDeletion := true }) +
      Slots.items WorldObject.catalyst [objects[index]] =
    Slots.items WorldObject.catalyst objects :=
  (Slots.items_set WorldObject.catalyst within _).trans (add_zero _)

/-! ### Reading slots -/

namespace CatalystSlots

theorem getCatalyst_inside (slots : CatalystSlots) {index : UInt32} (inside : index.toNat < 9) :
    slots.getCatalyst index = some slots[index.toNat] := by
  unfold getCatalyst
  rw [if_neg (by omega), Vector.getElem?_eq_getElem inside]

/-- Far behind the slots nothing is read. -/
theorem getCatalyst_beyond (slots : CatalystSlots) {index : UInt32} (beyond : 9 < index.toNat) :
    slots.getCatalyst index = some .empty :=
  if_pos beyond

/-- Right behind the slots something is read that is not one of them. -/
theorem getCatalyst_last (slots : CatalystSlots) : slots.getCatalyst 9 = none := by
  -- The check lets the index nine through, and no slot has it.
  unfold getCatalyst
  rw [if_neg (by decide)]
  exact Vector.getElem?_eq_none (by decide)

/-- An index is that of a slot, the one behind the last slot, or one further on. -/
theorem index_cases (index : UInt32) : index.toNat < 9 ∨ index = 9 ∨ 9 < index.toNat := by
  -- The check of the code is off by one, so the index nine is a case of its own.
  rcases lt_trichotomy index.toNat 9 with inside | last | beyond
  · exact Or.inl inside
  · exact Or.inr (Or.inl (UInt32.toNat_inj.mp last))
  · exact Or.inr (Or.inr beyond)

/-- The catalysts in the slots. -/
def catalysts (slots : CatalystSlots) : Multiset Catalyst :=
  Slots.items Catalyst.present slots.toList

/-- Filling a slot adds a catalyst and takes away what was there. -/
theorem catalysts_setCatalyst (slots : CatalystSlots) (catalyst : Catalyst) {index : UInt32}
    (inside : index.toNat < 9) :
    (slots.setCatalyst catalyst index).catalysts + Slots.items Catalyst.present [slots[index.toNat]] =
      slots.catalysts + Slots.items Catalyst.present [catalyst] := by
  -- Inside the bounds the slot is set in the list that is counted.
  have within : index.toNat < slots.toList.length := by simpa using inside
  unfold setCatalyst catalysts
  rw [Vector.toList_setIfInBounds, ← Slots.items_set Catalyst.present within]
  congr 3

/-- Filling a slot that is not there does nothing. -/
theorem setCatalyst_beyond (slots : CatalystSlots) (catalyst : Catalyst) {index : UInt32}
    (beyond : 9 ≤ index.toNat) : slots.setCatalyst catalyst index = slots := by
  -- The bound of the write is right, so nothing is written.
  unfold setCatalyst
  apply Vector.ext
  intro other inside
  rw [Vector.getElem_setIfInBounds, if_neg (by omega)]

/-- Emptying a slot takes its catalyst away. -/
theorem catalysts_emptied (slots : CatalystSlots) {index : UInt32} (inside : index.toNat < 9)
    (real : slots[index.toNat].real) :
    slots.catalysts = slots[index.toNat] ::ₘ (slots.setCatalyst .empty index).catalysts := by
  -- The empty catalyst that is put there counts for nothing.
  have taken := slots.catalysts_setCatalyst .empty inside
  have nothing : ¬ Catalyst.empty.real := by decide
  rw [items_unreal nothing, items_real real, add_zero] at taken
  rw [← taken, add_comm, Multiset.singleton_add]

/-- Two slots that change places hold the same catalysts between them. -/
theorem catalysts_swapped (slots : CatalystSlots) {first second : UInt32} (apart : first ≠ second)
    (inside : first.toNat < 9) (inside' : second.toNat < 9) :
    ((slots.setCatalyst slots[first.toNat] second).setCatalyst slots[second.toNat] first).catalysts =
      slots.catalysts := by
  -- Both writes are into the list, and what each puts there is what the other takes away.
  have apart' : first.toNat ≠ second.toNat := fun same => apart (UInt32.toNat_inj.mp same)
  unfold setCatalyst catalysts
  rw [Vector.toList_setIfInBounds, Vector.toList_setIfInBounds]
  exact Slots.items_swap Catalyst.present apart' (by simpa using inside) (by simpa using inside')

/-- A slot that is open is one of the nine, and holds nothing. -/
theorem getOpenCatalystSlot_open {slots : CatalystSlots}
    (found : slots.getOpenCatalystSlot ≠ 0xFFFFFFFF) :
    ∃ inside : slots.getOpenCatalystSlot.toNat < 9,
      ¬ slots[slots.getOpenCatalystSlot.toNat].real := by
  -- The slot is found by its noun, among the nine that there are.
  unfold getOpenCatalystSlot at found ⊢
  cases first : slots.toList.findIdx? fun catalyst => catalyst.nounId = 0 with
  | none =>
    rw [first] at found
    exact absurd rfl found
  | some index =>
    obtain ⟨within, empty, -⟩ := List.findIdx?_eq_some_iff_getElem.mp first
    have inside : index < 9 := by simpa using within
    have number : (UInt32.ofNat index).toNat = index :=
      UInt32.toNat_ofNat_of_lt' (Nat.lt_trans inside (by decide))
    simp only [number]
    refine ⟨inside, ?_⟩
    -- An open slot is one whose noun is zero, which is what an empty one has.
    simpa [Catalyst.real] using empty

end CatalystSlots

namespace Catalysts

variable {PlayerPtr : Type} [DecidableEq PlayerPtr]

/-! ### What is conserved -/

/-- The catalysts in a player's nine slots. -/
def carried (s : Catalysts PlayerPtr) (player : PlayerPtr) : Multiset Catalyst :=
  (s.mCatalysts player).catalysts

/-- The catalysts that lie in the world. -/
def lying (s : Catalysts PlayerPtr) : Multiset Catalyst :=
  Slots.items WorldObject.catalyst s.objects

/-- No catalyst has moved to or from the world. -/
def Still (s next : Catalysts PlayerPtr) : Prop :=
  (∀ player, next.carried player = s.carried player) ∧ next.lying = s.lying

/-- One catalyst of a player has moved into the world. -/
def Drops (s next : Catalysts PlayerPtr) (player : PlayerPtr) : Prop :=
  ∃ catalyst, s.carried player = catalyst ::ₘ next.carried player ∧
    next.lying = catalyst ::ₘ s.lying ∧
    ∀ other, other ≠ player → next.carried other = s.carried other

/-- No catalyst is lost or made, and only drops and pickups move one. -/
def Conserves (s : Catalysts PlayerPtr) (input : Input PlayerPtr) (next : Catalysts PlayerPtr) :
    Prop :=
  s.Still next ∨
    match input with
    | .crystalDrag player _ moveType _ => moveType = 0 ∧ s.Drops next player
    | .drop player _ => s.Drops next player
    | .pickup player _ => next.Drops s player
    | .deploy _ _ => False

/-- A step reads inside the slots, and conserves the catalysts. -/
def Faithful (s : Catalysts PlayerPtr) (input : Input PlayerPtr) : Prop :=
  ∃ next, s.step input = some next ∧ s.Conserves input next

/--
The inputs that leave the catalysts whole.

A player with a character in the world names no slot right behind the last one, and moves a
catalyst that it has to one of the slots.
-/
def Allowed (s : Catalysts PlayerPtr) : Input PlayerPtr → Prop
  | .crystalDrag player crystalSlot moveType newSlot =>
    s.deployed player → crystalSlot ≠ 9 ∧
      ∀ catalyst, (s.mCatalysts player).getCatalyst crystalSlot = some catalyst → catalyst.real →
        moveType = 2 → newSlot ≠ crystalSlot → newSlot.toNat < 9
  | .drop player catalystSlot => s.deployed player → catalystSlot ≠ 9
  | _ => True

/-! ### One step -/

omit [DecidableEq PlayerPtr] in
theorem Still.refl (s : Catalysts PlayerPtr) : s.Still s :=
  ⟨fun _ => rfl, rfl⟩

theorem carried_setSlots (s : Catalysts PlayerPtr) (player : PlayerPtr) (slots : CatalystSlots)
    (other : PlayerPtr) :
    (s.setSlots player slots).carried other =
      if other = player then slots.catalysts else s.carried other := by
  -- The slots of one player are replaced.
  unfold carried setSlots
  dsimp only
  rw [Function.update_apply]
  split <;> rfl

/-- Where the catalysts of the slots stay the same, nothing has moved. -/
theorem Still.setSlots (s : Catalysts PlayerPtr) {player : PlayerPtr} {slots : CatalystSlots}
    (same : slots.catalysts = s.carried player) : s.Still (s.setSlots player slots) := by
  -- The other players have the slots they had.
  refine ⟨fun other => ?_, rfl⟩
  rw [carried_setSlots]
  split
  · rename_i whose
    rw [whose, same]
  · rfl

/-- A catalyst that is dropped leaves its slot and lies in the world. -/
theorem drops_dropCatalyst {s : Catalysts PlayerPtr} {player : PlayerPtr} {catalystSlot : UInt32}
    (there : s.deployed player) (inside : catalystSlot.toNat < 9)
    (real : (s.mCatalysts player)[catalystSlot.toNat].real) :
    ∃ next, s.dropCatalyst player catalystSlot = some next ∧ s.Drops next player := by
  -- The slot is there and filled, so neither of the two early returns is taken.
  have found := (s.mCatalysts player).getCatalyst_inside inside
  unfold dropCatalyst
  simp only [there, Bool.not_true, Bool.false_eq_true, if_false, found, real]
  refine ⟨_, rfl, (s.mCatalysts player)[catalystSlot.toNat], ?_, ?_, fun other apart => ?_⟩
  · -- The slot is emptied.
    have emptied := (s.mCatalysts player).catalysts_emptied inside real
    show s.carried player = _ ::ₘ (s.setSlots player _).carried player
    rw [carried_setSlots, if_pos rfl]
    exact emptied
  · -- What lies there reads as the catalyst that was dropped.
    show Slots.items WorldObject.catalyst (s.objects ++ _) = _
    rw [Slots.items_append, Slots.items_singleton]
    unfold WorldObject.catalyst
    simp only [Bool.false_eq_true, if_false, Option.bind_some, Catalyst.ofLootData_setCatalyst real,
      Catalyst.present, if_pos real, Option.elim_some]
    rw [add_comm, Multiset.singleton_add]
    rfl
  · show (s.setSlots player _).carried other = _
    rw [carried_setSlots, if_neg apart]

theorem faithful_drop_iff (s : Catalysts PlayerPtr) (player : PlayerPtr) (catalystSlot : UInt32) :
    s.Faithful (.drop player catalystSlot) ↔ s.Allowed (.drop player catalystSlot) := by
  -- The index lies inside the slots, right behind them, or so far behind that nothing is read.
  unfold Allowed
  by_cases there : s.deployed player
  · rcases CatalystSlots.index_cases catalystSlot with inside | rfl | beyond
    · refine iff_of_true ?_ fun _ last => by simp [last] at inside
      by_cases real : (s.mCatalysts player)[catalystSlot.toNat].real
      · obtain ⟨next, dropped, drops⟩ := drops_dropCatalyst there inside real
        exact ⟨next, dropped, Or.inr drops⟩
      · refine ⟨s, ?_, Or.inl (Still.refl s)⟩
        simp [step, dropCatalyst, there, CatalystSlots.getCatalyst_inside _ inside, real]
    · -- The slot behind the last one is read.
      refine iff_of_false ?_ fun apart => apart there rfl
      intro faithful
      obtain ⟨next, taken, -⟩ := faithful
      simp [step, dropCatalyst, there, CatalystSlots.getCatalyst_last] at taken
    · refine iff_of_true ⟨s, ?_, Or.inl (Still.refl s)⟩ fun _ last => by simp [last] at beyond
      simp [step, dropCatalyst, there, CatalystSlots.getCatalyst_beyond _ beyond, Catalyst.real,
        Catalyst.empty, CatalystFields.empty]
  · refine iff_of_true ⟨s, ?_, Or.inl (Still.refl s)⟩ fun present => absurd present there
    simp [step, dropCatalyst, there]

/-- A pickup moves the catalyst that lies there, if there is one, into an open slot. -/
theorem faithful_pickup (s : Catalysts PlayerPtr) (player : PlayerPtr) (object : Nat) :
    s.Faithful (.pickup player object) := by
  -- Every guard of the pickup that fails leaves all as it was.
  refine ⟨_, rfl, ?_⟩
  unfold pickupCatalyst
  cases present : s.objects[object]? with
  | none => exact Or.inl (Still.refl s)
  | some record =>
    obtain ⟨within, rfl⟩ := List.getElem?_eq_some_iff.mp present
    dsimp only
    by_cases marked : s.objects[object].markedForDeletion
    · rw [if_pos marked]
      exact Or.inl (Still.refl s)
    · rw [if_neg marked]
      by_cases found : (s.mCatalysts player).getOpenCatalystSlot ≠ 0xFFFFFFFF
      · rw [if_pos found]
        obtain ⟨inside, unreal⟩ := CatalystSlots.getOpenCatalystSlot_open found
        have gone := items_marked within
        rw [Slots.items_singleton, WorldObject.catalyst, if_neg marked] at gone
        dsimp only at gone
        generalize s.objects.set object _ = after at gone ⊢
        cases holds : s.objects[object].lootData with
        | none =>
          rw [holds] at gone
          exact Or.inl ⟨fun _ => rfl, (add_zero _).symm.trans gone⟩
        | some lootData =>
          rw [holds] at gone
          simp only [Option.bind_some] at gone
          have filled := (s.mCatalysts player).catalysts_setCatalyst (.ofLootData lootData) inside
          rw [items_unreal unreal, add_zero] at filled
          by_cases real : (Catalyst.ofLootData lootData).real
          · rw [items_real real, add_comm, Multiset.singleton_add] at filled
            rw [Catalyst.present, if_pos real] at gone
            refine Or.inr ⟨.ofLootData lootData, ?_, ?_, fun other apart => ?_⟩
            · rw [carried_setSlots, if_pos rfl]
              exact filled
            · refine gone.symm.trans ?_
              rw [Option.elim_some, add_comm, Multiset.singleton_add]
              rfl
            · rw [carried_setSlots, if_neg apart]
              rfl
          · -- Loot data without a noun is no catalyst, before and after.
            rw [items_unreal real, add_zero] at filled
            rw [Catalyst.present, if_neg real] at gone
            refine Or.inl ⟨fun other => ?_, (add_zero _).symm.trans gone⟩
            rw [carried_setSlots]
            split
            · rename_i whose
              rw [whose]
              exact filled
            · rfl
      · rw [if_neg found]
        exact Or.inl (Still.refl s)

/-- A catalyst that is moved inside the grid changes places with what is in its new slot. -/
theorem faithful_move_iff {s : Catalysts PlayerPtr} {player : PlayerPtr} {crystalSlot newSlot : UInt32}
    (there : s.deployed player) (inside : crystalSlot.toNat < 9)
    (real : (s.mCatalysts player)[crystalSlot.toNat].real) (apart : newSlot ≠ crystalSlot) :
    s.Faithful (.crystalDrag player crystalSlot 2 newSlot) ↔ newSlot.toNat < 9 := by
  -- The other catalyst is read first, which decides what comes of the move.
  have found := (s.mCatalysts player).getCatalyst_inside inside
  have moves : s.step (.crystalDrag player crystalSlot 2 newSlot) =
      ((s.mCatalysts player).getCatalyst newSlot).map fun otherCatalyst =>
        s.setSlots player (((s.mCatalysts player).setCatalyst
          (s.mCatalysts player)[crystalSlot.toNat] newSlot).setCatalyst otherCatalyst crystalSlot) := by
    have notZero : (2 : UInt32) ≠ 0 := by decide
    have notOne : (2 : UInt32) ≠ 1 := by decide
    simp only [step, onCrystalDragMessage, there, Bool.not_true, Bool.false_eq_true, if_false, found,
      real, if_neg notZero, if_neg notOne, if_true, if_pos apart.symm]
    cases (s.mCatalysts player).getCatalyst newSlot <;> rfl
  unfold Faithful
  rw [moves]
  rcases CatalystSlots.index_cases newSlot with inside' | rfl | beyond
  · -- Both slots are there, so they change places.
    refine iff_of_true ?_ inside'
    rw [CatalystSlots.getCatalyst_inside _ inside']
    refine ⟨_, rfl, Or.inl (Still.setSlots s ?_)⟩
    exact (s.mCatalysts player).catalysts_swapped apart.symm inside inside'
  · refine iff_of_false ?_ (by decide)
    rw [CatalystSlots.getCatalyst_last]
    exact fun faithful => by simp at faithful
  · -- The catalyst goes nowhere, and its slot is emptied.
    refine iff_of_false ?_ (by omega)
    rw [CatalystSlots.getCatalyst_beyond _ beyond]
    intro faithful
    obtain ⟨next, taken, still | moved⟩ := faithful
    · obtain rfl := Option.some_inj.mp taken
      have lost := (s.mCatalysts player).catalysts_emptied inside real
      have same := still.1 player
      rw [carried_setSlots, if_pos rfl,
        CatalystSlots.setCatalyst_beyond (s.mCatalysts player) _ (Nat.le_of_lt beyond)] at same
      unfold carried at same
      rw [same] at lost
      exact (Multiset.lt_cons_self _ _).ne lost
    · exact absurd moved.1 (by decide)

theorem faithful_drag_iff (s : Catalysts PlayerPtr) (player : PlayerPtr)
    (crystalSlot moveType newSlot : UInt32) :
    s.Faithful (.crystalDrag player crystalSlot moveType newSlot) ↔
      s.Allowed (.crystalDrag player crystalSlot moveType newSlot) := by
  -- The catalyst is read before the type of the move is looked at.
  unfold Allowed
  -- Whatever is only answered leaves everything where it is.
  have answered : s.step (.crystalDrag player crystalSlot moveType newSlot) = some s →
      s.Faithful (.crystalDrag player crystalSlot moveType newSlot) :=
    fun taken => ⟨s, taken, Or.inl (Still.refl s)⟩
  by_cases there : s.deployed player
  · rcases CatalystSlots.index_cases crystalSlot with inside | rfl | beyond
    · have found := (s.mCatalysts player).getCatalyst_inside inside
      have notLast : crystalSlot ≠ 9 := fun last => by simp [last] at inside
      by_cases real : (s.mCatalysts player)[crystalSlot.toNat].real
      · by_cases move : moveType = 2 ∧ newSlot ≠ crystalSlot
        · obtain ⟨rfl, apart⟩ := move
          rw [faithful_move_iff there inside real apart]
          constructor
          · exact fun within _ => ⟨notLast, fun _ _ _ _ _ => within⟩
          · exact fun allowed => (allowed there).2 _ found real rfl apart
        · refine iff_of_true ?_ fun _ => ⟨notLast, fun _ _ _ two apart => absurd ⟨two, apart⟩ move⟩
          by_cases zero : moveType = 0
          · -- The catalyst is dropped.
            subst zero
            obtain ⟨next, dropped, drops⟩ := drops_dropCatalyst there inside real
            refine ⟨next, ?_, Or.inr ⟨rfl, drops⟩⟩
            simp [step, onCrystalDragMessage, there, found, real, dropped]
          · apply answered
            by_cases one : moveType = 1
            · simp [step, onCrystalDragMessage, there, found, real, one]
            · by_cases two : moveType = 2
              · have same : newSlot = crystalSlot := not_not.mp fun apart => move ⟨two, apart⟩
                subst same
                simp [step, onCrystalDragMessage, there, found, real, two]
              · simp [step, onCrystalDragMessage, there, found, real, zero, one, two]
      · refine iff_of_true (answered ?_) fun _ => ⟨notLast, fun catalyst held does => ?_⟩
        · simp [step, onCrystalDragMessage, there, found, real]
        · rw [← Option.some_inj.mp (found.symm.trans held)] at does
          exact absurd does real
    · -- The slot behind the last one is read.
      refine iff_of_false ?_ fun allowed => (allowed there).1 rfl
      intro faithful
      obtain ⟨next, taken, -⟩ := faithful
      simp [step, onCrystalDragMessage, there, CatalystSlots.getCatalyst_last] at taken
    · have found := (s.mCatalysts player).getCatalyst_beyond beyond
      have nothing : ¬ Catalyst.empty.real := by decide
      refine iff_of_true (answered ?_) fun _ => ⟨fun last => ?_, fun catalyst held does => ?_⟩
      · simp [step, onCrystalDragMessage, there, found, nothing]
      · simp [last] at beyond
      · rw [← Option.some_inj.mp (found.symm.trans held)] at does
        exact absurd does nothing
  · refine iff_of_true (answered ?_) fun present => absurd present there
    simp [step, onCrystalDragMessage, there]

theorem faithful_iff (s : Catalysts PlayerPtr) (input : Input PlayerPtr) :
    s.Faithful input ↔ s.Allowed input := by
  -- The pickup and the deployment can do no harm.
  cases input with
  | crystalDrag player crystalSlot moveType newSlot =>
    exact faithful_drag_iff s player crystalSlot moveType newSlot
  | drop player catalystSlot => exact faithful_drop_iff s player catalystSlot
  | pickup player object => exact iff_of_true (faithful_pickup s player object) trivial
  | deploy player present => exact iff_of_true ⟨_, rfl, Or.inl (Still.refl s)⟩ trivial

/-! ### Runs -/

/--
From any slots and any loot, a run of drags, drops and pickups reads inside the slots and conserves
the catalysts at each step exactly when all its inputs are allowed.
-/
theorem conserved_iff_allowed (s : Catalysts PlayerPtr) (inputs : List (Input PlayerPtr)) :
    Along step Faithful s inputs ↔ Along step Allowed s inputs := by
  -- No invariant is needed, since each step is judged by the slots it starts from.
  have kept : Kept (@step PlayerPtr _) fun _ => True := fun _ _ _ _ _ => trivial
  exact kept.along_congr (fun s input _ => faithful_iff s input) inputs trivial

/-- A player moves its only catalyst to a tenth slot, and has none afterwards. -/
theorem not_conserved :
    ¬ ∀ (s : Catalysts Unit) (inputs : List (Input Unit)), Along step Faithful s inputs := by
  -- The tenth slot passes no check of the write, and the old slot is emptied all the same.
  intro always
  have along := always ⟨fun _ => Vector.replicate 9 (.new 14 .rare false), fun _ => true, []⟩
    [.crystalDrag () 0 2 10]
  have allowed := (faithful_iff _ _).mp along.1
  exact absurd ((allowed rfl).2 (.new 14 .rare false) rfl (by decide) rfl (by decide))
    (by decide)

end Catalysts

end Recap.Game
