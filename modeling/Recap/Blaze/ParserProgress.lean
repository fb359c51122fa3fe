import Recap.Blaze.ParserFrame

/-! How far the parser moves, and that a strict run of it comes to an end. -/

namespace Recap.Blaze.Parser

open Reader (SameContent)

/--
There is room to move on from a position without reaching the place where positions wrap.

From inside the capacity a part goes at most `inner` bytes past it, and from outside at most `outer` on.
-/
def Room (capacity inner outer position : Nat) : Prop :=
  (position < capacity → capacity + inner ≤ maxCapacity) ∧
    (capacity ≤ position → position + outer ≤ maxCapacity)

/-- How far a part has moved on, in the same terms. -/
structure Moves (capacity inner outer position after : Nat) : Prop where
  forward : position ≤ after
  inside : position < capacity → after ≤ capacity + inner
  outside : capacity ≤ position → after ≤ position + outer

/-- The fuel that is enough for a loop whose head is at a position. -/
def Ready (capacity fuel position : Nat) : Prop :=
  1 ≤ fuel ∧ (capacity < position + 4 ∨ capacity - position + 2 ≤ fuel)

/-- A part ends from a state: it returns further on, throws, or is stuck. -/
inductive Ends {α : Type} (inner outer least : Nat) (part : Parse α) (r : Reader) : Prop where
  | done {value : α} {after : Reader} (returned : part r = .done (value, after))
      (same : SameContent r after)
      (moves : Moves r.buffer.buffer.length inner outer r.buffer.position after.buffer.position)
      (progress : r.buffer.position + least ≤ after.buffer.position)
  | thrown {fault : Fault} (thrown : part r = .thrown fault)
  | stuck (stopped : part r = .stuck)

/-- What a part may rely on: the content is inside the capacity, and there is fuel and room. -/
structure Fit (fuel inner outer : Nat) (r : Reader) : Prop where
  size_le : r.buffer.size ≤ r.buffer.buffer.length
  ready : Ready r.buffer.buffer.length fuel r.buffer.position
  room : Room r.buffer.buffer.length inner outer r.buffer.position

/-- A part ends wherever there is fuel and room for it. -/
def Steady {α : Type} (fuel inner outer : Nat) (part : Parse α) : Prop :=
  ∀ r, Fit fuel inner outer r → Ends inner outer 0 part r

/-- Where there is room, the position is far from wrapping. -/
theorem Room.position_le {capacity inner outer position : Nat} (room : Room capacity inner outer position) :
    position ≤ maxCapacity := by
  have inside := room.1
  have outside := room.2
  omega

/-- Further on, there is room for what is left to move. -/
theorem Room.after {capacity inner outer first second position next : Nat} {inner₁ inner₂ : Nat}
    (room : Room capacity inner outer position) (moves : Moves capacity inner₁ first position next)
    (crossing : inner₁ + second ≤ inner) (within : inner₂ ≤ inner) (beyond : first + second ≤ outer) :
    Room capacity inner₂ second next := by
  obtain ⟨forward, inside, outside⟩ := moves
  have inside_room := room.1
  have outside_room := room.2
  constructor <;> omega

/-- Moving on twice. -/
theorem Moves.trans {capacity inner outer first second position next last : Nat} {inner₁ inner₂ : Nat}
    (earlier : Moves capacity inner₁ first position next)
    (later : Moves capacity inner₂ second next last)
    (crossing : inner₁ + second ≤ inner) (within : inner₂ ≤ inner) (beyond : first + second ≤ outer) :
    Moves capacity inner outer position last := by
  obtain ⟨forward, inside, outside⟩ := earlier
  obtain ⟨forward', inside', outside'⟩ := later
  constructor <;> omega

/-- Fuel that is enough at a position is enough further on. -/
theorem Ready.mono {capacity fuel position next : Nat} (ready : Ready capacity fuel position)
    (forward : position ≤ next) : Ready capacity fuel next := by
  obtain ⟨some_fuel, enough⟩ := ready
  exact ⟨some_fuel, by omega⟩

/-- What follows a part that ended may rely on what is left. -/
theorem Fit.after {fuel inner outer inner₁ inner₂ first second : Nat} {r after : Reader}
    (fit : Fit fuel inner outer r) (same : SameContent r after)
    (moves : Moves r.buffer.buffer.length inner₁ first r.buffer.position after.buffer.position)
    (crossing : inner₁ + second ≤ inner) (within : inner₂ ≤ inner) (beyond : first + second ≤ outer) :
    Fit fuel inner₂ second after where
  size_le := by
    rw [same.size, same.held]
    exact fit.size_le
  ready := by
    rw [same.held]
    exact fit.ready.mono moves.forward
  room := by
    rw [same.held]
    exact fit.room.after moves crossing within beyond

/-- Parts that agree at a state end there alike. -/
theorem Ends.congr {α : Type} {inner outer least : Nat} {part other : Parse α} {r : Reader}
    (ends : Ends inner outer least part r) (agree : other r = part r) :
    Ends inner outer least other r := by
  cases ends with
  | thrown thrown => exact .thrown (agree.trans thrown)
  | stuck stopped => exact .stuck (agree.trans stopped)
  | done returned same moves progress => exact .done (agree.trans returned) same moves progress

/-- A part that moves on by at least so much also does by less. -/
theorem Ends.lower {α : Type} {inner outer least less : Nat} {part : Parse α} {r : Reader}
    (ends : Ends inner outer least part r) (lower : less ≤ least) : Ends inner outer less part r := by
  cases ends with
  | thrown thrown => exact .thrown thrown
  | stuck stopped => exact .stuck stopped
  | done returned same moves progress => exact .done returned same moves (by omega)

/-- Two parts that end one after the other. -/
theorem Ends.bind {α β : Type} {inner outer inner₁ first least : Nat} (inner₂ second : Nat)
    {part : Parse α} {next : α → Parse β} {r : Reader} (ends : Ends inner₁ first least part r)
    (later : ∀ value after, part r = .done (value, after) → SameContent r after →
      Moves r.buffer.buffer.length inner₁ first r.buffer.position after.buffer.position →
        r.buffer.position + least ≤ after.buffer.position → Ends inner₂ second 0 (next value) after)
    (crossing : inner₁ + second ≤ inner) (within : inner₂ ≤ inner) (beyond : first + second ≤ outer) :
    Ends inner outer least (part >>= next) r := by
  cases ends with
  | thrown thrown => exact .thrown (Program.bind_thrown thrown)
  | stuck stopped => exact .stuck (Program.bind_stuck stopped)
  | done returned same moves progress =>
    -- The second part starts where the first one ended, over the same content.
    cases later _ _ returned same moves progress with
    | thrown thrown => exact .thrown (by rw [Program.bind_done returned, thrown])
    | stuck stopped => exact .stuck (by rw [Program.bind_done returned, stopped])
    | done returned' same' moves' progress' =>
      rw [same.held] at moves'
      exact .done (by rw [Program.bind_done returned, returned'])
        (SameContent.trans _ _ _ same same')
        (moves.trans moves' crossing within beyond) (by omega)

namespace Steady

variable {α β : Type} {fuel : Nat}

/-- What ends within some bounds ends within larger ones. -/
theorem weaken {inner outer inner' outer' : Nat} {part : Parse α} (steady : Steady fuel inner outer part)
    (within : inner ≤ inner') (beyond : outer ≤ outer') : Steady fuel inner' outer' part := by
  intro r fit
  have smaller : Room r.buffer.buffer.length inner outer r.buffer.position := by
    have inside := fit.room.1
    have outside := fit.room.2
    constructor <;> omega
  cases steady r ⟨fit.size_le, fit.ready, smaller⟩ with
  | thrown thrown => exact .thrown thrown
  | stuck stopped => exact .stuck stopped
  | done returned same moves progress =>
    obtain ⟨forward, inside, outside⟩ := moves
    exact .done returned same ⟨forward, by omega, by omega⟩ progress

/-- Two parts in sequence, where the second one may be needed outside the capacity. -/
theorem bind {inner outer inner₁ first : Nat} (inner₂ second : Nat) {part : Parse α} {next : α → Parse β}
    (before : Steady fuel inner₁ first part) (later : ∀ value, Steady fuel inner₂ second (next value))
    (crossing : inner₁ + second ≤ inner) (within : inner₂ ≤ inner) (beyond : first + second ≤ outer) :
    Steady fuel inner outer (part >>= next) := by
  intro r fit
  have inside := fit.room.1
  have outside := fit.room.2
  refine (before r ⟨fit.size_le, fit.ready, ?_⟩).bind inner₂ second (fun value after _ same moves _ =>
    later value after (fit.after same moves crossing within beyond)) crossing within beyond
  constructor <;> omega

theorem pure (value : α) : Steady fuel 0 0 (Pure.pure value) := fun r _ =>
  .done rfl (SameContent.refl r) ⟨Nat.le_refl _, by omega, by omega⟩ (Nat.le_refl _)

theorem throw (fault : Fault) : Steady (α := α) fuel 0 0 (Program.throw fault) := fun _ _ =>
  .thrown rfl

/-- What is done with a value afterwards does not move. -/
theorem map {inner outer : Nat} {part : Parse α} (steady : Steady fuel inner outer part)
    (change : α → β) : Steady fuel inner outer (do return change (← part)) :=
  steady.bind 0 0 (fun _ => pure _) (by omega) (by omega) (by omega)

/-- A part that never moves. -/
theorem still {run : Reader → α × Reader} (same : ∀ r, (run r).2.buffer = r.buffer) :
    Steady fuel 0 0 (Program.act run) := fun r _ =>
  .done rfl ⟨by rw [same], by rw [same]⟩
    (by
      rw [same]
      exact ⟨Nat.le_refl _, by omega, by omega⟩)
    (by rw [same, Nat.add_zero])

end Steady

/-- A read moves by its width where it fits into the capacity, and not at all elsewhere. -/
theorem read_position {r : Reader} (width : Nat) (near : r.buffer.position ≤ maxCapacity)
    (small : width < maxCapacity) :
    (r.read width).2.buffer.position =
      if r.buffer.position + width ≤ r.buffer.buffer.length then r.buffer.position + width
      else r.buffer.position := by
  have twice : maxCapacity + maxCapacity = wordBound := by decide
  have short : width % wordBound = width := Nat.mod_eq_of_lt (by omega)
  have noWrap : (r.buffer.position + width) % wordBound = r.buffer.position + width :=
    Nat.mod_eq_of_lt (by omega)
  rw [Reader.read_eq, short]
  by_cases fits : r.buffer.position + width ≤ r.buffer.buffer.length
  · have admitted : r.buffer.canRw width = true := by simp [DataBuffer.canRw, noWrap, fits]
    rw [if_pos admitted, if_pos fits, noWrap]
  · have refused : ¬ r.buffer.canRw width = true := by simp [DataBuffer.canRw, noWrap, fits]
    rw [if_neg refused, if_neg fits]
    rfl

namespace Steady

variable {fuel : Nat}

theorem read (width : Nat) (small : width < maxCapacity) :
    Steady fuel 0 0 (Program.act (·.read width)) := by
  intro r fit
  have moved := read_position width fit.room.position_le small
  have moves : Moves r.buffer.buffer.length 0 0 r.buffer.position (r.read width).2.buffer.position := by
    rw [moved]
    constructor <;> split <;> omega
  exact .done rfl (SameContent.read width r) moves moves.forward

theorem peek : Steady fuel 0 0 peekU8 := still fun r => by
  rw [Reader.peek_eq]
  split <;> rfl

theorem atEnd : Steady fuel 0 0 eof := still fun _ => rfl

/-- A skip is the one move that no guard keeps inside the capacity. -/
theorem skip : Steady fuel 1 1 skipU8 := by
  intro r fit
  have near := fit.room.position_le
  have far : maxCapacity + 1 < wordBound := by decide
  have moved : (r.buffer.skip 1 1).position = r.buffer.position + 1 :=
    Nat.mod_eq_of_lt (show r.buffer.position + 1 < wordBound by omega)
  refine .done rfl ⟨rfl, rfl⟩ ?_ (by simp [moved])
  simp only [moved]
  exact ⟨by omega, by omega, by omega⟩

/-- The decoder's loop reads byte by byte. -/
theorem decodeTail (remaining i value : Nat) :
    Steady fuel 0 0 (Program.act (Reader.decodeTdfTail remaining i value)) := by
  induction remaining generalizing i value with
  | zero => exact still fun _ => rfl
  | succ remaining ih =>
    rw [decodeTdfTail_succ]
    refine (read 1 (by decide)).bind 0 0 (fun next => ?_) (by omega) (by omega)
      (by omega)
    split
    · exact pure _
    · exact ih _ _

theorem integer : Steady fuel 0 0 readU64 := by
  rw [readU64_eq_bind]
  refine (read 1 (by decide)).bind 0 0 (fun value => ?_) (by omega) (by omega)
    (by omega)
  split
  · exact decodeTail 7 1 _
  · exact pure value

/-- Characters are copied only where all of them are inside the capacity. -/
theorem chars {env : Env} (bounded : env.maxSize < maxCapacity) (length : Nat) :
    Steady fuel 0 0 (readChars env length) := by
  -- Below the bound on sizes, neither the length nor the position behind it wraps.
  unfold readChars
  split
  · exact throw _
  · rename_i short
    intro r fit
    have near := fit.room.position_le
    have twice : maxCapacity + maxCapacity = wordBound := by decide
    have whole : 1 * length % wordBound = length := by
      rw [Nat.one_mul]
      exact Nat.mod_eq_of_lt (by omega)
    have noWrap : (r.buffer.position + length) % wordBound = r.buffer.position + length :=
      Nat.mod_eq_of_lt (by omega)
    by_cases fits : r.buffer.position + length ≤ r.buffer.buffer.length
    · have admitted : r.buffer.canRw length = true := by simp [DataBuffer.canRw, noWrap, fits]
      have copied : r.buffer.implRead 1 length =
          (some ((r.buffer.buffer.drop r.buffer.position).take length),
            { r.buffer with position := r.buffer.position + length }) := by
        simp only [DataBuffer.implRead, whole, if_pos admitted, noWrap]
      let last : Reader := ⟨{ r.buffer with position := r.buffer.position + length }, r.uninit⟩
      refine .done (show _ = Outcome.done (_, last) by rw [Program.act_apply, copied]) ⟨rfl, rfl⟩
        ⟨?_, ?_, ?_⟩ ?_
      all_goals
        dsimp only [last]
        omega
    · have refused : ¬ r.buffer.canRw length = true := by simp [DataBuffer.canRw, noWrap, fits]
      refine .done (by rw [Program.act_apply, DataBuffer.implRead, whole, if_neg refused])
        (SameContent.refl r) ⟨Nat.le_refl _, by omega, by omega⟩ (Nat.le_refl _)

theorem sized {env : Env} (bounded : env.maxSize < maxCapacity) (length : Nat) :
    Steady fuel 0 0 (readSized env length) := by
  unfold readSized
  split
  · exact chars bounded length
  · exact pure []

theorem string {env : Env} (bounded : env.maxSize < maxCapacity) :
    Steady fuel 1 1 (readString env) := by
  suffices text : Steady fuel 1 1 (readText env) from text.map Json.ofText
  refine integer.bind 1 1 (fun decoded => ?_) (by omega) (by omega) (by omega)
  refine (sized bounded _).bind 1 1 (fun text => ?_) (by omega) (by omega)
    (by omega)
  exact skip.bind 0 0 (fun _ => pure text) (by omega) (by omega) (by omega)

theorem blob {env : Env} (bounded : env.maxSize < maxCapacity) : Steady fuel 0 0 (readBlob env) :=
  integer.bind 0 0 (fun _ => (sized bounded _).map _) (by omega) (by omega) (by omega)

/-- A byte is below 256, which bounds how often what it counts is repeated. -/
theorem bindByte {β : Type} {inner outer : Nat} {next : Nat → Parse β} (ordered : outer ≤ inner)
    (later : ∀ byte, byte < 256 → Steady fuel inner outer (next byte)) :
    Steady fuel inner outer (readU8 >>= next) := by
  intro r fit
  have inside := fit.room.1
  have outside := fit.room.2
  have ends : Ends 0 0 0 readU8 r := read 1 (by decide) r ⟨fit.size_le, fit.ready, by
    constructor <;> omega⟩
  refine ends.bind inner outer (fun byte after returned same moves _ => ?_)
    (by omega) (by omega) (by omega)
  refine later byte ?_ after (fit.after same moves (by omega) (by omega) (by omega))
  have value : (r.read 1).1 = byte := by
    rw [readU8, Program.act_apply, Outcome.done.injEq] at returned
    rw [returned]
  rw [← value]
  exact r.read_one_lt

/-- Rounds move on by no more than their number allows. -/
theorem repeated {inner outer : Nat} {body : Json → Parse Json}
    (round : ∀ value, Steady fuel inner outer (body value)) (count : Nat) (value : Json) :
    Steady fuel (inner + count * outer) (count * outer) (Program.repeated body count value) := by
  -- Only the first round can start inside the capacity and end outside of it.
  induction count generalizing value with
  | zero => exact (pure value).weaken (by omega) (by omega)
  | succ count ih =>
    have more : (count + 1) * outer = count * outer + outer := Nat.succ_mul count outer
    exact (round value).bind _ _ ih (by omega) (by omega) (by omega)

end Steady

/-- The fuel that is enough to read a value at a position. -/
def Enough (capacity fuel position : Nat) : Prop :=
  capacity - position + 1 ≤ fuel ∧ (capacity < position + 4 ∨ capacity - position + 2 ≤ fuel)

/--
A value with a name ends wherever there is fuel and room for it.

It does not move outside the capacity at all, and a header that fits is always moved past.
-/
def SteadyValue (fuel inner : Nat) (value : Json → Parse Json) : Prop :=
  ∀ parent r, r.buffer.size ≤ r.buffer.buffer.length →
    Enough r.buffer.buffer.length fuel r.buffer.position →
      Room r.buffer.buffer.length inner 0 r.buffer.position →
        Ends inner 0 (if r.buffer.position + 4 ≤ r.buffer.buffer.length then 4 else 0) (value parent) r

section Nested

variable {fuel inner : Nat} {maxSize : Nat} {value : Json → Parse Json}
  (bounded : maxSize < maxCapacity) (nested : SteadyValue fuel inner value)

/-- A strict loop ends, because every round that it makes moves past a header. -/
theorem Steady.loop {test : Parse Bool} (tested : Steady fuel 0 0 test)
    (kept : ∀ r passed after, test r = .done (passed, after) → after.buffer = r.buffer)
    (nested : SteadyValue fuel inner value) (parent : Json) :
    Steady fuel inner 0 (Program.loop (starving ⟨maxSize, true⟩) test value fuel parent) := by
  -- The rounds have their own fuel, of which a state further on needs less.
  suffices rounds : ∀ count parent r, Fit fuel inner 0 r →
      Ready r.buffer.buffer.length count r.buffer.position →
        Ends inner 0 0 (Program.loop (starving ⟨maxSize, true⟩) test value count parent) r by
    exact fun r fit => rounds fuel parent r fit fit.ready
  intro count
  induction count with
  | zero => exact fun _ _ _ ready => absurd ready.1 (by omega)
  | succ count ih =>
    intro parent r fit ready
    have inside := fit.room.1
    have outside := fit.room.2
    rw [Program.loop_succ]
    refine (tested r ⟨fit.size_le, fit.ready, by constructor <;> omega⟩).bind inner 0
      (fun passed after returned same moves _ => ?_)
      (by omega) (by omega) (by omega)
    have buffer := kept r passed after returned
    cases passed with
    | false =>
      exact .done rfl (SameContent.refl _) ⟨Nat.le_refl _, by omega, by omega⟩ (Nat.le_refl _)
    | true =>
      rw [if_pos rfl]
      cases fits : after.buffer.canRw 4 with
      | false => exact .stuck (by simp [Program.guarded, starving, fits])
      | true =>
        -- A header fits, so the round moves on and the rest of the rounds has fuel enough.
        have room := fit.room
        have near := room.position_le
        have far : maxCapacity + 4 < wordBound := by decide
        have header : after.buffer.position + 4 ≤ after.buffer.buffer.length := by
          rw [buffer] at fits ⊢
          simpa [DataBuffer.canRw, Nat.mod_eq_of_lt (show r.buffer.position + 4 < wordBound by omega)]
            using fits
        rw [← buffer] at ready
        have enough := ready.2
        have whole := fit.ready.2
        rw [← buffer] at whole
        have size_le := fit.size_le
        rw [← buffer] at size_le room
        have round := nested parent after size_le ⟨by omega, by omega⟩ room
        rw [if_pos header] at round
        suffices rest : Ends inner 0 4
            (value parent >>= Program.loop (starving ⟨maxSize, true⟩) test value count) after by
          have free : Program.guarded (starving ⟨maxSize, true⟩)
              (value parent >>= Program.loop (starving ⟨maxSize, true⟩) test value count) after =
                (value parent >>= Program.loop (starving ⟨maxSize, true⟩) test value count) after := by
            simp [Program.guarded, starving, fits]
          exact (rest.congr free).lower (by omega)
        refine round.bind inner 0
          (fun next last _ same' moves' progress => ?_) (by omega) (by omega) (by omega)
        refine ih next last ?_ ?_
        · have fit' : Fit fuel inner 0 after := ⟨size_le, buffer ▸ fit.ready, room⟩
          exact fit'.after same' moves' (by omega) (by omega) (by omega)
        · rw [same'.held]
          exact ⟨by omega, by omega⟩

include nested

theorem SteadyValue.fields (parent : Json) :
    Steady fuel (inner + 1) 1 (readFields ⟨maxSize, true⟩ value fuel parent) := by
  have tested : Steady fuel 0 0 moreFields := Steady.peek.map _
  have kept : ∀ r passed after, moreFields r = .done (passed, after) → after.buffer = r.buffer := by
    intro r passed after returned
    rw [moreFields, peekU8, Program.act_bind, Program.pure_apply, Outcome.done.injEq,
      Prod.mk.injEq] at returned
    rw [← returned.2, Reader.peek_eq]
    split <;> rfl
  refine (Steady.loop tested kept nested parent).bind 1 1 (fun value => ?_)
    (by omega) (by omega) (by omega)
  exact Steady.skip.bind 0 0 (fun _ => Steady.pure value) (by omega) (by omega) (by omega)

theorem SteadyValue.struct :
    Steady fuel (inner + 1) 1 (readStruct ⟨maxSize, true⟩ value fuel) :=
  nested.fields _

include bounded

/-- What stands in a list or a map goes one byte past the capacity more than what it nests. -/
theorem SteadyValue.item (kind : Kind) (item : Parse Json)
    (reader : readItem ⟨maxSize, true⟩ value fuel kind = some item) : Steady fuel (inner + 1) 1 item := by
  have env : (⟨maxSize, true⟩ : Env).maxSize < maxCapacity := bounded
  cases kind with
  | integer =>
    rw [← Option.some.inj reader]
    exact (Steady.integer.map _).weaken (by omega) (by omega)
  | string =>
    rw [← Option.some.inj reader]
    exact (Steady.string env).weaken (by omega) (by omega)
  | struct =>
    rw [← Option.some.inj reader]
    exact nested.struct
  | _ => exact absurd reader (by simp [readItem])

theorem SteadyValue.listContent (kind : Kind) (listSize : Nat) (stub : Bool) (small : listSize < 256) :
    Steady fuel (inner + 256) 255 (readListContent ⟨maxSize, true⟩ value fuel kind listSize stub) := by
  unfold readListContent
  cases stub with
  | true =>
    exact Steady.skip.bind (inner + 1) 1 (fun _ => nested.fields _)
      (by omega) (by omega) (by omega)
  | false =>
    cases reader : readItem ⟨maxSize, true⟩ value fuel kind with
    | none =>
      simp only [Bool.false_eq_true, if_false]
      exact (Steady.pure _).weaken (by omega) (by omega)
    | some item =>
      simp only [Bool.false_eq_true, if_false]
      have steady := nested.item bounded kind item reader
      exact (Steady.repeated (fun content => steady.map _) listSize _).weaken (by omega) (by omega)

theorem SteadyValue.list : Steady fuel (inner + 256) 255 (readList ⟨maxSize, true⟩ value fuel) := by
  refine Steady.bindByte (by omega) fun listType _ => Steady.bindByte (by omega) fun listSize small => ?_
  refine Steady.peek.bind (inner + 256) 255 (fun ahead => ?_) (by omega) (by omega) (by omega)
  exact (nested.listContent bounded _ listSize _ small).map _

theorem SteadyValue.entryItem (kind : Kind) :
    Steady fuel (inner + 1) 1 ((readItem ⟨maxSize, true⟩ value fuel kind).getD (pure .null)) := by
  cases reader : readItem ⟨maxSize, true⟩ value fuel kind with
  | none => exact (Steady.pure _).weaken (by omega) (by omega)
  | some item => exact nested.item bounded kind item reader

theorem SteadyValue.entry (keyType valueType : Kind) (content : Json) :
    Steady fuel (inner + 2) 2 (readEntry ⟨maxSize, true⟩ value fuel keyType valueType content) := by
  refine (nested.entryItem bounded keyType).bind (inner + 1) 1 (fun key => ?_)
    (by omega) (by omega) (by omega)
  refine (nested.entryItem bounded valueType).bind 0 0 (fun value => ?_)
    (by omega) (by omega) (by omega)
  split
  · exact Steady.pure _
  · exact Steady.throw _

theorem SteadyValue.map : Steady fuel (inner + 512) 510 (readMap ⟨maxSize, true⟩ value fuel) := by
  refine Steady.bindByte (by omega) fun keyType _ => Steady.bindByte (by omega) fun valueType _ =>
    Steady.bindByte (by omega) fun mapSize small => ?_
  have entries := Steady.repeated (nested.entry bounded (.ofNat keyType) (.ofNat valueType)) mapSize
    (.object [])
  exact (entries.weaken (by omega) (by omega)).map _

omit bounded nested in
theorem Steady.integerList : Steady fuel 0 0 readIntegerList := by
  refine Steady.bindByte (by omega) fun listSize _ => ?_
  have integer : Steady fuel 0 0 readU64 := Steady.integer
  have items := Steady.repeated (fun content => (integer.map Json.number).map (Json.pushBack content))
    listSize (.array [])
  exact (items.weaken (by omega) (by omega)).map _

/-- What follows a header, unless it is a union, which nests a value without a loop around it. -/
theorem SteadyValue.typed (kind : Kind) (other : kind ≠ .union) (typed : Parse Json)
    (reader : readTyped ⟨maxSize, true⟩ value fuel kind = some typed) :
    Steady fuel (inner + 512) 510 typed := by
  -- A map takes all that there is to take. The other kinds make do with less of it.
  have env : (⟨maxSize, true⟩ : Env).maxSize < maxCapacity := bounded
  have integer : Steady fuel 0 0 readInteger := Steady.integer.map _
  cases kind with
  | union => exact absurd rfl other
  | integer =>
    rw [← Option.some.inj reader]
    exact integer.weaken (by omega) (by omega)
  | string =>
    rw [← Option.some.inj reader]
    exact (Steady.string env).weaken (by omega) (by omega)
  | binary =>
    rw [← Option.some.inj reader]
    exact (Steady.blob env).weaken (by omega) (by omega)
  | struct =>
    rw [← Option.some.inj reader]
    exact nested.struct.weaken (by omega) (by omega)
  | list =>
    rw [← Option.some.inj reader]
    exact (nested.list bounded).weaken (by omega) (by omega)
  | map =>
    rw [← Option.some.inj reader]
    exact nested.map bounded
  | integerList =>
    rw [← Option.some.inj reader]
    exact Steady.integerList.weaken (by omega) (by omega)
  | objectType =>
    rw [← Option.some.inj reader]
    exact integer.bind 0 0 (fun _ => integer.map _) (by omega) (by omega) (by omega)
  | objectId =>
    rw [← Option.some.inj reader]
    exact integer.bind 0 0 (fun _ => integer.bind 0 0 (fun _ => integer.map _) (Nat.le_refl _)
      (Nat.le_refl _) (Nat.le_refl _)) (by omega) (by omega) (by omega)
  | float | timeValue | other value => exact absurd reader (by simp [readTyped])

omit bounded in
/-- A union nests a value behind its address byte, which inside the content can always be read. -/
theorem SteadyValue.union {r : Reader} (size_le : r.buffer.size ≤ r.buffer.buffer.length)
    (before_end : r.buffer.position < r.buffer.buffer.length)
    (held : r.buffer.buffer.length - r.buffer.position ≤ fuel)
    (room : r.buffer.buffer.length + inner ≤ maxCapacity)
    (enough : r.buffer.buffer.length < r.buffer.position + 5 ∨
      r.buffer.buffer.length - r.buffer.position + 1 ≤ fuel) :
    Ends inner 0 0 (readUnion value) r := by
  -- The address byte is the progress that bounds how deep unions nest.
  obtain ⟨byte, next, read_byte, same, moved⟩ : ∃ byte next, readU8 r = .done (byte, next) ∧
      SameContent r next ∧ next.buffer.position = r.buffer.position + 1 :=
    ⟨(r.read 1).1, (r.read 1).2, rfl, SameContent.read 1 r, by
      rw [read_position 1 (by omega) (by decide), if_pos (by omega)]⟩
  have ends : Ends 0 0 0 readU8 r := .done read_byte same
    ⟨by omega, by omega, by omega⟩ (by omega)
  refine ends.bind inner 0 (fun addressMember after returned same' _ _ => ?_)
    (by omega) (by omega) (by omega)
  have position : after.buffer.position = r.buffer.position + 1 := by
    rw [read_byte, Outcome.done.injEq, Prod.mk.injEq] at returned
    rw [← returned.2, moved]
  split
  · refine (nested _ after ?_ ?_ ?_).lower (by omega)
    · rw [same'.held, same'.size]
      exact size_le
    · rw [same'.held]
      constructor <;> omega
    · rw [same'.held]
      constructor <;> omega
  · exact .done rfl (SameContent.refl _) ⟨Nat.le_refl _, by omega, by omega⟩ (Nat.le_refl _)

/-- What follows a header inside the content ends, whatever its type is. -/
theorem SteadyValue.any {r : Reader} (size_le : r.buffer.size ≤ r.buffer.buffer.length)
    (before_end : r.buffer.position < r.buffer.buffer.length)
    (held : r.buffer.buffer.length - r.buffer.position ≤ fuel)
    (room : r.buffer.buffer.length + (inner + 512) ≤ maxCapacity)
    (enough : r.buffer.buffer.length < r.buffer.position + 4 ∨
      r.buffer.buffer.length - r.buffer.position + 2 ≤ fuel) (kind : Kind) (typed : Parse Json)
    (reader : readTyped ⟨maxSize, true⟩ value fuel kind = some typed) :
    Ends (inner + 512) 510 0 typed r := by
  by_cases union : kind = .union
  · subst union
    rw [← Option.some.inj reader]
    have ends := nested.union size_le before_end held (by omega) (by omega)
    cases ends with
    | thrown thrown => exact .thrown thrown
    | stuck stopped => exact .stuck stopped
    | done returned same moves progress =>
      obtain ⟨forward, inside, -⟩ := moves
      exact .done returned same ⟨forward, by omega, by omega⟩ progress
  · exact nested.typed bounded kind union typed reader r
      ⟨size_le, ⟨by omega, by omega⟩, ⟨by omega, by omega⟩⟩

/-- One more level of nesting goes further past the capacity, but only from inside it. -/
theorem SteadyValue.succ (read : Json → Parse Json) (reads : ∀ parent, read parent =
      readHeader >>= fun header => eof >>= fun ended =>
        if ended then pure parent else
          match readTyped ⟨maxSize, true⟩ value fuel header.type with
          | some typed => return addObject header (← typed) parent
          | none => pure parent) :
    SteadyValue (fuel + 1) (inner + 512) read := by
  intro parent r size_le enough room
  have inside := room.1
  have outside := room.2
  obtain ⟨held, fuels⟩ := enough
  obtain ⟨header, after, headed, same, moved⟩ : ∃ header after, readHeader r = .done (header, after) ∧
      SameContent r after ∧ after.buffer.position =
        if r.buffer.position + 4 ≤ r.buffer.buffer.length then r.buffer.position + 4
        else r.buffer.position :=
    ⟨_, _, rfl, SameContent.read 4 r, read_position 4 room.position_le (by decide)⟩
  have progress : r.buffer.position + (if r.buffer.position + 4 ≤ r.buffer.buffer.length then 4 else 0) =
      after.buffer.position := by
    rw [moved]
    split <;> rfl
  have within : r.buffer.position < r.buffer.buffer.length →
      after.buffer.position ≤ r.buffer.buffer.length := by
    rw [moved]
    split <;> omega
  have without : r.buffer.buffer.length ≤ r.buffer.position →
      after.buffer.position = r.buffer.position := by
    rw [moved]
    split <;> omega
  -- A value that ends with its header, because nothing follows or its type is unknown.
  have header_only : read parent r = .done (parent, after) →
      Ends (inner + 512) 0 (if r.buffer.position + 4 ≤ r.buffer.buffer.length then 4 else 0)
        (read parent) r := fun returned =>
    .done returned same ⟨by omega, by omega, by omega⟩ (by omega)
  have from_header : read parent r = (eof >>= fun ended =>
      if ended then pure parent else
        match readTyped ⟨maxSize, true⟩ value fuel header.type with
        | some typed => (do return addObject header (← typed) parent : Parse Json)
        | none => pure parent) after := by
    rw [reads, Program.bind_done headed]
  rw [eof, Program.act_bind] at from_header
  cases ended : after.buffer.eof with
  | true =>
    simp only [ended, if_true] at from_header
    exact header_only from_header
  | false =>
    simp only [ended, Bool.false_eq_true, if_false] at from_header
    cases reader : readTyped ⟨maxSize, true⟩ value fuel header.type with
    | none =>
      simp only [reader] at from_header
      exact header_only from_header
    | some typed =>
      simp only [reader] at from_header
      -- Content is left, so the position is inside the capacity, as it was before the header.
      have before_end : after.buffer.position < after.buffer.buffer.length := by
        simp only [DataBuffer.eof, decide_eq_false_iff_not, not_le] at ended
        rw [same.size] at ended
        rw [same.held]
        omega
      rw [same.held] at before_end
      have fits : after.buffer.position = r.buffer.position + 4 ∨
          r.buffer.buffer.length < r.buffer.position + 4 := by
        rw [moved]
        split <;> omega
      have ends := nested.any bounded (by rw [same.held, same.size]; exact size_le)
        (by rw [same.held]; exact before_end) (by rw [same.held]; omega)
        (by rw [same.held]; omega) (by rw [same.held]; omega) header.type typed reader
      cases ends with
      | thrown thrown => exact .thrown (from_header.trans (Program.bind_thrown thrown))
      | stuck stopped => exact .stuck (from_header.trans (Program.bind_stuck stopped))
      | done returned same' moves _ =>
        obtain ⟨forward, inner_moves, -⟩ := moves
        rw [same.held] at inner_moves
        exact .done (from_header.trans (Program.bind_done returned)) (SameContent.trans _ _ _ same same')
          ⟨by omega, by omega, by omega⟩ (by omega)

end Nested

end Recap.Blaze.Parser
