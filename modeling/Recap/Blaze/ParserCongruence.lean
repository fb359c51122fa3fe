import Recap.Blaze.Tdf

/-! One walk over the parser, for every relation that its building blocks respect. -/

namespace Recap.Blaze.Parser

/--
A relation between a run of the parser and a family of runs, respected by everything it is built of.

The first run has its own strictness and fuel, and each run of the family has the family's strictness
and its own fuel.
-/
structure Congruence (ι : Type) where
  Related : {α : Type} → Parse α → (ι → Parse α) → Prop
  /-- The largest size of a string, the same in all of the runs. -/
  maxSize : Nat
  strict : Bool
  strictAll : Bool
  fuel : Nat
  fuels : ι → Nat
  pure : ∀ {α : Type} (value : α), Related (pure value) fun _ => pure value
  bind : ∀ {α β : Type} {first : Parse α} {firsts : ι → Parse α} {next : α → Parse β}
    {nexts : ι → α → Parse β}, Related first firsts →
      (∀ value, Related (next value) fun i => nexts i value) →
        Related (first >>= next) fun i => firsts i >>= nexts i
  throw : ∀ {α : Type} (fault : Fault),
    Related (α := α) (Program.throw fault) fun _ => Program.throw fault
  read : ∀ width, Related (Program.act (·.read width)) fun _ => Program.act (·.read width)
  peek : Related peekU8 fun _ => peekU8
  skip : Related skipU8 fun _ => skipU8
  atEnd : Related eof fun _ => eof
  chars : ∀ length, Related (readChars ⟨maxSize, strict⟩ length)
    fun _ => readChars ⟨maxSize, strictAll⟩ length
  loop : ∀ {test : Parse Bool}, (test = moreFields ∨ test = moreContent) →
    (∀ value, Related (readValue ⟨maxSize, strict⟩ fuel value)
      fun i => readValue ⟨maxSize, strictAll⟩ (fuels i) value) →
        ∀ value, Related
          (Program.loop (starving ⟨maxSize, strict⟩) test (readValue ⟨maxSize, strict⟩ fuel) fuel value)
          fun i => Program.loop (starving ⟨maxSize, strictAll⟩) test
            (readValue ⟨maxSize, strictAll⟩ (fuels i)) (fuels i) value

/-- The decoder's loop is a read, and then either its end or the rest of it. -/
theorem decodeTdfTail_succ (remaining i value : Nat) :
    (Program.act (Reader.decodeTdfTail (remaining + 1) i value) : Parse Nat) =
      Program.act (·.read 1) >>= fun next =>
        if next < 0x80 then pure (value ||| ((next &&& 0x7F) <<< (i * 7 - 1)))
        else Program.act
          (Reader.decodeTdfTail remaining (i + 1) (value ||| ((next &&& 0x7F) <<< (i * 7 - 1)))) := by
  funext r
  rw [Program.act_bind, Program.act_apply, Reader.decodeTdfTail]
  dsimp only
  split <;> rfl

/-- The decoder is a read, and then either its end or its loop. -/
theorem readU64_eq_bind :
    readU64 = Program.act (·.read 1) >>= fun value =>
      if 0x80 ≤ value then Program.act (Reader.decodeTdfTail 7 1 (value &&& 0x3F)) else pure value := by
  funext r
  rw [Program.act_bind, readU64, Program.act_apply, Reader.decodeTdfInteger]
  dsimp only
  split <;> rfl

namespace Congruence

variable {ι : Type} (c : Congruence ι)

/-- The environment of the first run. -/
def env : Env := ⟨c.maxSize, c.strict⟩

/-- The environment of the runs of the family. -/
def envs : Env := ⟨c.maxSize, c.strictAll⟩

/-- A value with a name, as the first run reads it. -/
abbrev value : Json → Parse Json := Parser.readValue c.env c.fuel

/-- A value with a name, as a run of the family reads it. -/
abbrev values (i : ι) : Json → Parse Json := Parser.readValue c.envs (c.fuels i)

/-- What is done with a value afterwards keeps runs related. -/
theorem map {α β : Type} {part : Parse α} {parts : ι → Parse α} (change : α → β)
    (related : c.Related part parts) :
    c.Related (do return change (← part)) fun i => do return change (← parts i) :=
  c.bind related fun value => c.pure (change value)

/-- Related rounds repeated as often are related. -/
theorem repeated {body : Json → Parse Json} {bodies : ι → Json → Parse Json}
    (related : ∀ value, c.Related (body value) fun i => bodies i value) (count : Nat) (value : Json) :
    c.Related (Program.repeated body count value) fun i => Program.repeated (bodies i) count value := by
  -- The induction follows the rounds.
  induction count generalizing value with
  | zero => exact c.pure value
  | succ count ih => exact c.bind (related value) ih

/-- The decoder's loop, which is the same in all of the runs. -/
theorem decodeTail (remaining i value : Nat) :
    c.Related (Program.act (Reader.decodeTdfTail remaining i value))
      fun _ => Program.act (Reader.decodeTdfTail remaining i value) := by
  -- The induction follows the bytes that the loop may still read.
  induction remaining generalizing i value with
  | zero => exact c.pure value
  | succ remaining ih =>
    rw [decodeTdfTail_succ]
    refine c.bind (c.read 1) fun next => ?_
    split
    · exact c.pure _
    · exact ih _ _

theorem integer : c.Related Parser.readU64 fun _ => Parser.readU64 := by
  rw [readU64_eq_bind]
  refine c.bind (c.read 1) fun value => ?_
  split
  · exact c.decodeTail 7 1 _
  · exact c.pure value

theorem readSized (length : Nat) :
    c.Related (Parser.readSized c.env length) fun _ => Parser.readSized c.envs length := by
  unfold Parser.readSized
  split
  · exact c.chars length
  · exact c.pure []

theorem readHeader : c.Related Parser.readHeader fun _ => Parser.readHeader :=
  c.map _ (c.read 4)

theorem readInteger : c.Related Parser.readInteger fun _ => Parser.readInteger :=
  c.map _ c.integer

theorem readString : c.Related (Parser.readString c.env) fun _ => Parser.readString c.envs :=
  c.map _ (c.bind c.integer fun _ => c.bind (c.readSized _) fun text =>
    c.bind c.skip fun _ => c.pure text)

theorem readBlob : c.Related (Parser.readBlob c.env) fun _ => Parser.readBlob c.envs :=
  c.bind c.integer fun _ => c.map _ (c.readSized _)

section Nested

variable (nested : ∀ parent, c.Related (c.value parent) fun i => c.values i parent)

include nested

theorem readFields (parent : Json) :
    c.Related (Parser.readFields c.env c.value c.fuel parent)
      fun i => Parser.readFields c.envs (c.values i) (c.fuels i) parent :=
  c.bind (c.loop (.inl rfl) nested parent) fun value => c.bind c.skip fun _ => c.pure value

theorem readStruct :
    c.Related (Parser.readStruct c.env c.value c.fuel)
      fun i => Parser.readStruct c.envs (c.values i) (c.fuels i) :=
  c.readFields nested _

theorem readUnion : c.Related (Parser.readUnion c.value) fun i => Parser.readUnion (c.values i) := by
  refine c.bind (c.read 1) fun addressMember => ?_
  dsimp only
  split
  · exact nested _
  · exact c.pure _

/-- What stands in a list or a map is read on every side, or on none. -/
theorem readItem (kind : Kind) :
    (∃ item items, Parser.readItem c.env c.value c.fuel kind = some item ∧
      (∀ i, Parser.readItem c.envs (c.values i) (c.fuels i) kind = some (items i)) ∧
        c.Related item items) ∨
    (Parser.readItem c.env c.value c.fuel kind = none ∧
      ∀ i, Parser.readItem c.envs (c.values i) (c.fuels i) kind = none) := by
  cases kind with
  | integer => exact .inl ⟨_, _, rfl, fun _ => rfl, c.readInteger⟩
  | string => exact .inl ⟨_, _, rfl, fun _ => rfl, c.readString⟩
  | struct => exact .inl ⟨_, _, rfl, fun _ => rfl, c.readStruct nested⟩
  | _ => exact .inr ⟨rfl, fun _ => rfl⟩

theorem readListContent (kind : Kind) (listSize : Nat) (stub : Bool) :
    c.Related (Parser.readListContent c.env c.value c.fuel kind listSize stub)
      fun i => Parser.readListContent c.envs (c.values i) (c.fuels i) kind listSize stub := by
  unfold Parser.readListContent
  cases stub with
  | true => exact c.bind c.skip fun _ => c.readFields nested _
  | false =>
    rcases c.readItem nested kind with ⟨item, items, left, right, related⟩ | ⟨left, right⟩
    · simp only [Bool.false_eq_true, if_false, left, right]
      exact c.repeated (fun content => c.map _ related) listSize _
    · simp only [Bool.false_eq_true, if_false, left, right]
      exact c.pure _

theorem readList :
    c.Related (Parser.readList c.env c.value c.fuel)
      fun i => Parser.readList c.envs (c.values i) (c.fuels i) :=
  c.bind (c.read 1) fun _ => c.bind (c.read 1) fun _ => c.bind c.peek fun _ =>
    c.map _ (c.readListContent nested _ _ _)

/-- The key or value of an entry, which is null where its type has no reader. -/
theorem readEntryItem (kind : Kind) :
    c.Related ((Parser.readItem c.env c.value c.fuel kind).getD (Pure.pure .null))
      fun i => (Parser.readItem c.envs (c.values i) (c.fuels i) kind).getD (Pure.pure .null) := by
  rcases c.readItem nested kind with ⟨item, items, left, right, related⟩ | ⟨left, right⟩
  · simp only [left, right, Option.getD_some]
    exact related
  · simp only [left, right, Option.getD_none]
    exact c.pure _

theorem readEntry (keyType valueType : Kind) (content : Json) :
    c.Related (Parser.readEntry c.env c.value c.fuel keyType valueType content)
      fun i => Parser.readEntry c.envs (c.values i) (c.fuels i) keyType valueType content := by
  refine c.bind (c.readEntryItem nested keyType) fun key =>
    c.bind (c.readEntryItem nested valueType) fun value => ?_
  -- Whether the key can be a name is told by the key alone.
  split
  · exact c.pure _
  · exact c.throw _

theorem readMap :
    c.Related (Parser.readMap c.env c.value c.fuel)
      fun i => Parser.readMap c.envs (c.values i) (c.fuels i) :=
  c.bind (c.read 1) fun _ => c.bind (c.read 1) fun _ => c.bind (c.read 1) fun _ =>
    c.map _ (c.repeated (c.readEntry nested _ _) _ _)

omit nested in
theorem readIntegerList : c.Related Parser.readIntegerList fun _ => Parser.readIntegerList :=
  c.bind (c.read 1) fun _ => c.map _ (c.repeated (fun _ => c.map _ c.readInteger) _ _)

omit nested in
theorem readObjectType : c.Related Parser.readObjectType fun _ => Parser.readObjectType :=
  c.bind c.readInteger fun _ => c.map _ c.readInteger

omit nested in
theorem readObjectId : c.Related Parser.readObjectId fun _ => Parser.readObjectId :=
  c.bind c.readInteger fun _ => c.bind c.readInteger fun _ => c.map _ c.readInteger

/-- What follows a header is read on every side, or on none. -/
theorem readTyped (kind : Kind) :
    (∃ typed typeds, Parser.readTyped c.env c.value c.fuel kind = some typed ∧
      (∀ i, Parser.readTyped c.envs (c.values i) (c.fuels i) kind = some (typeds i)) ∧
        c.Related typed typeds) ∨
    (Parser.readTyped c.env c.value c.fuel kind = none ∧
      ∀ i, Parser.readTyped c.envs (c.values i) (c.fuels i) kind = none) := by
  -- One case for each type that has a reader.
  cases kind with
  | integer => exact .inl ⟨_, _, rfl, fun _ => rfl, c.readInteger⟩
  | string => exact .inl ⟨_, _, rfl, fun _ => rfl, c.readString⟩
  | binary => exact .inl ⟨_, _, rfl, fun _ => rfl, c.readBlob⟩
  | struct => exact .inl ⟨_, _, rfl, fun _ => rfl, c.readStruct nested⟩
  | list => exact .inl ⟨_, _, rfl, fun _ => rfl, c.readList nested⟩
  | map => exact .inl ⟨_, _, rfl, fun _ => rfl, c.readMap nested⟩
  | union => exact .inl ⟨_, _, rfl, fun _ => rfl, c.readUnion nested⟩
  | integerList => exact .inl ⟨_, _, rfl, fun _ => rfl, c.readIntegerList⟩
  | objectType => exact .inl ⟨_, _, rfl, fun _ => rfl, c.readObjectType⟩
  | objectId => exact .inl ⟨_, _, rfl, fun _ => rfl, c.readObjectId⟩
  | _ => exact .inr ⟨rfl, fun _ => rfl⟩

/-- One more level of nesting keeps runs related. -/
theorem readValue (parent : Json) :
    c.Related (Parser.readValue c.env (c.fuel + 1) parent)
      fun i => Parser.readValue c.envs (c.fuels i + 1) parent := by
  refine c.bind c.readHeader fun header => c.bind c.atEnd fun ended => ?_
  cases ended with
  | true => exact c.pure _
  | false =>
    rcases c.readTyped nested header.type with ⟨typed, typeds, left, right, related⟩ | ⟨left, right⟩
    · simp only [Bool.false_eq_true, if_false, left, right]
      exact c.map _ related
    · simp only [Bool.false_eq_true, if_false, left, right]
      exact c.pure _

/-- The loop over a whole message keeps runs related. -/
theorem readAll : c.Related (Parser.read c.env c.fuel) fun i => Parser.read c.envs (c.fuels i) :=
  c.loop (.inr rfl) nested _

end Nested

end Congruence
end Recap.Blaze.Parser
