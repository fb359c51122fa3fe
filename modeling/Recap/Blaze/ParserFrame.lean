import Recap.Blaze.ParserCongruence
import Recap.Core.DataBufferLaws

/-! Parsing moves the position, and changes nothing else about the buffer. -/

namespace Recap

/-- Two states of a reader that hold the same bytes, with as many of them as content. -/
structure Reader.SameContent (before after : Reader) : Prop where
  held : after.buffer.buffer = before.buffer.buffer
  size : after.buffer.size = before.buffer.size

namespace Reader.SameContent

theorem refl (r : Reader) : SameContent r r := ⟨rfl, rfl⟩

theorem trans (first second third : Reader) (earlier : SameContent first second)
    (later : SameContent second third) : SameContent first third :=
  ⟨later.held.trans earlier.held, later.size.trans earlier.size⟩

/-- A read moves the position at most. -/
theorem read (width : Nat) (r : Reader) : SameContent r (r.read width).2 := by
  rw [read_eq]
  split <;> exact ⟨rfl, rfl⟩

/-- A peek does not even move the position. -/
theorem peek (width : Nat) (r : Reader) : SameContent r (r.peek width).2 := by
  rw [peek_eq]
  split <;> exact ⟨rfl, rfl⟩

end Reader.SameContent

namespace Blaze.Parser

open Reader (SameContent)

/-- Reading characters moves the position at most. -/
theorem readChars_keeps (env : Env) (length : Nat) :
    Program.Keeps SameContent (readChars env length) := by
  unfold readChars
  split
  · exact Program.Keeps.throw _
  · refine Program.Keeps.act fun r => ?_
    -- The guard either lets the copy move the position, or leaves the reader alone.
    simp only [DataBuffer.implRead]
    cases r.buffer.canRw (1 * length % wordBound) with
    | true => exact ⟨rfl, rfl⟩
    | false => exact SameContent.refl r

/-- That a run keeps the content of its buffer, as a relation that the whole parser respects. -/
def framed (env : Env) (fuel : Nat) : Congruence Empty where
  Related part _ := Program.Keeps SameContent part
  maxSize := env.maxSize
  strict := env.strict
  strictAll := env.strict
  fuel := fuel
  fuels := fun impossible => impossible.elim
  pure value := Program.Keeps.pure SameContent.refl value
  bind before later := Program.Keeps.bind SameContent.trans before later
  throw fault := Program.Keeps.throw fault
  read width := Program.Keeps.act (SameContent.read width)
  peek := Program.Keeps.act (SameContent.peek 1)
  skip := Program.Keeps.act fun _ => ⟨rfl, rfl⟩
  atEnd := Program.Keeps.act SameContent.refl
  chars length := readChars_keeps env length
  loop := by
    rintro test (rfl | rfl) round value
    · exact Program.Keeps.loop SameContent.refl SameContent.trans
        (Program.Keeps.bind SameContent.trans (Program.Keeps.act (SameContent.peek 1)) fun _ =>
          Program.Keeps.pure SameContent.refl _) round fuel value
    · exact Program.Keeps.loop SameContent.refl SameContent.trans
        (Program.Keeps.bind SameContent.trans (Program.Keeps.act SameContent.refl) fun _ =>
          Program.Keeps.pure SameContent.refl _) round fuel value

end Blaze.Parser
end Recap
