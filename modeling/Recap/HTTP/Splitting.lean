import Recap.HTTP.Query
import Recap.Lib.Outcome
import Recap.Lib.Signed

/-! Splitting a text at a delimiter, with the count that its loop keeps in 32 bits. -/

namespace Recap.StringView

open Recap.HTTP Cutting Signed

/-! ### The loop -/

/-- A delimiter is a character or a text. -/
inductive Delimiter where
  | character (symbol : UInt8)
  | text (symbols : Bytes)

namespace Delimiter

/-- The characters that are looked for. -/
def symbols : Delimiter → Bytes
  | character symbol => [symbol]
  | text symbols => symbols

/-- How far a split goes on behind a delimiter: `sizeof(delim)` or `delim.size()`. -/
def size : Delimiter → Nat
  | character _ => 1
  | text symbols => symbols.length

@[simp] theorem length_symbols (delim : Delimiter) : delim.symbols.length = delim.size := by
  cases delim <;> rfl

end Delimiter

/-- `std::out_of_range` -/
structure OutOfRange where

/-- `substr`, which takes the rest of the view unless it is told how much. -/
def substr (view : StringView) (start : Nat) (count : Nat := view.text.length) :
    Outcome OutOfRange StringView :=
  if start ≤ view.text.length then
    .done ⟨(view.text.drop start).take count, (view.text.drop start).drop count ++ view.behind⟩
  else .thrown ⟨⟩

/-- `strings.push_back` of a part of the view, and what comes after it. -/
def pushBack {Result : Type} (strings : List StringView) (part : Outcome OutOfRange StringView)
    (next : List StringView → Outcome OutOfRange Result) : Outcome OutOfRange Result :=
  match part with
  | .done piece => next (strings ++ [piece])
  | .thrown fault => .thrown fault
  | .stuck => .stuck
  | .spent => .spent

/-- The loop of `detail::explode_string`, by the values of its variables in front of a round. -/
def explodeRounds (beyond : Int → Int32) (view : StringView) (delim : Delimiter) :
    (fuel : Nat) → (limit : Int32) → (start : Nat) → (strings : List StringView) →
      Outcome OutOfRange (List StringView)
  | 0, _, _, _ => .spent
  | fuel + 1, limit, start, strings =>
    let limit := int beyond (limit.toInt - 1)
    -- Once the count is used up, nothing is looked for.
    let found := if limit ≠ -1 then URI.find view.text delim.symbols start else none
    match found with
    | some stop => pushBack strings (view.substr start (stop - start))
        (explodeRounds beyond view delim fuel limit (stop + delim.size))
    | none => pushBack strings (view.substr start) .done

/--
`utils::explode_string` ends with some pieces, after one round more than there are characters.

Of a `std::string`, the pieces are the texts of these views.
-/
def Splits (beyond : Int → Int32) (view : StringView) (delim : Delimiter) (limit : Int32)
    (pieces : List StringView) : Prop :=
  ∀ fuel, view.text.length < fuel → explodeRounds beyond view delim fuel limit 0 [] = .done pieces

/-! ### The pieces -/

section Pieces

variable {view : StringView} {delim : Bytes} {limit : Int} {fuel : Nat} {pieces : List StringView}

/-- What a round comes to: the view as it is, or a piece of it and those of the rest. -/
theorem explodeFrom_cases (ends : explodeFrom delim (fuel + 1) limit view = some pieces) :
    (pieces = [view] ∧ (limit = 0 ∨ cut delim view.text = none)) ∨
      ∃ piece rest later, limit ≠ 0 ∧ cut delim view.text = some (piece, rest) ∧
        explodeFrom delim fuel (limit - 1) ⟨rest, view.behind⟩ = some later ∧
        pieces = ⟨piece, delim ++ (rest ++ view.behind)⟩ :: later := by
  -- Either the count is used up, or the search for a delimiter decides.
  rw [explodeFrom] at ends
  by_cases used : limit - 1 = -1
  · rw [if_pos used] at ends
    exact .inl ⟨(Option.some_inj.mp ends).symm, .inl (by omega)⟩
  · rw [if_neg used] at ends
    cases found : cut delim view.text with
    | none =>
      rw [found] at ends
      exact .inl ⟨(Option.some_inj.mp ends).symm, .inr rfl⟩
    | some parts =>
      rw [found] at ends
      obtain ⟨later, others, same⟩ := Option.map_eq_some_iff.mp ends
      exact .inr ⟨parts.1, parts.2, later, by omega, rfl, others, same.symm⟩

theorem ne_nil_of_explodeFrom (ends : explodeFrom delim fuel limit view = some pieces) :
    pieces ≠ [] := by
  cases fuel with
  | zero => cases ends
  | succ fuel =>
    rcases explodeFrom_cases ends with ⟨rfl, -⟩ | ⟨piece, rest, later, -, -, -, rfl⟩
    · exact List.cons_ne_nil _ _
    · exact List.cons_ne_nil _ _

/-- The pieces of a split are the view again when they are joined with the delimiter. -/
theorem intercalate_explodeFrom (ends : explodeFrom delim fuel limit view = some pieces) :
    delim.intercalate (pieces.map text) = view.text := by
  -- A round puts the piece and the delimiter in front of what the pieces of the rest come to.
  induction fuel generalizing limit view pieces with
  | zero => cases ends
  | succ fuel ih =>
    rcases explodeFrom_cases ends with ⟨rfl, -⟩ | ⟨piece, rest, later, -, found, others, rfl⟩
    · simp
    · have some_later : later.map text ≠ [] := by simpa using ne_nil_of_explodeFrom others
      rw [List.map_cons, List.intercalate_cons_of_ne_nil some_later, ih others]
      exact append_of_cut found

/-- A split makes as many cuts as it may, at most. -/
theorem length_explodeFrom (counted : 0 ≤ limit)
    (ends : explodeFrom delim fuel limit view = some pieces) :
    (pieces.length : Int) ≤ limit + 1 := by
  -- Each cut takes one from the limit, and none is made at zero.
  induction fuel generalizing limit view pieces with
  | zero => cases ends
  | succ fuel ih =>
    rcases explodeFrom_cases ends with ⟨rfl, -⟩ | ⟨piece, rest, later, more, -, others, rfl⟩
    · simpa using counted
    · have shorter := ih (by omega) others
      rw [List.length_cons]
      omega

/-- No piece has a delimiter in it. -/
theorem not_infix_of_piece (something : delim ≠ []) {piece : StringView}
    (here : Piece delim view piece) : ¬ delim <:+: piece.text := by
  induction here with
  | last missing => exact missing
  | first found => exact not_infix_of_cut something found
  | later _ _ ih => exact ih

end Pieces

/-! ### The rounds -/

section Rounds

variable {beyond : Int → Int32} {view : StringView} {delim : Delimiter} {limit : Int32}
  {start fuel : Nat} {strings : List StringView} {piece rest : Bytes}

/-- A part of the view is the text up to its end, with the rest behind it. -/
theorem substr_of_drop (inside : start ≤ view.text.length)
    (split : view.text.drop start = piece ++ rest) :
    view.substr start piece.length = .done ⟨piece, rest ++ view.behind⟩ := by
  rw [substr, if_pos inside, split, List.take_left, List.drop_left]

/-- Where the loop ends, the rest of the view is the last piece. -/
theorem rounds_last (inside : start ≤ view.text.length)
    (ends : int beyond (limit.toInt - 1) = -1 ∨
      cut delim.symbols (view.text.drop start) = none) (something : delim.symbols ≠ []) :
    explodeRounds beyond view delim (fuel + 1) limit start strings =
      .done (strings ++ [⟨view.text.drop start, view.behind⟩]) := by
  -- Either the count is used up, or the search comes to nothing.
  have missing : (if int beyond (limit.toInt - 1) ≠ -1 then
      URI.find view.text delim.symbols start else none) = none := by
    rcases ends with used | clear
    · rw [if_neg (not_not.mpr used)]
    · rw [URI.find_eq _ something, clear]
      exact ite_self _
  have all : view.substr start = .done ⟨view.text.drop start, view.behind⟩ := by
    have short : (view.text.drop start).length ≤ view.text.length := by simp
    rw [substr, if_pos inside, List.take_of_length_le short, List.drop_of_length_le short]
    rfl
  rw [explodeRounds, missing, all]
  rfl

/-- A round that finds a delimiter keeps the piece in front of it and goes on behind it. -/
theorem rounds_cut (inside : start ≤ view.text.length) (more : int beyond (limit.toInt - 1) ≠ -1)
    (something : delim.symbols ≠ [])
    (found : cut delim.symbols (view.text.drop start) = some (piece, rest)) :
    explodeRounds beyond view delim (fuel + 1) limit start strings =
      explodeRounds beyond view delim fuel (int beyond (limit.toInt - 1))
        (start + piece.length + delim.size)
        (strings ++ [⟨piece, delim.symbols ++ (rest ++ view.behind)⟩]) := by
  -- The search comes to the cut, and the piece ends where the delimiter starts.
  have whole := append_of_cut found
  have part : view.substr start piece.length =
      .done ⟨piece, delim.symbols ++ (rest ++ view.behind)⟩ := by
    rw [substr_of_drop inside (by rw [← whole, List.append_assoc]), List.append_assoc]
  rw [explodeRounds, if_pos more, URI.find_eq _ something, found, Option.map_some]
  dsimp only
  rw [Nat.add_sub_cancel_left, part]
  rfl

/-- What is left of the view behind a delimiter. -/
theorem drop_of_cut (found : cut delim.symbols (view.text.drop start) = some (piece, rest)) :
    view.text.drop (start + piece.length + delim.size) = rest := by
  have whole := append_of_cut found
  rw [Nat.add_assoc, ← List.drop_drop, ← whole, List.append_assoc, ← List.drop_drop,
    List.drop_left, ← Delimiter.length_symbols, List.drop_left]

/-- A delimiter that is found ends inside of the view. -/
theorem le_of_cut (inside : start ≤ view.text.length)
    (found : cut delim.symbols (view.text.drop start) = some (piece, rest)) :
    start + piece.length + delim.size ≤ view.text.length := by
  have whole := congrArg List.length (append_of_cut found)
  simp only [List.length_append, List.length_drop, Delimiter.length_symbols] at whole
  omega

/--
The rounds come to the pieces of a split whose count has no end.

Below zero the count must last for all delimiters but the last one. The search for another one
behind that is made with a count that may have overflowed, and comes to nothing.
-/
theorem rounds_eq (something : delim.symbols ≠ []) {count : Int} {pieces : List StringView}
    (same : limit.toInt = count) (inside : start ≤ view.text.length)
    (few : count < 0 → ∀ texts, delim.symbols.intercalate texts = view.text.drop start →
      (texts.length : Int) ≤ 2 ^ 31 + 1 + count)
    (ends : explodeFrom delim.symbols fuel count ⟨view.text.drop start, view.behind⟩ =
      some pieces) :
    explodeRounds beyond view delim fuel limit start strings = .done (strings ++ pieces) := by
  -- Both loops make the same rounds, with the same count as long as there is a delimiter to find.
  induction fuel generalizing limit start strings count pieces with
  | zero => cases ends
  | succ fuel ih =>
    rcases explodeFrom_cases ends with ⟨rfl, last⟩ | ⟨piece, rest, later, more, found, others, rfl⟩
    · refine rounds_last inside (last.imp_left ?_) something
      rintro rfl
      rw [same]
      exact (int_eq_neg_one_iff (by decide)).mpr rfl
    · have whole := append_of_cut found
      have fits : Fits (limit.toInt - 1) := by
        have small := limit.toInt_lt
        constructor
        · -- The piece and the rest are two texts, for which the count has room.
          by_contra large
          have two := few (by omega) [piece, rest] (by simpa using whole)
          simp at two
          omega
        · omega
      have goes : int beyond (limit.toInt - 1) ≠ -1 := by
        rw [Ne, int_eq_neg_one_iff fits]
        omega
      rw [rounds_cut inside goes something found]
      rw [ih (by rw [toInt_int fits, same]) (le_of_cut inside found) ?_
        (by rw [drop_of_cut found]; exact others), List.append_assoc]
      · rfl
      · -- The texts behind the delimiter are one less than those with the piece in front.
        intro below texts joined
        rw [drop_of_cut found] at joined
        by_cases empty : texts = []
        · have small := limit.le_toInt
          rw [empty, List.length_nil]
          omega
        · have longer := few (by omega) (piece :: texts) (by
            rw [List.intercalate_cons_of_ne_nil empty, joined, whole])
          rw [List.length_cons] at longer
          omega

end Rounds

/--
A split ends whatever an overflow of its count comes to, and its pieces are the text again.

There are at most as many cuts as the limit allows. Without a limit, no piece has a delimiter, if
the text cannot be seen as more than `2 ^ 31` texts with delimiters between them.
-/
theorem explode_splits (beyond : Int → Int32) (view : StringView) {delim : Delimiter}
    (something : delim.symbols ≠ []) {limit : Int32} (valid : limit = -1 ∨ 0 ≤ limit)
    (few : limit = -1 → ∀ texts, delim.symbols.intercalate texts = view.text →
      texts.length ≤ 2 ^ 31) :
    ∃ pieces, Splits beyond view delim limit pieces ∧
      delim.symbols.intercalate (pieces.map text) = view.text ∧
      (0 ≤ limit → (pieces.length : Int) ≤ limit.toInt + 1) ∧
      (limit = -1 → ∀ piece ∈ pieces, ¬ delim.symbols <:+: piece.text) := by
  -- The pieces are those of a split whose count has no end.
  obtain ⟨pieces, ends⟩ := Option.isSome_iff_exists.mp (@explodeFrom_isSome view delim.symbols
    limit.toInt _ something (Nat.lt_succ_self _))
  refine ⟨pieces, ?_, intercalate_explodeFrom ends, ?_, ?_⟩
  · intro fuel enough
    refine rounds_eq something rfl (Nat.zero_le _) ?_ (explodeFrom_le ends enough)
    intro below texts joined
    rcases valid with rfl | counted
    · have small := few rfl texts joined
      have start : (-1 : Int32).toInt = -1 := rfl
      omega
    · have least := Int32.le_iff_toInt_le.mp counted
      rw [Int32.toInt_zero] at least
      omega
  · intro counted
    exact length_explodeFrom (Int32.le_iff_toInt_le.mp counted) ends
  · rintro rfl piece member
    obtain ⟨pieces', ends', same⟩ := exists_explode something view
    rw [explode_eq something (Nat.lt_succ_self _)] at ends'
    cases ends.symm.trans ends'
    exact not_infix_of_piece something ((same piece).mp member)

/-- A text with two delimiters side by side has an empty piece between them. -/
theorem explode_splits_commas :
    ∃ pieces, Splits Int32.ofInt ⟨ascii "a,,b", []⟩ (.character 44) (-1) pieces ∧
      [44].intercalate (pieces.map text) = ascii "a,,b" ∧
      ((0 : Int32) ≤ -1 → (pieces.length : Int) ≤ (-1 : Int32).toInt + 1) ∧
      ((-1 : Int32) = -1 → ∀ piece ∈ pieces, ¬ [44] <:+: piece.text) := by
  -- Four characters cannot be more than five texts with delimiters between them.
  refine @explode_splits Int32.ofInt ⟨ascii "a,,b", []⟩ (.character 44) (List.cons_ne_nil _ _) (-1)
    (.inl rfl) ?_
  intro _ texts joined
  have short := length_le_intercalate (List.cons_ne_nil 44 []) texts
  have size : (ascii "a,,b").length = 4 := rfl
  have whole : [44].intercalate texts = ascii "a,,b" := joined
  rw [whole, size] at short
  omega

end Recap.StringView
