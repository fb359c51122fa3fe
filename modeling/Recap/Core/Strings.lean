import Recap.Core.DataBuffer
import Recap.Lib.Cutting

/-! Views of texts, and how texts are split. -/

namespace Recap

open Cutting

/-- `std::map<std::string, std::string>` -/
abbrev TextMap := Std.TreeMap Bytes Bytes

/-- A part of a text, with what stands behind it in memory up to the end of the text. -/
structure StringView where
  text : Bytes
  behind : Bytes := []
deriving DecidableEq

namespace StringView

/-- What `data()` is as a C string, which does not end with the view. -/
def cString (view : StringView) : Bytes :=
  (view.text ++ view.behind).takeWhile fun character => character ≠ 0

/--
The loop of `detail::explode_string`, from the start of a view that is not split yet.

The count of an unlimited split goes down from -1, and is taken to have no end there.
-/
def explodeFrom (delim : Bytes) : (fuel : Nat) → (limit : Int) → StringView → Option (List StringView)
  | 0, _, _ => none
  | fuel + 1, limit, view =>
    if limit - 1 = -1 then some [view]
    else match cut delim view.text with
      | none => some [view]
      | some (piece, rest) =>
        (explodeFrom delim fuel (limit - 1) ⟨rest, view.behind⟩).map fun pieces =>
          ⟨piece, delim ++ (rest ++ view.behind)⟩ :: pieces

/--
`utils::explode_string`

Without a limit, a delimiter of no characters is found for ever.
-/
def explode (view : StringView) (delim : Bytes) (limit : Int := -1) : Option (List StringView) :=
  explodeFrom delim (view.text.length + limit.toNat + 1) limit view

variable {view : StringView} {delim piece rest : Bytes} {limit : Int} {fuel more : Nat}

/-- A split that ends does so with more time as well. -/
theorem explodeFrom_le {pieces : List StringView}
    (ends : explodeFrom delim fuel limit view = some pieces) (enough : fuel ≤ more) :
    explodeFrom delim more limit view = some pieces := by
  -- The induction follows the loop, round by round.
  induction fuel generalizing limit view more pieces with
  | zero => cases ends
  | succ fuel ih =>
    obtain ⟨more, rfl⟩ : ∃ rounds, more = rounds + 1 := ⟨more - 1, by omega⟩
    unfold explodeFrom at ends ⊢
    split
    · rename_i last
      rwa [if_pos last] at ends
    · rename_i next
      rw [if_neg next] at ends
      cases found : cut delim view.text with
      | none => rwa [found] at ends
      | some parts =>
        rw [found] at ends
        obtain ⟨others, later, same⟩ := Option.map_eq_some_iff.mp ends
        dsimp only
        rw [ih later (by omega)]
        exact congrArg some same

/-- A cut leaves less than it was made in. -/
theorem length_lt_of_cut (something : delim ≠ []) {text : Bytes}
    (found : cut delim text = some (piece, rest)) : rest.length < text.length := by
  have whole := congrArg List.length (append_of_cut found)
  have positive := List.length_pos_iff.mpr something
  rw [List.length_append, List.length_append] at whole
  omega

/-- As every delimiter takes its own characters, a split ends. -/
theorem explodeFrom_isSome (something : delim ≠ []) (enough : view.text.length < fuel) :
    (explodeFrom delim fuel limit view).isSome := by
  -- What is left gets shorter with each round.
  induction fuel generalizing limit view with
  | zero => exact absurd enough (Nat.not_lt_zero _)
  | succ fuel ih =>
    unfold explodeFrom
    split
    · rfl
    · cases found : cut delim view.text with
      | none => rfl
      | some parts =>
        have shorter := length_lt_of_cut something found
        dsimp only
        rw [Option.isSome_map]
        exact ih (by dsimp only; omega)

/-- The result of a split does not depend on the time that it is given. -/
theorem explode_eq (something : delim ≠ []) (enough : view.text.length < fuel) :
    view.explode delim limit = explodeFrom delim fuel limit view := by
  obtain ⟨pieces, ends⟩ :=
    Option.isSome_iff_exists.mp (@explodeFrom_isSome view delim limit _ something enough)
  obtain ⟨pieces', ends'⟩ := Option.isSome_iff_exists.mp
    (@explodeFrom_isSome view delim limit (view.text.length + 1) something (Nat.lt_succ_self _))
  have short := explodeFrom_le ends' (show view.text.length + 1 ≤ fuel by omega)
  unfold explode
  rw [explodeFrom_le ends' (by omega), short]

/-- A view that the limit or the missing delimiter leaves whole. -/
theorem explode_whole (something : delim ≠ []) (whole : limit = 0 ∨ cut delim view.text = none) :
    view.explode delim limit = some [view] := by
  rw [explode_eq something (Nat.lt_succ_self _)]
  unfold explodeFrom
  rcases whole with rfl | missing
  · rfl
  · rw [missing]
    exact ite_self _

/-- A split at the first delimiter goes on behind it. -/
theorem explode_cut (something : delim ≠ []) (more : limit ≠ 0)
    (found : cut delim view.text = some (piece, rest)) :
    view.explode delim limit =
      ((⟨rest, view.behind⟩ : StringView).explode delim (limit - 1)).map fun pieces =>
        ⟨piece, delim ++ (rest ++ view.behind)⟩ :: pieces := by
  have shorter := length_lt_of_cut something found
  rw [explode_eq something (Nat.lt_succ_self _), explode_eq something shorter]
  rw [explodeFrom, if_neg (by omega), found]

/-- Below zero, all limits are the same. -/
theorem explodeFrom_unlimited {other : Int} (first : limit < 0) (second : other < 0) :
    explodeFrom delim fuel limit view = explodeFrom delim fuel other view := by
  -- A count below zero never comes to the one that stops the loop.
  induction fuel generalizing limit other view with
  | zero => rfl
  | succ fuel ih =>
    unfold explodeFrom
    rw [if_neg (by omega), if_neg (by omega)]
    cases cut delim view.text with
    | none => rfl
    | some parts =>
      dsimp only
      rw [@ih ⟨parts.2, view.behind⟩ (limit - 1) (other - 1) (by omega) (by omega)]

/-- A split without a limit goes on as one. -/
theorem explode_cut_unlimited (something : delim ≠ [])
    (found : cut delim view.text = some (piece, rest)) :
    view.explode delim =
      ((⟨rest, view.behind⟩ : StringView).explode delim).map fun pieces =>
        ⟨piece, delim ++ (rest ++ view.behind)⟩ :: pieces := by
  rw [explode_cut something (by decide) found,
    @explode_eq _ _ (-1 - 1) _ something (Nat.lt_succ_self _),
    @explode_eq _ _ (-1) _ something (Nat.lt_succ_self _),
    explodeFrom_unlimited (show (-1 - 1 : Int) < 0 by decide) (show (-1 : Int) < 0 by decide)]

/-- The pieces of a view, which end at one delimiter after another. -/
inductive Piece (delim : Bytes) : StringView → StringView → Prop
  /-- The piece behind the last delimiter. -/
  | last {view : StringView} (missing : ¬ delim <:+: view.text) : Piece delim view view
  /-- The piece in front of the first delimiter. -/
  | first {view : StringView} {piece rest : Bytes}
      (found : cut delim view.text = some (piece, rest)) :
      Piece delim view ⟨piece, delim ++ (rest ++ view.behind)⟩
  /-- A piece of what is behind the first delimiter. -/
  | later {view other : StringView} {piece rest : Bytes}
      (found : cut delim view.text = some (piece, rest))
      (more : Piece delim ⟨rest, view.behind⟩ other) : Piece delim view other

/-- A split that has no limit comes to all pieces. -/
theorem exists_explode (something : delim ≠ []) (view : StringView) :
    ∃ pieces, view.explode delim = some pieces ∧
      ∀ other, other ∈ pieces ↔ Piece delim view other := by
  -- The induction is on what is left of the view behind the first cut.
  induction size : view.text.length using Nat.strong_induction_on generalizing view with
  | _ size ih =>
    cases found : cut delim view.text with
    | none =>
      refine ⟨[view], explode_whole something (.inr found), fun other => ?_⟩
      rw [List.mem_singleton]
      constructor
      · rintro rfl
        exact .last (cut_eq_none_iff.mp found)
      · intro piece
        cases piece with
        | last => rfl
        | first found' => cases found.symm.trans found'
        | later found' => cases found.symm.trans found'
    | some parts =>
      have shorter := length_lt_of_cut something found
      obtain ⟨pieces, ends, same⟩ :=
        ih parts.2.length (size ▸ shorter) ⟨parts.2, view.behind⟩ rfl
      refine ⟨⟨parts.1, delim ++ (parts.2 ++ view.behind)⟩ :: pieces, ?_, fun other => ?_⟩
      · rw [explode_cut_unlimited something found, ends, Option.map_some]
      · rw [List.mem_cons, same]
        constructor
        · rintro (rfl | more)
          · exact .first found
          · exact .later found more
        · intro piece
          cases piece with
          | last missing => cases (cut_eq_none_iff.mpr missing).symm.trans found
          | first found' =>
            cases found.symm.trans found'
            exact .inl rfl
          | later found' more =>
            cases found.symm.trans found'
            exact .inr more

/-- A delimiter of one character splits a text at each place of that character. -/
theorem texts_explode_singleton (view : StringView) (separator : UInt8) :
    (view.explode [separator]).map (List.map text) = some (view.text.splitOn separator) := by
  -- The induction is on what is left of the text behind the first cut.
  induction size : view.text.length using Nat.strong_induction_on generalizing view with
  | _ size ih =>
    have something : [separator] ≠ [] := List.cons_ne_nil _ _
    cases found : cut [separator] view.text with
    | none =>
      rw [explode_whole something (.inr found), Option.map_some, List.map_singleton,
        List.splitOn_eq_singleton (cut_singleton_eq_none_iff.mp found)]
    | some parts =>
      have shorter := length_lt_of_cut something found
      have later := ih parts.2.length (size ▸ shorter) ⟨parts.2, view.behind⟩ rfl
      have whole := append_of_cut found
      rw [List.append_assoc, List.singleton_append] at whole
      rw [explode_cut_unlimited something found, Option.map_map, ← whole,
        List.splitOn_append_cons_self_of_not_mem (not_mem_of_cut_singleton found)]
      obtain ⟨pieces, ends, same⟩ := Option.map_eq_some_iff.mp later
      rw [ends, Option.map_some, Function.comp_apply, List.map_cons, same]

end StringView

/-- `utils::explode_string` of a text, whose pieces are texts of their own. -/
def explodeString (str delim : Bytes) (limit : Int := -1) : Option (List Bytes) :=
  ((⟨str, []⟩ : StringView).explode delim limit).map fun pieces => pieces.map StringView.text

/-- A delimiter of one character splits a text at each place of that character. -/
theorem explodeString_singleton (str : Bytes) (separator : UInt8) :
    explodeString str [separator] = some (str.splitOn separator) :=
  StringView.texts_explode_singleton ⟨str, []⟩ separator

end Recap
