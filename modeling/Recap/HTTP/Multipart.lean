import Recap.Core.Strings
import Recap.HTTP.Request
import Recap.Lib.OrderedMap
import Recap.Lib.Outcome

/-! The fields of a multipart body, and which bodies they can be read from. -/

namespace Recap.HTTP

open Recap.Blaze Cutting

/-- `[a-zA-Z0-9_]` -/
def wordCharacter (character : UInt8) : Bool :=
  (97 ≤ character ∧ character ≤ 122) ∨ (65 ≤ character ∧ character ≤ 90) ∨
    (48 ≤ character ∧ character ≤ 57) ∨ character = 95

/-! ### The pattern of a name -/

/-- The texts of the pattern `name\s*=\s*"([a-zA-Z0-9_]+)"`, with the part that is captured. -/
def Described (whole name : Bytes) : Prop :=
  ∃ blanks blanks' : Bytes, (∀ character ∈ blanks, isSpace character) ∧
    (∀ character ∈ blanks', isSpace character) ∧ name ≠ [] ∧
    (∀ character ∈ name, wordCharacter character) ∧
    whole = ascii "name" ++ (blanks ++ 61 :: (blanks' ++ 34 :: (name ++ [34])))

/-- The match that starts first, by where it ends and what it captures. -/
def LeftmostMatch (text : Bytes) (stop : Nat) (name : Bytes) : Prop :=
  ∃ front whole behind, text = front ++ (whole ++ behind) ∧ Described whole name ∧
    stop = front.length + whole.length ∧
    ∀ earlier < front.length, ∀ other name', other <+: text.drop earlier → ¬ Described other name'

/-- `boost::regex_search` for the pattern, which finds the leftmost match if there is one. -/
structure RegexSearch where
  search : Bytes → Option (Nat × Bytes)
  leftmost : ∀ text stop name, search text = some (stop, name) ↔ LeftmostMatch text stop name

namespace RegexSearch

/-- The texts before and behind a character that only certain ones stand in front of. -/
def cutBehind (passes : UInt8 → Bool) (mark : UInt8) (text : Bytes) : Option (Bytes × Bytes) :=
  match text.dropWhile passes with
  | [] => none
  | first :: rest => if first = mark then some (text.takeWhile passes, rest) else none

/-- A match at the start of a text, by its length and what it captures. -/
def matchName (text : Bytes) : Option (Nat × Bytes) :=
  if (ascii "name").isPrefixOf text then do
    let equals ← cutBehind isSpace 61 (text.drop 4)
    let quote ← cutBehind isSpace 34 equals.2
    let name ← cutBehind wordCharacter 34 quote.2
    if name.1 = [] then none else some (text.length - name.2.length, name.1)
  else none

theorem cutBehind_eq_some_iff {passes : UInt8 → Bool} {mark : UInt8} (stops : ¬ passes mark)
    {text front back : Bytes} : cutBehind passes mark text = some (front, back) ↔
      (∀ character ∈ front, passes character) ∧ text = front ++ mark :: back := by
  -- The characters that pass end at the mark, which does not pass itself.
  unfold cutBehind
  constructor
  · intro found
    have whole := List.takeWhile_append_dropWhile (p := passes) (l := text)
    cases rest : text.dropWhile passes with
    | nil =>
      rw [rest] at found
      cases found
    | cons first others =>
      rw [rest] at found whole
      dsimp only at found
      split at found
      · rename_i same
        obtain ⟨rfl, rfl⟩ := Prod.mk.inj (Option.some_inj.mp found)
        exact ⟨fun character member => List.mem_takeWhile_imp member, by rw [← same, whole]⟩
      · cases found
  · rintro ⟨all, rfl⟩
    rw [List.dropWhile_append_of_pos all, List.takeWhile_append_of_pos all,
      List.dropWhile_cons_of_neg stops, List.takeWhile_cons_of_neg stops]
    simp

theorem matchName_eq_some_iff {text name : Bytes} {length : Nat} :
    matchName text = some (length, name) ↔
      ∃ whole behind, text = whole ++ behind ∧ Described whole name ∧ length = whole.length := by
  -- The cuts come one after another to the parts that the pattern describes.
  have space : ¬ isSpace 61 ∧ ¬ isSpace 34 ∧ ¬ wordCharacter 34 := by decide
  unfold matchName
  rw [Option.ite_none_right_eq_some, List.isPrefixOf_iff_prefix]
  simp only [Option.bind_eq_bind, Option.bind_eq_some_iff, Option.ite_none_left_eq_some,
    Prod.exists, cutBehind_eq_some_iff space.1, cutBehind_eq_some_iff space.2.1,
    cutBehind_eq_some_iff space.2.2, Option.some.injEq, Prod.mk.injEq]
  constructor
  · rintro ⟨⟨word, rfl⟩, blanks, equals, ⟨spaces, split⟩, blanks', quote, ⟨spaces', rfl⟩, name',
      behind, ⟨words, rfl⟩, something, rfl, rfl⟩
    change word = _ at split
    subst split
    refine ⟨_, behind, ?_, ⟨blanks, blanks', spaces, spaces', something, words, rfl⟩, ?_⟩
    · simp
    · simp
      omega
  · rintro ⟨whole, behind, rfl, ⟨blanks, blanks', spaces, spaces', something, words, rfl⟩, rfl⟩
    refine ⟨⟨_, (List.append_assoc ..).symm⟩, blanks, _, ⟨spaces, ?_⟩, blanks', _, ⟨spaces', rfl⟩,
      name, behind, ⟨words, rfl⟩, something, ?_, rfl⟩
    · change blanks ++ 61 :: (blanks' ++ 34 :: (name ++ [34])) ++ behind = _
      simp
    · simp
      omega

/-- The search that tries one place after another finds the leftmost match. -/
def scan : RegexSearch where
  search := Cutting.search matchName
  leftmost text stop name := by
    rw [search_eq_some_iff]
    constructor
    · rintro ⟨front, rest, length, rfl, found, rfl, nowhere⟩
      obtain ⟨whole, behind, rfl, described, rfl⟩ := matchName_eq_some_iff.mp found
      refine ⟨front, whole, behind, rfl, described, rfl, ?_⟩
      rintro earlier inFront other name' ⟨rest, same⟩ described'
      have here := matchName_eq_some_iff.mpr ⟨other, rest, same.symm, described', rfl⟩
      rw [nowhere earlier inFront] at here
      cases here
    · rintro ⟨front, whole, behind, rfl, described, rfl, nowhere⟩
      have found := matchName_eq_some_iff.mpr ⟨whole, behind, rfl, described, rfl⟩
      refine ⟨front, _, _, rfl, found, rfl, fun earlier inFront => ?_⟩
      rw [Option.eq_none_iff_forall_ne_some]
      rintro ⟨length, name'⟩ here
      obtain ⟨other, rest, same, described', -⟩ := matchName_eq_some_iff.mp here
      exact nowhere earlier inFront other name' ⟨rest, same.symm⟩ described'

end RegexSearch

/-! ### Reading a body -/

/-- What goes wrong where a field ends too early. -/
inductive MultipartFault where
  /-- `substr` throws a `std::out_of_range`. -/
  | outOfRange
  /-- `remove_suffix` takes more than there is, which is undefined. -/
  | removesTooMuch
deriving DecidableEq

/-- The line that starts a field. -/
def boundaryLine (boundary : Bytes) : Bytes := ascii "--" ++ boundary ++ [13, 10]

/-- The line that ends a body. -/
def boundaryEnd (boundary : Bytes) : Bytes := ascii "--" ++ boundary ++ ascii "--"

/-- One round of the loop in `Multipart::parse`, for one part of the body. -/
def addField (regex : RegexSearch) (formData : StringView) : Program TextMap MultipartFault Unit :=
  fun mFields =>
    if (ascii "Content-Disposition").isPrefixOf formData.text then
      match regex.search formData.cString with
      | some (stop, name) =>
        if formData.text.length < stop + 4 then .thrown .outOfRange
        else
          let value := formData.text.drop (stop + 4)
          if value.length < 2 then .thrown .removesTooMuch
          else .done ((), mFields.insertIfNew name (value.take (value.length - 2)))
      | none => .done ((), mFields)
    else .done ((), mFields)

/-- The loop in `Multipart::parse`. -/
def addFields (regex : RegexSearch) : List StringView → Program TextMap MultipartFault Unit
  | [] => Pure.pure ()
  | formData :: formDataList => do
    addField regex formData
    addFields regex formDataList

/--
`Multipart::parse`

The view of the body ends where the closing boundary starts, which stands behind it in memory.
-/
def Multipart.parse (regex : RegexSearch) (body boundary : Bytes) :
    Program TextMap MultipartFault Unit := fun mFields =>
  match cut (boundaryEnd boundary) body with
  | none => .done ((), mFields)
  | some (bodyView, rest) =>
    match (⟨bodyView, boundaryEnd boundary ++ rest⟩ : StringView).explode
        (boundaryLine boundary) with
    | none => .spent
    | some formDataList => addFields regex formDataList mFields

/-! ### Bodies that are read to their end -/

namespace Multipart

/-- The fields are read without an exception, and no view gets shorter than nothing. -/
def ParsesNormally (regex : RegexSearch) (mFields : TextMap) (body boundary : Bytes) : Prop :=
  ∃ after, parse regex body boundary mFields = .done ((), after)

/-- Behind the name that is found for a part, the part goes on for six characters at least. -/
def Complete (formData : StringView) : Prop :=
  ascii "Content-Disposition" <+: formData.text →
    ∀ stop name, LeftmostMatch formData.cString stop name → stop + 6 ≤ formData.text.length

variable {regex : RegexSearch} {mFields : TextMap}

/-- Where nothing is found, the fields stay as they are. -/
theorem addField_missing {formData : StringView} (missing : regex.search formData.cString = none) :
    addField regex formData mFields = .done ((), mFields) := by
  unfold addField
  rw [missing]
  exact ite_self _

/-- A value stands between the four characters behind the name and the last two of the part. -/
theorem addField_found {formData : StringView} {stop : Nat} {name value : Bytes}
    {first second : UInt8} (named : ascii "Content-Disposition" <+: formData.text)
    (found : regex.search formData.cString = some (stop, name))
    (behind : formData.text.drop (stop + 4) = value ++ [first, second]) :
    addField regex formData mFields = .done ((), mFields.insertIfNew name value) := by
  have long := congrArg List.length behind
  rw [List.length_drop, List.length_append, List.length_cons, List.length_singleton] at long
  unfold addField
  rw [if_pos (List.isPrefixOf_iff_prefix.mpr named), found]
  dsimp only
  rw [if_neg (by omega), behind, if_neg (by simp)]
  simp

theorem addField_done_iff {formData : StringView} :
    (∃ after, addField regex formData mFields = .done ((), after)) ↔ Complete formData := by
  unfold Complete
  by_cases named : ascii "Content-Disposition" <+: formData.text
  · cases found : regex.search formData.cString with
    | none =>
      refine iff_of_true ⟨mFields, addField_missing found⟩ fun _ stop name leftmost => ?_
      rw [(regex.leftmost _ _ _).mpr leftmost] at found
      cases found
    | some result =>
      obtain ⟨stop, name⟩ := result
      constructor
      · -- There is only one leftmost match, which is the one that is found.
        intro ⟨after, ends⟩ _ stop' name' leftmost
        rw [(regex.leftmost _ _ _).mpr leftmost] at found
        unfold addField at ends
        rw [if_pos (List.isPrefixOf_iff_prefix.mpr named),
          (regex.leftmost _ _ _).mpr leftmost] at ends
        dsimp only at ends
        split at ends
        · cases ends
        · split at ends
          · cases ends
          · rename_i long
            rw [List.length_drop] at long
            omega
      · intro complete
        have long := complete named stop name ((regex.leftmost _ _ _).mp found)
        have two :
            ((formData.text.drop (stop + 4)).drop (formData.text.length - stop - 6)).length = 2 := by
          rw [List.length_drop, List.length_drop]
          omega
        obtain ⟨first, second, ends⟩ := List.length_eq_two.mp two
        have split := List.take_append_drop (formData.text.length - stop - 6)
          (formData.text.drop (stop + 4))
        rw [ends] at split
        exact ⟨_, addField_found named found split.symm⟩
  · refine iff_of_true ⟨mFields, ?_⟩ fun other => absurd other named
    unfold addField
    rw [if_neg (mt List.isPrefixOf_iff_prefix.mp named)]

/-- The loop ends if each of its rounds does. -/
theorem addFields_done_iff {formDataList : List StringView} :
    (∃ after, addFields regex formDataList mFields = .done ((), after)) ↔
      ∀ formData ∈ formDataList, Complete formData := by
  -- The first round that does not end keeps the loop from its end.
  induction formDataList generalizing mFields with
  | nil => exact iff_of_true ⟨mFields, rfl⟩ (by simp)
  | cons formData rest ih =>
    rw [List.forall_mem_cons, ← @addField_done_iff regex mFields]
    constructor
    · rintro ⟨after, ends⟩
      obtain ⟨⟨⟩, middle, here, later⟩ := Program.bind_eq_done ends
      exact ⟨⟨middle, here⟩, ih.mp ⟨after, later⟩⟩
    · rintro ⟨⟨middle, here⟩, others⟩
      obtain ⟨after, later⟩ := (@ih middle).mpr others
      exact ⟨after, (Program.bind_done here).trans later⟩

/--
A body is read to its end exactly if no closing boundary is in it, or each part in front of that is
complete.
-/
theorem parsesNormally_iff (regex : RegexSearch) (mFields : TextMap) (body boundary : Bytes) :
    ParsesNormally regex mFields body boundary ↔
      ∀ bodyView rest, cut (boundaryEnd boundary) body = some (bodyView, rest) →
        ∀ formData, StringView.Piece (boundaryLine boundary)
          ⟨bodyView, boundaryEnd boundary ++ rest⟩ formData → Complete formData := by
  unfold ParsesNormally parse
  cases cut (boundaryEnd boundary) body with
  | none => exact iff_of_true ⟨mFields, rfl⟩ (by simp)
  | some parts =>
    -- The loop goes over the pieces that the line of the boundary leaves.
    have something : boundaryLine boundary ≠ [] :=
      List.append_ne_nil_of_right_ne_nil _ (List.cons_ne_nil _ _)
    obtain ⟨formDataList, ends, pieces⟩ :=
      StringView.exists_explode something ⟨parts.1, boundaryEnd boundary ++ parts.2⟩
    dsimp only
    rw [ends]
    refine addFields_done_iff.trans ?_
    simp only [pieces, Option.some.injEq]
    constructor
    · rintro complete bodyView rest rfl
      exact complete
    · exact fun complete => complete _ _ rfl

/-- A part that ends with the name makes the parser throw. -/
theorem not_parsesNormally : ¬ ∀ (regex : RegexSearch) (mFields : TextMap) (body boundary : Bytes),
    ParsesNormally regex mFields body boundary := by
  intro always
  obtain ⟨after, ends⟩ := always .scan ∅
    (ascii "--x\r\nContent-Disposition: form-data; name=\"a\"--x--") (ascii "x")
  have thrown : parse .scan (ascii "--x\r\nContent-Disposition: form-data; name=\"a\"--x--")
      (ascii "x") ∅ = .thrown .outOfRange := by
    rfl
  rw [thrown] at ends
  cases ends

end Multipart

end Recap.HTTP
