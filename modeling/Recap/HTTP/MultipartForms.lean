import Recap.HTTP.Multipart

/-! The fields of a form come back from the body that it is sent as. -/

namespace Recap.HTTP

open Recap.Blaze Cutting

/-- Fields of different names, and a boundary that no value has behind two dashes. -/
structure Form where
  boundary : Bytes
  something : boundary ≠ []
  alphanumeric : ∀ character ∈ boundary, wordCharacter character ∧ character ≠ 95
  list : List (Bytes × Bytes)
  distinct : (list.map Prod.fst).Nodup
  named : ∀ field ∈ list, field.1 ≠ [] ∧ ∀ character ∈ field.1, wordCharacter character
  separate : ∀ field ∈ list, ¬ ascii "--" ++ boundary <:+: field.2

namespace Form

/-- The header of a field. -/
def header (name : Bytes) : Bytes :=
  ascii "Content-Disposition: form-data; name=\"" ++ (name ++ ascii "\"")

/-- A field as it stands behind its boundary line. -/
def content (field : Bytes × Bytes) : Bytes :=
  header field.1 ++ (ascii "\r\n\r\n" ++ (field.2 ++ ascii "\r\n"))

/-- All fields, each with its boundary line. -/
def fieldsText (boundary : Bytes) (list : List (Bytes × Bytes)) : Bytes :=
  list.flatMap fun field => boundaryLine boundary ++ content field

/-- The body that a form is sent as, with any text behind the closing boundary. -/
def body (form : Form) (epilogue : Bytes) : Bytes :=
  fieldsText form.boundary form.list ++ (boundaryEnd form.boundary ++ epilogue)

/-- What the lines of the boundary start with. -/
def marker (form : Form) : Bytes := ascii "--" ++ form.boundary

/-! ### Where the boundary does not stand -/

section Boundaries

variable {form : Form} {pattern rest : Bytes} {field : Bytes × Bytes}

theorem quote_eq : ascii "\"" = [34] := rfl

end Boundaries

/-! ### The parts of a body -/

section Parts

variable {form : Form} {text behind : Bytes} {list : List (Bytes × Bytes)}

/-- The parts that a body is split into, which start with a text that has no boundary. -/
def parts (boundary behind : Bytes) : Bytes → List (Bytes × Bytes) → List StringView
  | text, [] => [⟨text, behind⟩]
  | text, field :: rest =>
    ⟨text, boundaryLine boundary ++ ((content field ++ fieldsText boundary rest) ++ behind)⟩ ::
      parts boundary behind (content field) rest

/-- What stands in a header in front of the word that the pattern starts with. -/
def disposition : Bytes := ascii "Content-Disposition: form-data; "

/-- A header ends with what the pattern describes. -/
theorem header_eq (name : Bytes) :
    header name = disposition ++ (ascii "name" ++ ([] ++ 61 :: ([] ++ 34 :: (name ++ [34])))) := by
  have start : ascii "Content-Disposition: form-data; name=\"" =
      disposition ++ (ascii "name" ++ [61, 34]) := rfl
  unfold header
  rw [start, quote_eq]
  simp

end Parts

end Form

end Recap.HTTP
