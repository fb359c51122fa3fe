import Mathlib

/-! Paths as texts that a separator cuts into segments, and where they lead from a directory. -/

namespace Recap.Paths

variable {Symbol : Type*} [DecidableEq Symbol]

/-- A segment lies between two separators, or at an end. -/
theorem mem_splitOn_append {separator : Symbol} (front back segment : List Symbol) :
    segment ∈ (front ++ separator :: back).splitOn separator ↔
      segment ∈ front.splitOn separator ∨ segment ∈ back.splitOn separator := by
  rw [List.splitOn_append_cons_self, List.mem_append]

/-- In front of the first separator of an absolute path there is only an empty segment. -/
theorem mem_splitOn_cons {separator : Symbol} {segment : List Symbol} (something : segment ≠ [])
    (text : List Symbol) :
    segment ∈ (separator :: text).splitOn separator ↔ segment ∈ text.splitOn separator := by
  -- The text is appended to nothing, whose only segment is the empty one.
  have cut := @mem_splitOn_append _ _ separator [] text segment
  rw [List.nil_append] at cut
  rw [cut, List.splitOn_nil, List.mem_singleton]
  exact or_iff_right something

omit [DecidableEq Symbol] in
/-- A text that stands between others when a separator is put between them is one of them. -/
theorem infix_intercalate {separator segment : List Symbol} {segments : List (List Symbol)}
    (member : segment ∈ segments) : segment <:+: separator.intercalate segments := by
  -- The first text is a prefix, and the others follow after a separator.
  induction segments with
  | nil => cases member
  | cons first rest ih =>
    cases rest with
    | nil =>
      rw [List.mem_singleton.mp member, List.intercalate_singleton]
    | cons second others =>
      rw [List.intercalate_cons_cons]
      rcases List.mem_cons.mp member with rfl | later
      · rw [List.append_assoc]
        exact (List.prefix_append _ _).isInfix
      · exact (ih later).trans (List.suffix_append _ _).isInfix

/-- A segment of a text stands in it. -/
theorem infix_of_mem_splitOn {separator : Symbol} {text segment : List Symbol}
    (member : segment ∈ text.splitOn separator) : segment <:+: text := by
  have whole := @infix_intercalate _ [separator] _ _ member
  rwa [List.intercalate_splitOn] at whole

variable (up : List Symbol) (stays : List Symbol → Bool)

/-- Where one segment leads: up, nowhere, or into what it names. -/
def follow (directory : List (List Symbol)) (segment : List Symbol) : List (List Symbol) :=
  if segment = up then directory.dropLast
  else if stays segment then directory
  else directory ++ [segment]

/-- Where segments lead, one after the other. -/
def resolve (directory segments : List (List Symbol)) : List (List Symbol) :=
  segments.foldl (follow up stays) directory

/-- Segments none of which leads up stay below the directory that they start from. -/
theorem resolve_below {segments : List (List Symbol)} (down : up ∉ segments)
    (directory : List (List Symbol)) : directory <+: resolve up stays directory segments := by
  -- Each segment leads from a directory to itself or to one right below it.
  induction segments generalizing directory with
  | nil => exact List.prefix_rfl
  | cons segment rest ih =>
    rw [List.mem_cons, not_or] at down
    have first : directory <+: follow up stays directory segment := by
      unfold follow
      rw [if_neg fun same => down.1 same.symm]
      split
      · exact List.prefix_rfl
      · exact List.prefix_append _ _
    exact first.trans (ih down.2 _)

theorem resolve_append (directory front back : List (List Symbol)) :
    resolve up stays directory (front ++ back) =
      resolve up stays (resolve up stays directory front) back :=
  List.foldl_append

end Recap.Paths
