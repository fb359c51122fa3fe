import Recap.HTTP.Request
import Recap.Lib.Paths

/-! When the files that the web server opens lie inside of its directory of static files. -/

namespace Recap.HTTP

open Recap.Blaze Recap.Paths

/-- A directory without the separator that it may be written with at its end. -/
def base (path : Bytes) : Bytes :=
  if endsWithSlash path then path.dropLast else path

/-- The path leads through the directory, and from there on never up. -/
def Contained (path opened : Bytes) : Prop :=
  ∃ below, opened.splitOn slash = (base path).splitOn slash ++ below ∧ parent ∉ below

/-- A contained path leads below the directory, wherever the directory is. -/
theorem Contained.inside {path opened : Bytes} (contained : Contained path opened)
    (stays : Bytes → Bool) (start : List Bytes) :
    resolve parent stays start ((base path).splitOn slash) <+:
      resolve parent stays start (opened.splitOn slash) := by
  -- The directory is resolved first, and the segments behind it only lead down.
  obtain ⟨below, same, down⟩ := contained
  rw [same, resolve_append]
  exact resolve_below parent stays down _

/-! ### What a static route opens -/

section Storage

variable {rest : Bytes}

/-- The name of a file below the directory, with the index of a directory. -/
def fileName (rest : Bytes) : Bytes :=
  if endsWithSlash rest then rest ++ ascii "index.html" else rest

theorem endsWithSlash_iff {text : Bytes} : endsWithSlash text ↔ ∃ front, text = front ++ [slash] := by
  unfold endsWithSlash
  rw [decide_eq_true_iff, List.getLast?_eq_some_iff]

theorem base_append {path : Bytes} (ends : endsWithSlash path) : base path ++ [slash] = path := by
  -- What is dropped at the end is the separator.
  unfold base
  rw [if_pos ends]
  obtain ⟨front, rfl⟩ := endsWithSlash_iff.mp ends
  rw [List.dropLast_concat]

/-- Either the directory or the name has the separator between them. -/
theorem responseWithFileInStorage_eq (files : FileSystem) (path : Bytes) (something : rest ≠ []) :
    responseWithFileInStorage files (slash :: rest) path =
      let wholePath := base path ++ slash :: fileName rest
      if !files.present wholePath || files.isDirectory wholePath then
        if files.present (wholePath ++ ascii "/index.html") then
          some (wholePath ++ ascii "/index.html")
        else none
      else some wholePath := by
  unfold responseWithFileInStorage
  -- The end of the name is the end of what stands behind its first separator.
  have last : endsWithSlash (slash :: rest) = endsWithSlash rest := by
    unfold endsWithSlash
    rw [List.getLast?_cons_of_ne_nil something]
  by_cases ends : endsWithSlash path
  · have whole : path ++ fileName rest = base path ++ slash :: fileName rest := by
      have cut := base_append ends
      nth_rewrite 1 [← cut]
      rw [List.append_assoc]
      rfl
    have name : (if endsWithSlash path = true ∧ (slash :: rest).head? = some slash then
        (slash :: rest).tail else slash :: rest) = rest := if_pos ⟨ends, rfl⟩
    dsimp only
    rw [name]
    unfold fileName at whole ⊢
    rw [whole]
  · have name : (if endsWithSlash path = true ∧ (slash :: rest).head? = some slash then
        (slash :: rest).tail else slash :: rest) = slash :: rest := if_neg fun both => ends both.1
    have whole : path ++ (if endsWithSlash (slash :: rest) = true then
        slash :: rest ++ ascii "index.html" else slash :: rest) =
          base path ++ slash :: fileName rest := by
      unfold base fileName
      rw [if_neg ends, last]
      split <;> rfl
    dsimp only
    rw [name, whole]

/-- An index has no way up in its name. -/
theorem mem_fileName : parent ∈ (fileName rest).splitOn slash ↔ parent ∈ rest.splitOn slash := by
  unfold fileName
  split
  · rename_i ends
    -- The name of the index takes the place of the empty last segment.
    obtain ⟨front, rfl⟩ := endsWithSlash_iff.mp ends
    rw [List.append_assoc, List.singleton_append, mem_splitOn_append, mem_splitOn_append]
    refine or_congr_right (iff_of_false ?_ ?_)
    · decide
    · decide
  · exact Iff.rfl

theorem contained_whole_iff (path : Bytes) :
    Contained path (base path ++ slash :: fileName rest) ↔ parent ∉ rest.splitOn slash := by
  -- The separator between the directory and the name cuts the path there.
  unfold Contained
  rw [List.splitOn_append_cons_self, ← mem_fileName]
  constructor
  · intro contained
    obtain ⟨below, same, down⟩ := contained
    rwa [List.append_cancel_left same]
  · exact fun down => ⟨_, rfl, down⟩

/-- The index of a directory is as contained as the directory. -/
theorem Contained.index {path opened : Bytes} (contained : Contained path opened) :
    Contained path (opened ++ ascii "/index.html") := by
  -- The name of the index is one more segment, and does not lead up.
  obtain ⟨below, same, down⟩ := contained
  refine ⟨below ++ [ascii "index.html"], ?_, ?_⟩
  · have cut : ascii "/index.html" = slash :: ascii "index.html" := rfl
    have one : (ascii "index.html").splitOn slash = [ascii "index.html"] := rfl
    rw [cut, List.splitOn_append_cons_self, same, one, List.append_assoc]
  · rw [List.mem_append, not_or]
    exact ⟨down, by decide⟩

/-- Whatever files there are, a name without a way up is looked for inside of the directory. -/
theorem contained_of_down {files : FileSystem} {path opened : Bytes} (something : rest ≠ [])
    (down : parent ∉ rest.splitOn slash)
    (opens : responseWithFileInStorage files (slash :: rest) path = some opened) :
    Contained path opened := by
  -- Only the file itself or the index of a directory is opened.
  have whole := (contained_whole_iff path).mpr down
  rw [responseWithFileInStorage_eq files path something] at opens
  dsimp only at opens
  split at opens
  · split at opens
    · obtain rfl := Option.some_inj.mp opens
      exact whole.index
    · cases opens
  · obtain rfl := Option.some_inj.mp opens
    exact whole

end Storage

/-! ### Targets and routes -/

/-- A pattern of resources that lie below some first directory. -/
def Pattern.nested : Pattern → Bool
  | .below front _ _ => front.head? = some slash ∧ 2 ≤ front.length
  | _ => false

/-- What a static route is for lies below some first directory. -/
theorem nested_of_route {resource : Bytes}
    (routed : route resource = some .responseWithFileInStorage) :
    ∃ rest, resource = slash :: rest ∧ rest ≠ [] := by
  -- The route that was found fits the resource, and all static routes have the same kind of front.
  obtain ⟨⟨pattern, handler⟩, found, rfl⟩ := Option.map_eq_some_iff.mp routed
  have fits : pattern.equals resource :=
    @List.find?_some _ (fun entry : Pattern × Handler => entry.1.equals resource) _ _ found
  have static : ∀ entry ∈ routes, entry.2 = .responseWithFileInStorage → entry.1.nested := by
    decide
  have nested : pattern.nested := static _ (List.mem_of_find?_eq_some found) rfl
  cases pattern with
  | literal | anyBetween => cases nested
  | below front character atLeastOne =>
    obtain ⟨starts, long⟩ := of_decide_eq_true nested
    obtain ⟨isFront, -⟩ := of_decide_eq_true fits
    obtain ⟨back, rfl⟩ := List.isPrefixOf_iff_prefix.mp isFront
    cases front with
    | nil => cases starts
    | cons first others =>
      obtain rfl : first = slash := Option.some_inj.mp starts
      refine ⟨others ++ back, rfl, fun nothing => ?_⟩
      rw [(List.append_eq_nil_iff.mp nothing).1] at long
      exact absurd long (by decide)

/--
A target never leads out of the directory, whatever files there are, exactly when it is not
accepted, is for no static route, or has no way up in the resource that it is decoded to.
-/
theorem contained_iff_down (path target : Bytes) :
    (∀ files opened, handleRequest files path target = some opened → Contained path opened) ↔
      (accepts target → route (URI.resource target) = some .responseWithFileInStorage →
        parent ∉ (URI.resource target).splitOn slash) := by
  -- The server of all files opens what is asked for, so it shows whether the name leads up.
  constructor
  · intro contained accepted routed
    obtain ⟨rest, same, something⟩ := nested_of_route routed
    have up : parent ≠ [] := by decide
    rw [same, mem_splitOn_cons up]
    -- With all files there, the file of the name itself is opened.
    apply (contained_whole_iff path).mp
    apply contained ⟨fun _ => true, fun _ => false⟩
    unfold handleRequest
    rw [if_pos accepted, routed]
    dsimp only
    rw [same, responseWithFileInStorage_eq _ path something]
    rfl
  · intro down files opened opens
    unfold handleRequest at opens
    split at opens
    · rename_i accepted
      cases routed : route (URI.resource target) with
      | none =>
        rw [routed] at opens
        cases opens
      | some handler =>
        rw [routed] at opens
        cases handler with
        | other => cases opens
        | responseWithFileInStorage =>
          obtain ⟨rest, same, something⟩ := nested_of_route routed
          have none_up := down accepted routed
          rw [same, mem_splitOn_cons (by decide)] at none_up
          rw [same] at opens
          exact contained_of_down something none_up opens
    · cases opens

/-! ### Targets without escapes -/

/-- A character that starts no escape is decoded on its own. -/
theorem decode_cons {symbol : UInt8} (plain : symbol ≠ 37) (rest : Bytes) :
    URI.decode (symbol :: rest) = (if symbol = 43 then 32 else symbol) :: URI.decode rest := by
  -- How many characters follow matters to an escape only.
  cases rest with
  | nil =>
    simp only [URI.decode, if_neg plain]
    split <;> rfl
  | cons first others =>
    cases others with
    | nil =>
      simp only [URI.decode, if_neg plain]
      split <;> rfl
    | cons second others =>
      simp only [URI.decode, if_neg plain]
      split <;> rfl

/-- Without a percent sign only the plus signs are decoded. -/
theorem decode_plain {target : Bytes} (plain : 37 ∉ target) :
    URI.decode target = target.map fun symbol => if symbol = 43 then 32 else symbol := by
  induction target with
  | nil => rfl
  | cons symbol rest ih =>
    rw [List.mem_cons, not_or] at plain
    rw [decode_cons (fun same => plain.1 same.symm), ih plain.2, List.map_cons]

/-- The resource is a part of the decoded target. -/
theorem infix_resource (target : Bytes) : URI.resource target <:+: URI.decode target := by
  -- Scheme and authority are cut off at the front.
  have part : ∀ (path : Bytes) (offset count : Nat), (path.drop offset).take count <:+: path :=
    fun path offset count => (List.take_prefix _ _).isInfix.trans (List.drop_suffix _ _).isInfix
  unfold URI.resource
  dsimp only
  split
  · -- It ends at a query, at a fragment, or at the end.
    unfold URI.parsePath
    split
    · apply part
    · split
      · apply part
      · exact (List.drop_suffix _ _).isInfix
  · exact List.nil_infix

/-- An accepted target has no two dots next to each other. -/
theorem not_infix_of_accepts {target : Bytes} (accepted : accepts target) :
    ¬ parent <:+: target := by
  -- The check looks at every place of the target.
  intro up
  obtain ⟨front, back, rfl⟩ := up
  obtain ⟨-, nowhere⟩ := of_decide_eq_true accepted
  unfold URI.find at nowhere
  rw [List.find?_eq_none] at nowhere
  refine nowhere front.length ?_ (decide_eq_true ⟨Nat.zero_le _, ?_⟩)
  · rw [List.mem_range]
    simp only [List.length_append]
    omega
  · rw [List.append_assoc, List.drop_left, List.isPrefixOf_iff_prefix]
    exact List.prefix_append _ _

/-- A target without a percent sign leads nowhere but into the directory. -/
theorem contained_of_plain {files : FileSystem} {path target opened : Bytes} (plain : 37 ∉ target)
    (opens : handleRequest files path target = some opened) : Contained path opened := by
  -- Were there a segment that leads up, its dots would stand in the target, which is checked.
  refine (contained_iff_down path target).mpr (fun accepted _ up => ?_) files opened opens
  have decoded : parent <:+: URI.decode target :=
    (infix_of_mem_splitOn up).trans (infix_resource target)
  rw [decode_plain plain] at decoded
  -- A dot is decoded from a dot, so the two dots stand in the target as well.
  obtain ⟨front, back, same⟩ := decoded
  obtain ⟨start, stop, rfl, frontSame, rest⟩ := List.map_eq_append_iff.mp same.symm
  obtain ⟨first, dots, rfl, firstSame, dotsSame⟩ := List.map_eq_append_iff.mp frontSame
  have dot : ∀ symbol : UInt8, (if symbol = 43 then 32 else symbol) = 46 → symbol = 46 := by
    intro symbol same
    split at same
    · exact absurd same (by decide)
    · exact same
  have kept : dots = parent := by
    obtain ⟨one, later, rfl, oneSame, laterSame⟩ := List.map_eq_cons_iff.mp dotsSame
    obtain ⟨two, last, rfl, twoSame, lastSame⟩ := List.map_eq_cons_iff.mp laterSame
    rw [dot one oneSame, dot two twoSame, List.map_eq_nil_iff.mp lastSame]
  exact not_infix_of_accepts accepted ⟨first, stop, by rw [kept]⟩

/-- Two encoded dots get past the check, and lead out of the directory. -/
theorem not_contained : ¬ ∀ (files : FileSystem) (path target opened : Bytes),
    handleRequest files path target = some opened → Contained path opened := by
  -- The target has single dots only between its percent signs and digits.
  intro always
  have opens : handleRequest ⟨fun _ => true, fun _ => false⟩ (ascii "data/www/static/")
      (ascii "/assets/%2e%2e/%2e%2e/config.xml") =
        some (ascii "data/www/static/assets/../../config.xml") := by
    decide
  obtain ⟨below, same, down⟩ := always _ _ _ _ opens
  have segments : below = [ascii "assets", parent, parent, ascii "config.xml"] := by
    apply List.append_cancel_left
    rw [← same]
    decide
  rw [segments] at down
  exact absurd down (by decide)

end Recap.HTTP
