import Recap.Core.Strings
import Recap.HTTP.Containment
import Recap.Lib.OrderedMap

/-! The variables in the query of a request target, and when they are the ones that were sent. -/

namespace Recap.HTTP.URI

open Recap.Blaze Cutting

/-! ### What the server reads -/

/-- The text that `URI::parse_path` takes for the query, which ends at a fragment. -/
def queryText (path : Bytes) (offset : Nat) : Option Bytes :=
  match find path (ascii "?") offset with
  | some position =>
    match find path (ascii "#") position with
    | some fragmentPosition =>
      some ((path.drop (position + 1)).take (fragmentPosition - position - 1))
    | none => some (path.drop (position + 1))
  | none => none

/-- The name and the value of one variable; without an equals sign the value is empty. -/
def variableOf (text : Bytes) : Bytes × Bytes :=
  match find text (ascii "=") 0 with
  | some separator => (text.take separator, text.drop (separator + 1))
  | none => (text, [])

/-- `URI::parse_query` -/
def parseQuery (mQuery : TextMap) (query : Bytes) : Option TextMap :=
  (explodeString query (ascii "&")).map fun texts =>
    texts.foldl (fun mQuery text =>
      mQuery.insertIfNew (variableOf text).1 (variableOf text).2) mQuery

/-- Where the path is taken to start. -/
def authorityEnd (path : Bytes) : Nat := parseAuthority path (parseScheme path)

/-- `URI::parse` of a request target, by the variables that it comes to. -/
def query (target : Bytes) : Option TextMap :=
  let path := decode target
  if authorityEnd path + 1 < path.length then
    match queryText path (authorityEnd path) with
    | some query => parseQuery ∅ query
    | none => some ∅
  else some ∅

/-! ### What a client sends -/

/-- A digit of a percent encoding. -/
def hexDigit (digit : UInt8) : UInt8 :=
  if digit < 10 then 48 + digit else 55 + digit

/-- One character, as it is or by its code. -/
def encodeCharacter (character : UInt8) : Bytes :=
  if nameCharacter character ∨ character = 45 ∨ character = 126 then [character]
  else [37, hexDigit (character / 16), hexDigit (character % 16)]

/-- The percent encoding, which keeps letters, digits and four more characters. -/
def percentEncode (text : Bytes) : Bytes :=
  text.flatMap encodeCharacter

/-- A path whose escapes are complete, and that has no question mark, not even an encoded one. -/
structure Path where
  text : Bytes
  complete : ∀ place, text[place]? = some 37 → place + 2 < text.length
  noQuery : 63 ∉ decode text

/-- Variables of different names. -/
structure Parameters where
  list : List (Bytes × Bytes)
  distinct : (list.map Prod.fst).Nodup

/-- A variable as it stands in a query. -/
def pair (entry : Bytes × Bytes) : Bytes := entry.1 ++ 61 :: entry.2

/-- A variable as it is sent. -/
def encodedPair (entry : Bytes × Bytes) : Bytes :=
  percentEncode entry.1 ++ 61 :: percentEncode entry.2

/-- A target that is sent, which has a query if there are variables. -/
def target (path : Path) (sent : Parameters) : Bytes :=
  if sent.list = [] then path.text
  else path.text ++ 63 :: [38].intercalate (sent.list.map encodedPair)

/-- The server comes to the variables that were sent. -/
def ParsesBack (path : Path) (sent : Parameters) : Prop :=
  ∃ mQuery, query (target path sent) = some mQuery ∧ ∀ name, mQuery[name]? = sent.list.lookup name

/-! ### Decoding -/

section Decoding

variable {front rest : Bytes}

/-- Two digits with base 16 come to the character that they are the code of. -/
theorem toChar_digits {high low : UInt8} {first second : Nat} (high_small : first < 16)
    (low_small : second < 16) (read : digitValue high = some first)
    (read' : digitValue low = some second) :
    toChar [high, low] = UInt8.ofNat (first * 16 + second) := by
  obtain ⟨solid, notMinus, notPlus⟩ := not_space_of_digit read
  have digits : leadingDigits 16 [high, low] = [first, second] := by
    simp [leadingDigits, read, read', high_small, low_small]
  have text : [high, low].dropWhile isSpace = [high, low] := by simp [solid]
  rw [toChar, text]
  simp [notMinus, notPlus, digits, digitsValue]

/-- A digit of a percent encoding has its value. -/
theorem digitValue_hexDigit {value : UInt8} (small : value.toNat < 16) :
    digitValue (hexDigit value) = some value.toNat := by
  have all : ∀ code < 16, digitValue (hexDigit (UInt8.ofNat code)) = some code := by decide
  have here := all value.toNat small
  rwa [UInt8.ofNat_toNat] at here

/-- Both halves of a character are digits. -/
theorem halves_small (character : UInt8) :
    (character / 16).toNat < 16 ∧ (character % 16).toNat < 16 := by
  have small := character.toNat_lt
  have sixteen : (16 : UInt8).toNat = 16 := rfl
  rw [UInt8.toNat_div, UInt8.toNat_mod, sixteen]
  omega

/-- The two halves of a character come to it again. -/
theorem ofNat_halves (character : UInt8) :
    UInt8.ofNat ((character / 16).toNat * 16 + (character % 16).toNat) = character := by
  have sixteen : (16 : UInt8).toNat = 16 := rfl
  rw [UInt8.toNat_div, UInt8.toNat_mod, sixteen, Nat.mul_comm, Nat.div_add_mod, UInt8.ofNat_toNat]

/-- A code is decoded to the character that it was made of. -/
theorem toChar_hexDigit (character : UInt8) :
    toChar [hexDigit (character / 16), hexDigit (character % 16)] = character := by
  obtain ⟨high, low⟩ := halves_small character
  rw [toChar_digits high low (digitValue_hexDigit high) (digitValue_hexDigit low),
    ofNat_halves]

theorem decode_encodeCharacter (character : UInt8) (rest : Bytes) :
    decode (encodeCharacter character ++ rest) = character :: decode rest := by
  unfold encodeCharacter
  split
  · rename_i plain
    -- Neither a percent sign nor a plus sign is sent as it is.
    have escape : character ≠ 37 := by
      rintro rfl
      exact absurd plain (by decide)
    have plus : character ≠ 43 := by
      rintro rfl
      exact absurd plain (by decide)
    rw [List.singleton_append, decode_cons escape, if_neg plus]
  · change toChar _ :: decode rest = _
    rw [toChar_hexDigit]

/-- What was encoded is decoded to itself, whatever follows. -/
theorem decode_percentEncode (text rest : Bytes) :
    decode (percentEncode text ++ rest) = text ++ decode rest := by
  induction text with
  | nil => rfl
  | cons character more ih =>
    change decode ((encodeCharacter character ++ percentEncode more) ++ rest) = _
    rw [List.append_assoc, decode_encodeCharacter, ih, List.cons_append]

/-- Behind complete escapes, decoding starts anew. -/
theorem decode_append (complete : ∀ place, front[place]? = some 37 → place + 2 < front.length)
    (rest : Bytes) : decode (front ++ rest) = decode front ++ decode rest := by
  -- An escape is decoded together with its two digits.
  induction size : front.length using Nat.strong_induction_on generalizing front with
  | _ size ih =>
    cases front with
    | nil => rfl
    | cons symbol more =>
      by_cases escape : symbol = 37
      · have long := complete 0 (congrArg some escape)
        obtain ⟨first, others, rfl⟩ := List.exists_cons_of_length_pos (show 0 < more.length by
          rw [List.length_cons] at long
          omega)
        obtain ⟨second, last, rfl⟩ := List.exists_cons_of_length_pos (show 0 < others.length by
          rw [List.length_cons, List.length_cons] at long
          omega)
        have later := @ih last.length (by simp at size; omega) last (fun place here => by
          have behind := complete (place + 3) here
          simp only [List.length_cons] at behind
          omega) rfl
        subst escape
        change toChar [first, second] :: decode (last ++ rest) = toChar [first, second] :: _
        rw [later]
        rfl
      · have later := @ih more.length (by simp at size; omega) more (fun place here => by
          have behind := complete (place + 1) here
          simp only [List.length_cons] at behind
          omega) rfl
        rw [List.cons_append, decode_cons escape, decode_cons escape, later, List.cons_append]

theorem decode_encodedPair (entry : Bytes × Bytes) (rest : Bytes) :
    decode (encodedPair entry ++ rest) = pair entry ++ decode rest := by
  unfold encodedPair pair
  rw [List.append_assoc, decode_percentEncode, List.cons_append, decode_cons (by decide),
    decode_percentEncode]
  simp

/-- The variables are decoded one by one. -/
theorem decode_intercalate (list : List (Bytes × Bytes)) :
    decode ([38].intercalate (list.map encodedPair)) = [38].intercalate (list.map pair) := by
  -- Each variable is decoded in front of the ampersand and the ones behind it.
  induction list with
  | nil => rfl
  | cons entry others ih =>
    cases others with
    | nil =>
      have whole := decode_encodedPair entry []
      rw [List.append_nil] at whole
      simpa [decode] using whole
    | cons next last =>
      simp only [List.map_cons] at ih ⊢
      rw [List.intercalate_cons_cons, List.append_assoc, decode_encodedPair, List.singleton_append,
        decode_cons (by decide), if_neg (by decide), ih, List.intercalate_cons_cons,
        List.append_assoc, List.singleton_append]

/-- A target is decoded to the path and the query. -/
theorem decode_target (path : Path) {sent : Parameters} (some_sent : sent.list ≠ []) :
    decode (target path sent) =
      decode path.text ++ 63 :: [38].intercalate (sent.list.map pair) := by
  unfold target
  rw [if_neg some_sent, decode_append path.complete, decode_cons (by decide), if_neg (by decide),
    decode_intercalate]

end Decoding

/-! ### What is read of a decoded target -/

section Reading

variable {path text : Bytes} {offset : Nat}

/-- A text is found where the rest of the path is cut at it. -/
theorem find_eq (path : Bytes) (something : text ≠ []) (offset : Nat) :
    find path text offset =
      (cut text (path.drop offset)).map fun parts => offset + parts.1.length := by
  cases found : cut text (path.drop offset) with
  | none =>
    have nowhere := cut_eq_none_iff.mp found
    unfold find
    rw [Option.map_none, List.find?_range_eq_none]
    intro position _
    rw [Bool.not_eq_true', decide_eq_false_iff_not]
    rintro ⟨behind, starts⟩
    refine nowhere ((List.isPrefixOf_iff_prefix.mp starts).isInfix.trans ?_)
    rw [← Nat.add_sub_cancel' behind, ← List.drop_drop]
    exact (List.drop_suffix _ _).isInfix
  | some parts =>
    have whole := append_of_cut found
    have positive := List.length_pos_iff.mpr something
    have long := congrArg List.length whole
    rw [List.length_append, List.length_append, List.length_drop] at long
    unfold find
    rw [Option.map_some, List.find?_range_eq_some]
    refine ⟨?_, List.mem_range.mpr (by omega), ?_⟩
    · rw [decide_eq_true_iff, ← List.drop_drop, ← whole, List.append_assoc, List.drop_left,
        List.isPrefixOf_iff_prefix]
      exact ⟨Nat.le_add_right _ _, List.prefix_append _ _⟩
    · -- In front of the cut the text does not start anywhere.
      intro position earlier
      rw [Bool.not_eq_true', decide_eq_false_iff_not]
      rintro ⟨behind, starts⟩
      have nowhere := not_prefix_of_cut found (show position - offset < parts.1.length by omega)
      rw [List.drop_drop, Nat.add_sub_cancel' behind] at nowhere
      exact nowhere (List.isPrefixOf_iff_prefix.mp starts)

/-- The query is what stands between the first question mark and a number sign behind it. -/
theorem queryText_eq (path : Bytes) (offset : Nat) :
    queryText path offset = (cut [63] (path.drop offset)).map fun parts =>
      ((cut [35] parts.2).map Prod.fst).getD parts.2 := by
  -- Both searches are cuts, the second one of what is behind the question mark.
  have question : ascii "?" = [63] := rfl
  have number : ascii "#" = [35] := rfl
  unfold queryText
  rw [question, number, find_eq path (List.cons_ne_nil _ _) offset]
  cases found : cut [63] (path.drop offset) with
  | none => rfl
  | some parts =>
    have mark : path.drop (offset + parts.1.length) = 63 :: parts.2 := by
      rw [← List.drop_drop, ← append_of_cut found, List.append_assoc, List.drop_left]
      rfl
    have behind : path.drop (offset + parts.1.length + 1) = parts.2 := by
      rw [← List.drop_drop, mark]
      rfl
    have fragment : cut [35] (63 :: parts.2) = (cut [35] parts.2).map fun later =>
        (63 :: later.1, later.2) := cut_cons (by simp)
    rw [Option.map_some, Option.map_some]
    dsimp only
    rw [find_eq path (List.cons_ne_nil _ _), mark, fragment, behind]
    cases last : cut [35] parts.2 with
    | none => rfl
    | some later =>
      have short := append_of_cut last
      simp only [Option.map_some, Option.getD_some]
      rw [← short]
      simp

/-- A query ends in front of the first number sign. -/
theorem not_mem_queryText (found : queryText path offset = some text) : 35 ∉ text := by
  rw [queryText_eq] at found
  obtain ⟨parts, -, same⟩ := Option.map_eq_some_iff.mp found
  rw [← same]
  cases last : cut [35] parts.2 with
  | none => exact cut_singleton_eq_none_iff.mp last
  | some later => exact not_mem_of_cut_singleton last

/-- Without a number sign, the query is all that follows the question mark. -/
theorem queryText_of_cut {front back : Bytes}
    (found : cut [63] (path.drop offset) = some (front, back)) (clear : 35 ∉ back) : queryText path offset = some back := by
  rw [queryText_eq, found, Option.map_some, cut_singleton_eq_none_iff.mpr clear]
  rfl

/-- The name of a variable ends at the first equals sign. -/
theorem variableOf_eq (text : Bytes) : variableOf text = (cut [61] text).getD (text, []) := by
  -- The place that is found is where the text is cut.
  have equals : ascii "=" = [61] := rfl
  unfold variableOf
  rw [equals, find_eq text (List.cons_ne_nil _ _) 0, List.drop_zero]
  cases found : cut [61] text with
  | none => rfl
  | some parts =>
    have whole := append_of_cut found
    rw [Option.map_some]
    dsimp only
    rw [← whole]
    simp

theorem variableOf_pair {entry : Bytes × Bytes} (clear : 61 ∉ entry.1) :
    variableOf (pair entry) = entry := by
  have found : cut [61] (pair entry) = some (entry.1, entry.2) := cut_singleton clear entry.2
  rw [variableOf_eq, found]
  rfl

/-- The variables of a query, in the order in which they stand there. -/
def entries (text : Bytes) : List (Bytes × Bytes) := (text.splitOn 38).map variableOf

/-- Of the variables of one name, the first one is kept. -/
theorem exists_parseQuery (text : Bytes) : ∃ mQuery, parseQuery ∅ text = some mQuery ∧
    ∀ name, mQuery[name]? = (entries text).lookup name := by
  refine ⟨(entries text).foldl (fun mQuery entry => mQuery.insertIfNew entry.1 entry.2) ∅, ?_, ?_⟩
  · change (explodeString text [38]).map _ = _
    rw [explodeString_singleton, Option.map_some, entries, List.foldl_map]
  · intro name
    rw [OrderedMap.lookup_insertAllNew]
    simp

/-- What no name and no value that is read has in it. -/
def Clear (entry : Bytes × Bytes) : Prop :=
  (38 ∉ entry.1 ∧ 61 ∉ entry.1 ∧ 35 ∉ entry.1) ∧ 38 ∉ entry.2 ∧ 35 ∉ entry.2

theorem clear_of_mem_entries (whole : 35 ∉ text) {entry : Bytes × Bytes}
    (member : entry ∈ entries text) : Clear entry := by
  -- A name and a value are parts of one piece, which has no ampersand.
  obtain ⟨piece, inText, rfl⟩ := List.mem_map.mp member
  have separate := not_mem_of_mem_splitOn inText
  have inside := (Paths.infix_of_mem_splitOn inText).subset
  rw [variableOf_eq]
  cases found : cut [61] piece with
  | none =>
    exact ⟨⟨separate, cut_singleton_eq_none_iff.mp found, fun mark => whole (inside mark)⟩,
      List.not_mem_nil, List.not_mem_nil⟩
  | some parts =>
    have split := append_of_cut found
    have front : parts.1 ⊆ piece := by
      rw [← split, List.append_assoc]
      exact List.subset_append_left _ _
    have back : parts.2 ⊆ piece := by
      rw [← split]
      exact List.subset_append_right _ _
    exact ⟨⟨fun mark => separate (front mark), not_mem_of_cut_singleton found,
      fun mark => whole (inside (front mark))⟩, fun mark => separate (back mark),
      fun mark => whole (inside (back mark))⟩

theorem not_mem_pair {symbol : UInt8} {entry : Bytes × Bytes} (other : symbol ≠ 61)
    (inName : symbol ∉ entry.1) (inValue : symbol ∉ entry.2) : symbol ∉ pair entry := by
  unfold pair
  rw [List.mem_append, List.mem_cons]
  exact fun inside => inside.elim inName fun rest => rest.elim other inValue

/-- Behind a text without an ampersand, clear variables are read as they were joined. -/
theorem entries_intercalate_cons {list : List (Bytes × Bytes)} (whole : 38 ∉ text)
    (clear : ∀ entry ∈ list, Clear entry) :
    entries ([38].intercalate (text :: list.map pair)) = variableOf text :: list := by
  have separate : ∀ piece ∈ text :: list.map pair, 38 ∉ piece :=
    List.forall_mem_cons.mpr ⟨whole, List.forall_mem_map.mpr fun entry member =>
      not_mem_pair (by decide) (clear entry member).1.1 (clear entry member).2.1⟩
  unfold entries
  rw [List.splitOn_intercalate 38 separate (List.cons_ne_nil _ _), List.map_cons, List.map_map]
  refine congrArg _ ((List.map_congr_left fun entry member => ?_).trans (List.map_id list))
  exact variableOf_pair (clear entry member).1.2.1

theorem entries_intercalate {list : List (Bytes × Bytes)} (some_sent : list ≠ [])
    (clear : ∀ entry ∈ list, Clear entry) : entries ([38].intercalate (list.map pair)) = list := by
  obtain ⟨first, rest, rfl⟩ := List.exists_cons_of_ne_nil some_sent
  obtain ⟨here, others⟩ := List.forall_mem_cons.mp clear
  rw [List.map_cons, entries_intercalate_cons (not_mem_pair (by decide) here.1.1 here.2.1) others,
    variableOf_pair here.1.2.1]

end Reading

/-! ### Where the path is taken to start -/

/-- What stands behind the scheme of a path, which is all of it if there is none. -/
def behindScheme (path : Bytes) : Bytes := ((cut (ascii "://") path).map Prod.snd).getD path

/-- Neither the end of a scheme nor that of an authority is found in a variable. -/
def StartsInPath (path : Bytes) (list : List (Bytes × Bytes)) : Prop :=
  (ascii "://" <:+: path ∨
    ∀ entry ∈ list, ¬ ascii "://" <:+: entry.1 ∧ ¬ ascii "://" <:+: entry.2) ∧
  (slash ∈ behindScheme path ∨ ∀ entry ∈ list, slash ∉ entry.1 ∧ slash ∉ entry.2)

section Starts

variable {path text : Bytes}

theorem scheme_eq : ascii "://" = [58, 47, 47] := rfl

theorem parseScheme_eq (path : Bytes) :
    parseScheme path = ((cut (ascii "://") path).map fun parts => parts.1.length + 3).getD 0 := by
  unfold parseScheme
  rw [scheme_eq, find_eq path (List.cons_ne_nil _ _) 0, List.drop_zero]
  cases cut [58, 47, 47] path with
  | none => rfl
  | some parts =>
    rw [Option.map_some, Option.map_some]
    dsimp only
    rw [Nat.zero_add, Option.getD_some]

theorem parseAuthority_eq (path : Bytes) (offset : Nat) : parseAuthority path offset =
    offset + ((cut [slash] (path.drop offset)).map fun parts => parts.1.length).getD 0 := by
  unfold parseAuthority
  rw [find_eq path (List.cons_ne_nil _ _) offset]
  cases cut [slash] (path.drop offset) <;> rfl

/-- The first slash stands in front of the query if there is one, or if the query has none. -/
theorem slash_le_iff (path query : Bytes) :
    ((cut [slash] (path ++ 63 :: query)).map fun parts => parts.1.length).getD 0 ≤ path.length ↔
      slash ∈ path ∨ slash ∉ query := by
  -- The first slash of both is that of the path, or else that of the query.
  by_cases inPath : slash ∈ path
  · obtain ⟨front, back, rfl, clear⟩ := List.eq_append_cons_of_mem inPath
    refine iff_of_true ?_ (.inl inPath)
    rw [List.append_assoc, List.cons_append, cut_singleton clear]
    simp
  · by_cases inQuery : slash ∈ query
    · obtain ⟨front, back, rfl, clear⟩ := List.eq_append_cons_of_mem inQuery
      refine iff_of_false ?_ (not_or.mpr ⟨inPath, not_not.mpr inQuery⟩)
      have outside : slash ∉ path ++ 63 :: front := by
        rw [List.mem_append, List.mem_cons]
        exact fun inside => inside.elim inPath fun rest => rest.elim (by decide) clear
      rw [← List.cons_append, ← List.append_assoc, cut_singleton outside]
      simp
    · refine iff_of_true ?_ (.inr inQuery)
      have outside : slash ∉ path ++ 63 :: query := by
        rw [List.mem_append, List.mem_cons]
        exact fun inside => inside.elim inPath fun rest => rest.elim (by decide) inQuery
      rw [cut_singleton_eq_none_iff.mpr outside]
      exact Nat.zero_le _

/-- The path is taken to start in front of the query if scheme and authority end there. -/
theorem authorityEnd_le_iff (path query : Bytes) :
    authorityEnd (path ++ 63 :: query) ≤ path.length ↔
      (ascii "://" <:+: path ∨ ¬ ascii "://" <:+: query) ∧
        (slash ∈ behindScheme path ∨ slash ∉ query) := by
  unfold authorityEnd behindScheme
  rw [parseAuthority_eq, parseScheme_eq]
  cases found : cut (ascii "://") path with
  | some parts =>
    -- The scheme is that of the path, and the authority is looked for in what is left of it.
    have whole := append_of_cut found
    have inPath : ascii "://" <:+: path := ⟨parts.1, parts.2, whole⟩
    have long : path.length = parts.1.length + 3 + parts.2.length := by
      rw [← whole, List.length_append, List.length_append]
      rfl
    have rest : (path ++ 63 :: query).drop (parts.1.length + 3) = parts.2 ++ 63 :: query := by
      rw [← whole, List.append_assoc _ parts.2]
      exact List.drop_left' (by rw [List.length_append]; rfl)
    rw [cut_append_of_some found, Option.map_some, Option.getD_some, Option.map_some,
      Option.getD_some, rest, long, Nat.add_le_add_iff_left, slash_le_iff,
      and_iff_right (.inl inPath)]
  | none =>
    have notInPath := cut_eq_none_iff.mp found
    cases other : cut (ascii "://") (path ++ 63 :: query) with
    | some parts =>
      -- The scheme ends in the query.
      have whole := append_of_cut other
      have inQuery : ascii "://" <:+: query :=
        ((infix_separated (by rw [scheme_eq]; decide)).mp ⟨_, _, whole⟩).resolve_left notInPath
      refine iff_of_false (fun inside => notInPath ?_) fun both =>
        both.1.elim notInPath fun apart => apart inQuery
      rw [Option.map_some, Option.getD_some] at inside
      have starts : parts.1 ++ ascii "://" <+: path := by
        refine List.prefix_of_prefix_length_le ⟨parts.2, whole⟩ (List.prefix_append _ _) ?_
        rw [List.length_append]
        exact (Nat.le_add_right _ _).trans inside
      exact (List.suffix_append _ _).isInfix.trans starts.isInfix
    | none =>
      have nowhere := mt (infix_separated (by rw [scheme_eq]; decide)).mpr
        (cut_eq_none_iff.mp other)
      rw [not_or] at nowhere
      rw [Option.map_none, Option.getD_none, Option.map_none, Option.getD_none, Nat.zero_add,
        List.drop_zero, slash_le_iff, and_iff_right (.inr nowhere.2)]

/-- What is looked for in a query has neither of its separators. -/
theorem infix_query_iff {pattern : Bytes} (something : pattern ≠ []) (separate : 38 ∉ pattern)
    (equals : 61 ∉ pattern) (list : List (Bytes × Bytes)) :
    ¬ pattern <:+: [38].intercalate (list.map pair) ↔
      ∀ entry ∈ list, ¬ pattern <:+: entry.1 ∧ ¬ pattern <:+: entry.2 := by
  rw [infix_joined separate something]
  unfold pair
  simp [infix_separated equals]

theorem authorityEnd_le_iff_startsInPath (path : Bytes) (list : List (Bytes × Bytes)) :
    authorityEnd (path ++ 63 :: [38].intercalate (list.map pair)) ≤ path.length ↔
      StartsInPath path list := by
  have schemes := infix_query_iff (List.cons_ne_nil 58 [47, 47]) (by decide) (by decide) list
  have slashes := infix_query_iff (List.cons_ne_nil slash []) (by decide) (by decide) list
  simp only [List.singleton_infix_iff] at slashes
  rw [authorityEnd_le_iff, scheme_eq, schemes, slashes]
  rfl

end Starts

/-! ### Which variables come back -/

section Results

variable {path : Path} {sent : Parameters} {text : Bytes}

/-- Variables come back if the query that is read has the same ones. -/
theorem parsesBack_iff_entries (path : Path) (some_sent : sent.list ≠ []) :
    let decoded := decode path.text ++ 63 :: [38].intercalate (sent.list.map pair)
    ParsesBack path sent ↔ authorityEnd decoded + 1 < decoded.length ∧
      ∃ text, queryText decoded (authorityEnd decoded) = some text ∧
        ∀ name, (entries text).lookup name = sent.list.lookup name := by
  intro decoded
  -- Without a query there are no variables at all.
  have missing : ¬ ∃ mQuery : TextMap, some (∅ : TextMap) = some mQuery ∧
      ∀ name, mQuery[name]? = sent.list.lookup name := by
    rintro ⟨mQuery, empty, same⟩
    obtain rfl := Option.some_inj.mp empty
    obtain ⟨entry, rest, first⟩ := List.exists_cons_of_ne_nil some_sent
    have found := same entry.1
    rw [first, List.lookup_cons, beq_self_eq_true, Std.TreeMap.getElem?_emptyc] at found
    cases found
  unfold ParsesBack query
  rw [decode_target path some_sent]
  change (∃ mQuery, (if authorityEnd decoded + 1 < decoded.length then _ else _) = some mQuery ∧ _) ↔ _
  by_cases long : authorityEnd decoded + 1 < decoded.length
  · rw [if_pos long, and_iff_right long]
    change (∃ mQuery, (match queryText decoded (authorityEnd decoded) with
      | some query => parseQuery ∅ query
      | none => some ∅) = some mQuery ∧ _) ↔ _
    cases queryText decoded (authorityEnd decoded) with
    | none => exact iff_of_false missing (by simp)
    | some text =>
      obtain ⟨mQuery, parsed, lookups⟩ := exists_parseQuery text
      simp only [parsed, Option.some.injEq, exists_eq_left', lookups]
  · rw [if_neg long]
    exact iff_of_false missing fun both => long both.1

/-- Variables that come back are clear, as all are that are read. -/
theorem clear_of_lookup (whole : 35 ∉ text)
    (same : ∀ name, (entries text).lookup name = sent.list.lookup name) :
    ∀ entry ∈ sent.list, Clear entry := by
  intro entry member
  have found := (OrderedMap.lookup_eq_some_iff_mem sent.distinct).mpr member
  rw [← same] at found
  obtain ⟨front, back, split, -⟩ := List.lookup_eq_some_iff.mp found
  refine clear_of_mem_entries whole ?_
  rw [split]
  exact List.mem_append_right _ List.mem_cons_self

theorem clear_of_parsesBack (back : ParsesBack path sent) : ∀ entry ∈ sent.list, Clear entry := by
  by_cases some_sent : sent.list = []
  · simp [some_sent]
  · obtain ⟨-, text, found, same⟩ := (parsesBack_iff_entries path some_sent).mp back
    exact clear_of_lookup (not_mem_queryText found) same

/-- A variable is all of its text, or is written there with an equals sign. -/
theorem variableOf_cases (text : Bytes) :
    variableOf text = (text, []) ∨ pair (variableOf text) = text := by
  rw [variableOf_eq]
  cases found : cut [61] text with
  | none => exact .inl rfl
  | some parts =>
    refine .inr ?_
    rw [Option.getD_some, ← append_of_cut found, List.append_assoc]
    rfl

/-- What stands behind a question mark in a variable is too short for all of it. -/
theorem variableOf_ne {entry : Bytes × Bytes} {first second : Bytes} (clear : 61 ∉ entry.1)
    (split : pair entry = first ++ 63 :: second) : variableOf second ≠ entry := by
  intro same
  have long := congrArg List.length split
  rw [List.length_append, List.length_cons] at long
  rcases variableOf_cases second with all | written
  · -- Without an equals sign, only the one at the end of the variable is missing.
    rw [same] at all
    subst all
    unfold pair at split
    simp only [pair, List.length_append, List.length_cons, List.length_nil] at long
    obtain rfl := List.length_eq_zero_iff.mp (show first.length = 0 by omega)
    have inside : (61 : UInt8) ∈ [] ++ 63 :: second := by
      rw [← split]
      exact List.mem_append_right _ List.mem_cons_self
    exact clear ((List.mem_cons.mp inside).resolve_left (by decide))
  · rw [same] at written
    rw [written] at long
    omega

/-- A query that starts inside of a variable lacks that variable. -/
theorem exists_lookup_ne {front : Bytes}
    (joined : [38].intercalate (sent.list.map pair) = front ++ 63 :: text)
    (clear : ∀ entry ∈ sent.list, Clear entry) :
    ∃ name, (entries text).lookup name ≠ sent.list.lookup name := by
  obtain ⟨before, first, second, after, split, rfl⟩ :=
    exists_of_intercalate_eq (by decide) joined
  obtain ⟨earlier, here, listed, -, hereSame⟩ := List.map_eq_append_iff.mp split
  obtain ⟨entry, later, rfl, entrySame, rfl⟩ := List.map_eq_cons_iff.mp hereSame
  have distinct := sent.distinct
  rw [listed] at clear distinct
  obtain ⟨clearHere, clearLater⟩ := List.forall_mem_cons.mp (List.forall_mem_append.mp clear).2
  have rest : 38 ∉ second := by
    intro inside
    refine not_mem_pair (by decide) clearHere.1.1 clearHere.2.1 ?_
    rw [entrySame]
    exact List.mem_append_right _ (List.mem_cons_of_mem _ inside)
  have sentOne : sent.list.lookup entry.1 = some entry.2 := by
    rw [OrderedMap.lookup_eq_some_iff_mem sent.distinct, listed]
    exact List.mem_append_right _ List.mem_cons_self
  refine ⟨entry.1, fun same => ?_⟩
  -- Behind the question mark there are the rest of the variable and the later ones.
  rw [entries_intercalate_cons rest clearLater, sentOne] at same
  obtain ⟨others, more, whole, -⟩ := List.lookup_eq_some_iff.mp same
  have found : entry ∈ variableOf second :: later := by
    rw [whole]
    exact List.mem_append_right _ List.mem_cons_self
  rcases List.mem_cons.mp found with read | inLater
  · exact variableOf_ne clearHere.1.2.1 entrySame read.symm
  · rw [List.map_append, List.map_cons, List.nodup_middle, List.nodup_cons] at distinct
    exact distinct.1 (List.mem_append_right _ (List.mem_map_of_mem inLater))

/-- If the path is taken to start in front of the query, all of the query is read. -/
theorem queryText_of_le {path query : Bytes} {offset : Nat} (noQuery : 63 ∉ path)
    (noFragment : 35 ∉ query) (inPath : offset ≤ path.length) :
    queryText (path ++ 63 :: query) offset = some query := by
  have clear : 63 ∉ path.drop offset := fun inside => noQuery (List.mem_of_mem_drop inside)
  have found := cut_singleton clear query
  rw [← List.drop_append_of_le_length inPath] at found
  exact queryText_of_cut found noFragment

/-- Otherwise what is read stands behind a question mark of the variables. -/
theorem exists_of_queryText {path query : Bytes} {offset : Nat} (noFragment : 35 ∉ query)
    (outside : path.length < offset) (found : queryText (path ++ 63 :: query) offset = some text) :
    ∃ front, query = front ++ 63 :: text := by
  -- All that the search sees is a rest of the query.
  obtain ⟨more, rfl⟩ := Nat.exists_eq_add_of_lt outside
  have behind : (path ++ 63 :: query).drop (path.length + more + 1) = query.drop more := by
    rw [Nat.add_assoc, ← List.drop_drop, List.drop_left]
    rfl
  rw [queryText_eq, behind] at found
  obtain ⟨parts, marked, same⟩ := Option.map_eq_some_iff.mp found
  have whole := append_of_cut marked
  have clear : 35 ∉ parts.2 := by
    intro inside
    refine noFragment (List.mem_of_mem_drop (i := more) ?_)
    rw [← whole]
    exact List.mem_append_right _ inside
  rw [cut_singleton_eq_none_iff.mpr clear] at same
  refine ⟨query.take more ++ parts.1, ?_⟩
  rw [← same]
  nth_rewrite 1 [← List.take_append_drop more query]
  rw [← whole]
  simp

/--
The variables that were sent come back exactly if scheme and authority end in the path, and no name
has an ampersand, an equals sign or a number sign, and no value an ampersand or a number sign.
-/
theorem parsesBack_iff (path : Path) (sent : Parameters) :
    ParsesBack path sent ↔
      StartsInPath (decode path.text) sent.list ∧ ∀ entry ∈ sent.list, Clear entry := by
  by_cases some_sent : sent.list = []
  · refine iff_of_true ⟨∅, ?_, ?_⟩ ⟨⟨.inr ?_, .inr ?_⟩, ?_⟩
    · -- A path alone has no question mark.
      have none_found (offset : Nat) : queryText (decode path.text) offset = none := by
        rw [queryText_eq, cut_singleton_eq_none_iff.mpr, Option.map_none]
        exact fun inside => path.noQuery (List.mem_of_mem_drop inside)
      unfold query target
      rw [if_pos some_sent]
      dsimp only
      rw [none_found]
      exact ite_self _
    all_goals simp [some_sent]
  have reading := parsesBack_iff_entries path some_sent
  dsimp only at reading
  rw [reading, ← authorityEnd_le_iff_startsInPath]
  have noFragment (clear : ∀ entry ∈ sent.list, Clear entry) :
      35 ∉ [38].intercalate (sent.list.map pair) := by
    rw [← List.singleton_infix_iff, infix_query_iff (List.cons_ne_nil _ _) (by decide) (by decide)]
    intro entry member
    rw [List.singleton_infix_iff, List.singleton_infix_iff]
    exact ⟨(clear entry member).1.2.2, (clear entry member).2.2⟩
  constructor
  · rintro ⟨-, text, found, same⟩
    have clear := clear_of_lookup (not_mem_queryText found) same
    refine ⟨?_, clear⟩
    by_contra outside
    obtain ⟨front, joined⟩ := exists_of_queryText (noFragment clear) (not_le.mp outside) found
    obtain ⟨name, other⟩ := exists_lookup_ne joined clear
    exact other (same name)
  · rintro ⟨inPath, clear⟩
    refine ⟨?_, _, queryText_of_le path.noQuery (noFragment clear) inPath, fun name => ?_⟩
    · -- A query of variables has an equals sign at least.
      obtain ⟨entry, member⟩ := List.exists_mem_of_ne_nil _ some_sent
      have equals : [61] <:+: [38].intercalate (sent.list.map pair) :=
        (infix_joined (by decide) (List.cons_ne_nil _ _) _).mpr
          ⟨pair entry, List.mem_map_of_mem member, ⟨entry.1, entry.2, by simp [pair]⟩⟩
      have positive := equals.length_le
      rw [List.length_append, List.length_cons]
      rw [List.length_singleton] at positive
      omega
    · rw [entries_intercalate some_sent clear]

/-- A value with an ampersand is taken for two variables. -/
theorem not_parsesBack : ¬ ∀ (path : Path) (sent : Parameters), ParsesBack path sent := by
  intro always
  have slashOnly : ∀ place, ([slash] : Bytes)[place]? = some 37 → place + 2 < [slash].length :=
    fun _ percent => absurd (List.mem_of_getElem? percent) (by decide)
  have back := always ⟨[slash], slashOnly, by decide⟩ ⟨[(ascii "a", ascii "1&b")], by decide⟩
  have clear := clear_of_parsesBack back (ascii "a", ascii "1&b") List.mem_cons_self
  exact absurd clear.2.1 (by decide)

end Results

end Recap.HTTP.URI
