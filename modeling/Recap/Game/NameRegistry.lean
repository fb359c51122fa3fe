import Recap.Blaze.Packet

/-! Names of hashes and hashes of names, loaded from registry files, with hexadecimal ones for the rest. -/

namespace Recap.Game

open Recap.Blaze (isSpace leadingDigits digitsValue)

/-! ## Texts -/

/-- `trim` -/
def trim (text : Bytes) : Bytes := (text.dropWhile isSpace).rdropWhile isSpace

/-- `std::tolower` of one character. -/
def toLower (character : UInt8) : UInt8 :=
  if 65 ≤ character ∧ character ≤ 90 then character + 32 else character

/-- A text in lower case. -/
def lower (text : Bytes) : Bytes := text.map toLower

/-- `fnv_hash_local` -/
def fnvHash (text : Bytes) : UInt32 :=
  if text = [] then 0
  else (lower text).foldl (fun rez character => (rez * 0x1000193) ^^^ character.toUInt32) 0x811C9DC5

/-- A sign and the text behind it. -/
def splitSign : Bytes → Bool × Bytes
  | 45 :: rest => (true, rest)
  | 43 :: rest => (false, rest)
  | text => (false, text)

/-- A hexadecimal text without the prefix that it may have. -/
def withoutPrefix : Bytes → Bytes
  | 48 :: mark :: rest => if mark = 120 ∨ mark = 88 then rest else 48 :: mark :: rest
  | text => text

/-- `ss >> std::hex >> v` of an unsigned word, with whether the stream has failed. -/
def extractHex (text : Bytes) : UInt32 × Bool :=
  let (negative, text) := splitSign (text.dropWhile isSpace)
  let digits := leadingDigits 16 (withoutPrefix text)
  let value := digitsValue 16 digits
  if digits = [] then (0, true)
  else if 2 ^ 32 ≤ value then (0xFFFFFFFF, true)
  else (if negative then 0 - UInt32.ofNat value else UInt32.ofNat value, false)

/-- `ss >> v` of a signed word, which is clamped where it does not fit. -/
def extractInt (text : Bytes) : UInt32 :=
  let (negative, text) := splitSign (text.dropWhile isSpace)
  let value := digitsValue 10 (leadingDigits 10 text)
  if negative then 0 - UInt32.ofNat (min value (2 ^ 31)) else UInt32.ofNat (min value (2 ^ 31 - 1))

/-- Whether a text has a hexadecimal prefix and something behind it. -/
def hexPrefixed (text : Bytes) : Bool :=
  2 < text.length && text[0]? == some 48 && (text[1]? == some 120 || text[1]? == some 88)

/-- The bits that a text of ones and other characters spells. -/
def bitsValue (text : Bytes) : UInt32 :=
  text.foldl (fun value character => (value <<< 1) ||| if character = 49 then 1 else 0) 0

/-- `int32_local` behind its two hexadecimal notations, one of which may have failed. -/
def int32Plain (text : Bytes) : UInt32 :=
  if text[0]? = some 36 then fnvHash (text.drop 1)
  else if text.getLast? = some 98 then bitsValue text.dropLast
  else extractInt text

/-- `int32_local` -/
def int32 (text : Bytes) : UInt32 :=
  let text := trim text
  if text = [] then 0
  else
    let prefixed := extractHex (text.drop 2)
    let marked := extractHex (text.drop 1)
    if hexPrefixed text ∧ prefixed.2 = false then prefixed.1
    else if text[0]? = some 35 ∧ marked.2 = false then marked.1
    else int32Plain text

/-! ## `NameRegistry` -/

/-- `NameRegistry`, as far as names and hashes go. -/
structure NameRegistry where
  hashes : Bytes → Option UInt32
  names : UInt32 → Option Bytes

namespace NameRegistry

/-- A registry as it is constructed. -/
def empty : NameRegistry := ⟨fun _ => none, fun _ => none⟩

/-- `GetName` -/
def getName (registry : NameRegistry) (hash : UInt32) : Option Bytes := registry.names hash

/-- `GetHash` -/
def getHash (registry : NameRegistry) (name : Bytes) : Option UInt32 :=
  (registry.hashes name).or (registry.hashes (lower name))

/-- The key of a name in `hashes`, which is in lower case where the name ends in a tilde. -/
def keyOf (name : Bytes) : Bytes := if name.getLast? = some 126 then lower name else name

/-- `Add` -/
def add (registry : NameRegistry) (name : Bytes) (hash : UInt32) : NameRegistry :=
  if name = [] then registry
  else ⟨Function.update registry.hashes (keyOf name) (some hash),
    Function.update registry.names hash (some name)⟩

/-- `StripComment` -/
def stripComment : Bytes → Bytes
  | [] => []
  | character :: rest =>
    if character = 47 ∧ rest.head? = some 47 then [] else character :: stripComment rest

/-- What a line of a registry says: a name, its hash, and whether the hash was given. -/
structure Entry where
  name : Bytes
  hash : UInt32
  given : Bool

/-- The parts of a line, which are split at the first tab if there is one. -/
def entryOf (line : Bytes) : Entry :=
  if (9 : UInt8) ∈ line then
    ⟨trim (line.takeWhile (· ≠ 9)), int32 (trim ((line.dropWhile (· ≠ 9)).drop 1)), true⟩
  else ⟨line, fnvHash line, false⟩

/-- `ParseEntry` -/
def parseEntry (registry : NameRegistry) (line : Bytes) : NameRegistry :=
  let entry := entryOf line
  -- Only a hash that was given is filed under the name.
  { hashes := if entry.given then
      Function.update registry.hashes (keyOf entry.name) (some entry.hash) else registry.hashes
    names := Function.update registry.names entry.hash (some entry.name) }

/-- What is left of a line that is not skipped. -/
def content (line : Bytes) : Option Bytes :=
  let line := trim (stripComment line)
  if line = [] ∨ line.head? = some 35 then none else some line

/-- `Read` -/
def read (registry : NameRegistry) (lines : List Bytes) : NameRegistry :=
  lines.foldl (fun registry line => ((content line).map registry.parseEntry).getD registry) registry

/-- A registry that has been loaded from some files, one after another. -/
def load (files : List (List Bytes)) : NameRegistry := files.foldl read empty

/-- The entries of some files. -/
def entries (files : List (List Bytes)) : List Entry := (files.flatten.filterMap content).map entryOf

end NameRegistry

/-! ## `HashManager` -/

/-- A digit of a number in base 16, in upper case. -/
def upperDigit (digit : Nat) : UInt8 := UInt8.ofNat (if digit < 10 then 48 + digit else 55 + digit)

/-- The lowest digits of a number in base 16, from the highest down. -/
def upperHex : (width number : Nat) → Bytes
  | 0, _ => []
  | width + 1, number => upperHex width (number / 16) ++ [upperDigit (number % 16)]

/-- `HexToStringUC` -/
def hexToStringUC (number : UInt32) : Bytes := ascii "0x" ++ upperHex 8 number.toNat

/-- `HashManager`, with the registries that file names are looked up in. -/
structure HashManager where
  fileRegistry : NameRegistry
  projectRegistry : NameRegistry
  updateProjectRegistry : Bool

namespace HashManager

/-- `GetFileName` -/
def getFileName (manager : HashManager) (hash : UInt32) : Bytes :=
  ((manager.fileRegistry.getName hash).or (manager.projectRegistry.getName hash)).getD
    (hexToStringUC hash)

/-- `GetFileHash`, with the manager that it may have added the name to. -/
def getFileHash (manager : HashManager) (name : Bytes) : UInt32 × HashManager :=
  if name = [] then (0xFFFFFFFF, manager)
  else if name[0]? = some 35 then ((extractHex (name.drop 1)).1, manager)
  else if hexPrefixed name then ((extractHex (name.drop 2)).1, manager)
  else match (manager.fileRegistry.getHash name).or (manager.projectRegistry.getHash name) with
    | some hash => (hash, manager)
    | none => (fnvHash name, if manager.updateProjectRegistry then
        { manager with projectRegistry := manager.projectRegistry.add name (fnvHash name) }
        else manager)

end HashManager

/-! ## Hexadecimal names -/

/-- Every digit in upper case is read as itself. -/
private theorem leadingDigits_upperDigit {digit : Nat} (small : digit < 16) (rest : Bytes) :
    leadingDigits 16 (upperDigit digit :: rest) = digit :: leadingDigits 16 rest := by
  have value : ∀ digit < 16, Blaze.digitValue (upperDigit digit) = some digit := by decide
  rw [leadingDigits, value digit small]
  exact if_pos small

/-- The digits of a number in base 16 spell its lowest part. -/
private theorem leadingDigits_upperHex (width number : Nat) (rest : Bytes) :
    ∃ digits, leadingDigits 16 (upperHex width number ++ rest) = digits ++ leadingDigits 16 rest ∧
      digitsValue 16 digits = number % 16 ^ width ∧ digits.length = width := by
  -- The last digit is the lowest one, and what is above it is written in front.
  induction width generalizing number rest with
  | zero => exact ⟨[], rfl, (Nat.mod_one number).symm, rfl⟩
  | succ width ih =>
    obtain ⟨digits, spelled, value, long⟩ := ih (number / 16) ([upperDigit (number % 16)] ++ rest)
    refine ⟨digits ++ [number % 16], ?_, ?_, by rw [List.length_append, long]; rfl⟩
    · rw [upperHex, List.append_assoc, spelled, List.append_assoc]
      congr 1
      exact leadingDigits_upperDigit (Nat.mod_lt _ (by decide)) rest
    · rw [digitsValue, List.foldl_append]
      change digitsValue 16 digits * 16 + number % 16 = _
      rw [value, pow_succ, Nat.mul_comm (16 ^ width) 16, Nat.mod_mul]
      omega

/-- The first digit is neither a space nor a sign, and no prefix starts behind it. -/
private theorem upperDigit_plain : ∀ digit < 16, isSpace (upperDigit digit) = false ∧
    upperDigit digit ≠ 45 ∧ upperDigit digit ≠ 43 ∧ upperDigit digit ≠ 120 ∧
      upperDigit digit ≠ 88 := by
  decide

private theorem splitSign_plain {first : UInt8} (rest : Bytes) (minus : first ≠ 45)
    (plus : first ≠ 43) : splitSign (first :: rest) = (false, first :: rest) := by
  unfold splitSign
  split
  · rename_i same
    exact absurd (List.cons.inj same).1 minus
  · rename_i same
    exact absurd (List.cons.inj same).1 plus
  · rfl

private theorem withoutPrefix_plain {first second : UInt8} (rest : Bytes) (small : second ≠ 120)
    (large : second ≠ 88) : withoutPrefix (first :: second :: rest) = first :: second :: rest := by
  unfold withoutPrefix
  split
  · rename_i same
    obtain ⟨rfl, rfl, rfl⟩ : first = 48 ∧ _ ∧ _ :=
      ⟨(List.cons.inj same).1, (List.cons.inj (List.cons.inj same).2).1,
        (List.cons.inj (List.cons.inj same).2).2⟩
    rw [if_neg (not_or.mpr ⟨small, large⟩)]
  · rfl

/-- Eight digits start with two of them. -/
private theorem upperHex_eight (number : Nat) : ∃ first < 16, ∃ second < 16, ∃ rest,
    upperHex 8 number = upperDigit first :: upperDigit second :: rest :=
  ⟨_, Nat.mod_lt _ (by decide), _, Nat.mod_lt _ (by decide), _, rfl⟩

/-- A hexadecimal name is read back as its hash. -/
theorem extractHex_upperHex (hash : UInt32) : extractHex (upperHex 8 hash.toNat) = (hash, false) := by
  obtain ⟨first, firstSmall, second, secondSmall, rest, shape⟩ := upperHex_eight hash.toNat
  obtain ⟨solid, minus, plus, -, -⟩ := upperDigit_plain first firstSmall
  obtain ⟨-, -, -, small, large⟩ := upperDigit_plain second secondSmall
  obtain ⟨digits, spelled, value, long⟩ := leadingDigits_upperHex 8 hash.toNat []
  have stripped : withoutPrefix (splitSign ((upperHex 8 hash.toNat).dropWhile isSpace)).2 =
      upperHex 8 hash.toNat := by
    rw [shape, List.dropWhile_cons_of_neg (by simp [solid]), splitSign_plain _ minus plus,
      withoutPrefix_plain _ small large]
  have unsigned : (splitSign ((upperHex 8 hash.toNat).dropWhile isSpace)).1 = false := by
    rw [shape, List.dropWhile_cons_of_neg (by simp [solid]), splitSign_plain _ minus plus]
  have none_after : leadingDigits 16 [] = [] := rfl
  rw [List.append_nil, none_after, List.append_nil] at spelled
  have some_digits : digits ≠ [] := List.ne_nil_of_length_pos (by omega)
  have bounded := hash.toNat_lt
  have whole : digitsValue 16 digits = hash.toNat := value.trans (Nat.mod_eq_of_lt bounded)
  simp only [extractHex, stripped, unsigned, spelled, if_neg some_digits, whole,
    if_neg (Nat.not_le.mpr bounded), Bool.false_eq_true, if_false, UInt32.ofNat_toNat]

/-! ## What a registry holds of its entries -/

namespace NameRegistry

/-- A registry knows of some entries only what they say, and every hash that they give. -/
structure Holds (registry : NameRegistry) (entries : List Entry) : Prop where
  named : ∀ hash name, registry.names hash = some name →
    ∃ entry ∈ entries, entry.name = name ∧ entry.hash = hash
  hashed : ∀ key hash, registry.hashes key = some hash →
    ∃ entry ∈ entries, keyOf entry.name = key ∧ entry.hash = hash
  filed : ∀ entry ∈ entries, entry.given → (registry.hashes (keyOf entry.name)).isSome

theorem holds_empty : Holds empty [] where
  named hash name found := absurd found (by simp [empty])
  hashed key hash found := absurd found (by simp [empty])
  filed entry member := absurd member List.not_mem_nil

/-- A line adds its entry to those that the registry knows of. -/
theorem Holds.parseEntry {registry : NameRegistry} {entries : List Entry}
    (holds : Holds registry entries) (line : Bytes) :
    Holds (registry.parseEntry line) (entries ++ [entryOf line]) := by
  have last : entryOf line ∈ entries ++ [entryOf line] :=
    List.mem_append_right _ (List.mem_singleton_self _)
  refine ⟨fun hash name found => ?_, fun key hash found => ?_, fun entry member given => ?_⟩
  · simp only [NameRegistry.parseEntry, Function.update_apply] at found
    split at found
    · rename_i same
      exact ⟨_, last, Option.some_inj.mp found, same.symm⟩
    · obtain ⟨entry, member, told⟩ := holds.named hash name found
      exact ⟨entry, List.mem_append_left _ member, told⟩
  · simp only [NameRegistry.parseEntry] at found
    have old : registry.hashes key = some hash →
        ∃ entry ∈ entries ++ [entryOf line], keyOf entry.name = key ∧ entry.hash = hash := by
      intro found
      obtain ⟨entry, member, told⟩ := holds.hashed key hash found
      exact ⟨entry, List.mem_append_left _ member, told⟩
    -- The key is either the one that the line files its hash under, or an older one.
    split at found
    · rw [Function.update_apply] at found
      split at found
      · rename_i same
        exact ⟨_, last, same.symm, Option.some_inj.mp found⟩
      · exact old found
    · exact old found
  · simp only [NameRegistry.parseEntry]
    rcases List.mem_append.mp member with before | new
    · have kept := holds.filed entry before given
      split
      · rw [Function.update_apply]
        split
        · rfl
        · exact kept
      · exact kept
    · rw [List.mem_singleton.mp new] at given ⊢
      rw [if_pos given, Function.update_self]
      rfl

theorem Holds.read {registry : NameRegistry} {entries : List Entry} (holds : Holds registry entries)
    (lines : List Bytes) :
    Holds (registry.read lines) (entries ++ (lines.filterMap content).map entryOf) := by
  -- The induction follows the lines, of which some are skipped.
  induction lines generalizing registry entries with
  | nil => simpa [NameRegistry.read] using holds
  | cons line rest ih =>
    rw [List.filterMap_cons]
    cases kept : content line with
    | none =>
      have skipped := ih holds
      simpa [NameRegistry.read, kept] using skipped
    | some text =>
      have entered := ih (holds.parseEntry text)
      simpa [NameRegistry.read, kept] using entered

theorem holds_load (files : List (List Bytes)) : Holds (load files) (entries files) := by
  have general : ∀ (files : List (List Bytes)) (registry : NameRegistry) (before : List Entry),
      Holds registry before → Holds (files.foldl NameRegistry.read registry)
        (before ++ entries files) := by
    intro files
    induction files with
    | nil =>
      intro registry before holds
      simpa [entries] using holds
    | cons lines rest ih =>
      intro registry before holds
      have loaded := ih _ _ (holds.read lines)
      simpa [entries, List.filterMap_append, List.append_assoc] using loaded
  exact general files empty [] holds_empty

/-! ## Names that are found -/

/-- What is in lower case already stays as it is. -/
theorem toLower_toLower (character : UInt8) : toLower (toLower character) = toLower character := by
  unfold toLower
  split
  · rename_i upper
    -- A capital moves behind all capitals.
    have least : 65 ≤ character.toNat := UInt8.le_iff_toNat_le.mp upper.1
    have most : character.toNat ≤ 90 := UInt8.le_iff_toNat_le.mp upper.2
    have moved : (character + 32).toNat = character.toNat + 32 := by
      rw [UInt8.toNat_add]
      exact Nat.mod_eq_of_lt (show character.toNat + 32 < 256 by omega)
    rw [if_neg]
    intro again
    have still : (character + 32).toNat ≤ 90 := UInt8.le_iff_toNat_le.mp again.2
    omega
  · rfl

theorem lower_lower (name : Bytes) : lower (lower name) = lower name := by
  simp only [lower, List.map_map]
  exact List.map_congr_left fun character _ => toLower_toLower character

/-- A name and its key are the same in lower case. -/
theorem lower_keyOf (name : Bytes) : lower (keyOf name) = lower name := by
  unfold keyOf
  split
  · exact lower_lower name
  · rfl

/-- What a lookup finds was said by an entry of the same name in lower case. -/
theorem Holds.getHash {registry : NameRegistry} {entries : List Entry}
    (holds : Holds registry entries) {name : Bytes} {hash : UInt32}
    (found : registry.getHash name = some hash) :
    ∃ entry ∈ entries, lower entry.name = lower name ∧ entry.hash = hash := by
  rw [NameRegistry.getHash, Option.or_eq_some_iff] at found
  -- It is found under the name or under the name in lower case.
  rcases found with exact_name | ⟨-, lowered⟩
  · obtain ⟨entry, member, key, said⟩ := holds.hashed _ _ exact_name
    exact ⟨entry, member, by rw [← lower_keyOf, key], said⟩
  · obtain ⟨entry, member, key, said⟩ := holds.hashed _ _ lowered
    exact ⟨entry, member, by rw [← lower_keyOf, key, lower_lower], said⟩

/-- A name whose hash was given is found. -/
theorem Holds.getHash_given {registry : NameRegistry} {entries : List Entry}
    (holds : Holds registry entries) {entry : Entry} (member : entry ∈ entries)
    (given : entry.given) : (registry.getHash entry.name).isSome := by
  have filed := holds.filed entry member given
  rw [NameRegistry.getHash, Option.isSome_or]
  unfold keyOf at filed
  split at filed
  · rw [filed, Bool.or_true]
  · rw [filed, Bool.true_or]

/-- A name without a hash that was given has the hash of its text. -/
theorem hash_of_not_given {entry : Entry} {files : List (List Bytes)} (member : entry ∈ entries files)
    (given : ¬ entry.given) : entry.hash = fnvHash entry.name := by
  obtain ⟨line, -, rfl⟩ := List.mem_map.mp member
  unfold entryOf at given ⊢
  split
  · rename_i tab
    rw [if_pos tab] at given
    exact absurd rfl given
  · rfl

/-- What is trimmed does not start with a space. -/
theorem trim_head {text rest : Bytes} {first : UInt8} (trimmed : trim text = first :: rest) :
    isSpace first = false := by
  have before : trim text <+: text.dropWhile isSpace := List.rdropWhile_prefix _ _
  rw [trimmed] at before
  obtain ⟨more, whole⟩ := before
  -- The first character is the one at which the spaces in front ended.
  have some_text : text.dropWhile isSpace ≠ [] := by
    rw [← whole]
    exact List.cons_ne_nil _ _
  have solid := List.head_dropWhile_not isSpace some_text
  simpa only [← whole, List.cons_append, List.head_cons] using solid

/-- Something is left of a text that starts with no space. -/
theorem trim_ne_nil {first : UInt8} (solid : isSpace first = false) (rest : Bytes) :
    trim (first :: rest) ≠ [] := by
  intro nothing
  rw [trim, List.dropWhile_cons_of_neg (by simp [solid]), List.rdropWhile_eq_nil_iff] at nothing
  have space := nothing first List.mem_cons_self
  rw [solid] at space
  exact Bool.false_ne_true space

/-- No entry has an empty name. -/
theorem name_ne_nil {entry : Entry} {files : List (List Bytes)} (member : entry ∈ entries files) :
    entry.name ≠ [] := by
  obtain ⟨line, kept, rfl⟩ := List.mem_map.mp member
  obtain ⟨raw, -, left⟩ := List.mem_filterMap.mp kept
  unfold content at left
  dsimp only at left
  split at left
  · cases left
  · rename_i some_text
    have trimmed : trim (stripComment raw) = line := Option.some_inj.mp left
    rw [trimmed] at some_text
    obtain ⟨first, rest, rfl⟩ := List.exists_cons_of_ne_nil (not_or.mp some_text).1
    have solid := trim_head trimmed
    unfold entryOf
    split
    · -- The tab stands behind the first character, which is no space.
      have other : first ≠ 9 := by
        intro same
        rw [same] at solid
        exact absurd solid (by decide)
      have before : (first :: rest).takeWhile (· ≠ 9) = first :: rest.takeWhile (· ≠ 9) :=
        List.takeWhile_cons_of_pos (by simp [other])
      rw [before]
      exact trim_ne_nil solid _
    · exact List.cons_ne_nil _ _

end NameRegistry

/-- Whether a name starts as a number in one of the two hexadecimal notations does. -/
def Numbered (name : Bytes) : Prop :=
  name[0]? = some 35 ∨ name[0]? = some 48 ∧ (name[1]? = some 120 ∨ name[1]? = some 88)

instance (name : Bytes) : Decidable (Numbered name) := inferInstanceAs (Decidable (_ ∨ _ ∧ _))

namespace HashManager

open NameRegistry

/-- What a manager has that was loaded from the two registries' files. -/
def loaded (fileTexts projectTexts : List (List Bytes)) (updates : Bool) : HashManager :=
  ⟨load fileTexts, load projectTexts, updates⟩

/-- The entries of both registries. -/
def allEntries (fileTexts projectTexts : List (List Bytes)) : List Entry :=
  entries fileTexts ++ entries projectTexts

/-- The name of an entry has the hash of the entry. -/
theorem getFileHash_name {fileTexts projectTexts : List (List Bytes)} (updates : Bool)
    (agree : ∀ first ∈ allEntries fileTexts projectTexts,
      ∀ second ∈ allEntries fileTexts projectTexts,
        lower first.name = lower second.name → first.hash = second.hash)
    {entry : Entry} (member : entry ∈ allEntries fileTexts projectTexts)
    (plain : ¬ Numbered entry.name) :
    ((loaded fileTexts projectTexts updates).getFileHash entry.name).1 = entry.hash := by
  have files := holds_load fileTexts
  have projects := holds_load projectTexts
  have some_name : entry.name ≠ [] := by
    rcases List.mem_append.mp member with inFiles | inProjects
    · exact name_ne_nil inFiles
    · exact name_ne_nil inProjects
  have unmarked : ¬ entry.name[0]? = some 35 := fun marked => plain (.inl marked)
  have unprefixed : ¬ hexPrefixed entry.name = true := by
    intro prefixed
    simp only [hexPrefixed, Bool.and_eq_true, Bool.or_eq_true, beq_iff_eq] at prefixed
    exact plain (.inr ⟨prefixed.1.2, prefixed.2⟩)
  rw [getFileHash, if_neg some_name, if_neg unmarked, if_neg unprefixed]
  cases found : ((loaded fileTexts projectTexts updates).fileRegistry.getHash entry.name).or
      ((loaded fileTexts projectTexts updates).projectRegistry.getHash entry.name) with
  | some hash =>
    -- Whoever filed that hash has the same name in lower case, and so the same hash.
    rcases Option.or_eq_some_iff.mp found with inFiles | ⟨-, inProjects⟩
    · obtain ⟨other, listed, alike, same⟩ := files.getHash inFiles
      rw [← same]
      exact agree other (List.mem_append_left _ listed) entry member alike
    · obtain ⟨other, listed, alike, same⟩ := projects.getHash inProjects
      rw [← same]
      exact agree other (List.mem_append_right _ listed) entry member alike
  | none =>
    obtain ⟨noFile, noProject⟩ := Option.or_eq_none_iff.mp found
    -- A hash that was given would have been found.
    rcases List.mem_append.mp member with inFiles | inProjects
    · refine (hash_of_not_given inFiles fun given => ?_).symm
      have isSome := files.getHash_given inFiles given
      change (load fileTexts).getHash entry.name = none at noFile
      rw [noFile] at isSome
      cases isSome
    · refine (hash_of_not_given inProjects fun given => ?_).symm
      have isSome := projects.getHash_given inProjects given
      change (load projectTexts).getHash entry.name = none at noProject
      rw [noProject] at isSome
      cases isSome

/-- The hexadecimal name of a hash has that hash, whatever is registered. -/
theorem getFileHash_hexToStringUC (manager : HashManager) (hash : UInt32) :
    (manager.getFileHash (hexToStringUC hash)).1 = hash := by
  obtain ⟨first, -, second, -, rest, shape⟩ := upperHex_eight hash.toNat
  have spelled : hexToStringUC hash = 48 :: 120 :: upperHex 8 hash.toNat := rfl
  have some_name : hexToStringUC hash ≠ [] := List.cons_ne_nil _ _
  have unmarked : ¬ (hexToStringUC hash)[0]? = some 35 := by
    rw [spelled]
    simp
  have prefixed : hexPrefixed (hexToStringUC hash) = true := by
    rw [spelled, shape]
    simp [hexPrefixed]
  rw [getFileHash, if_neg some_name, if_neg unmarked, if_pos prefixed, spelled]
  exact congrArg Prod.fst (extractHex_upperHex hash)

/--
The hash of the name of a hash is that hash, registered or not.

It is enough that names which are the same in lower case have the same hash.
That is so where all names differ in lower case, and also where a line is read twice.
-/
theorem getFileHash_getFileName (fileTexts projectTexts : List (List Bytes)) (updates : Bool)
    (agree : ∀ first ∈ allEntries fileTexts projectTexts,
      ∀ second ∈ allEntries fileTexts projectTexts,
        lower first.name = lower second.name → first.hash = second.hash)
    (plain : ∀ entry ∈ allEntries fileTexts projectTexts, ¬ Numbered entry.name) (hash : UInt32) :
    ((loaded fileTexts projectTexts updates).getFileHash
      ((loaded fileTexts projectTexts updates).getFileName hash)).1 = hash := by
  have named : ∀ name, ((loaded fileTexts projectTexts updates).fileRegistry.getName hash).or
      ((loaded fileTexts projectTexts updates).projectRegistry.getName hash) = some name →
        ∃ entry ∈ allEntries fileTexts projectTexts, entry.name = name ∧ entry.hash = hash := by
    intro name found
    rcases Option.or_eq_some_iff.mp found with inFiles | ⟨-, inProjects⟩
    · obtain ⟨entry, listed, told⟩ := (holds_load fileTexts).named hash name inFiles
      exact ⟨entry, List.mem_append_left _ listed, told⟩
    · obtain ⟨entry, listed, told⟩ := (holds_load projectTexts).named hash name inProjects
      exact ⟨entry, List.mem_append_right _ listed, told⟩
  rw [getFileName]
  cases found : ((loaded fileTexts projectTexts updates).fileRegistry.getName hash).or
      ((loaded fileTexts projectTexts updates).projectRegistry.getName hash) with
  | none => exact getFileHash_hexToStringUC _ hash
  | some name =>
    obtain ⟨entry, member, rfl, rfl⟩ := named name found
    exact getFileHash_name updates agree member (plain entry member)

/-- A registered name, one with a tilde, and one without a hash are found, and the rest is hexadecimal. -/
theorem getFileHash_getFileName_two :
    ((loaded [[ascii "Verb~\t0x10", ascii "lair"]] [[ascii "Nest\t7"]] false).getFileHash
      ((loaded [[ascii "Verb~\t0x10", ascii "lair"]] [[ascii "Nest\t7"]] false).getFileName 16)).1 =
        16 :=
  getFileHash_getFileName [[ascii "Verb~\t0x10", ascii "lair"]] [[ascii "Nest\t7"]] false
    (by decide) (by decide) 16

end HashManager

end Recap.Game
