import Recap.SporeNet.CreatureTemplates

/-! What the templates of creatures hold once they are read, and which of them cannot be read. -/

namespace Recap.SporeNet

open Recap.Blaze Recap.Game Recap.Cutting
open Recap.Blaze.Json (cString cString_eq)

/-- A list of attempts comes to the results that each of them has. -/
theorem mapM_eq_some_iff {α β : Type} {attempt : α → Option β} {items : List α} {results : List β} :
    items.mapM attempt = some results ↔ items.map attempt = results.map some := by
  induction items generalizing results with
  | nil => cases results <;> simp
  | cons item rest ih =>
    rw [List.mapM_cons]
    simp only [bind, Option.bind_eq_some_iff, pure, Option.some.injEq]
    cases results with
    | nil => simp
    | cons first later => simp [← ih]

/-- A list of attempts fails with any of them. -/
theorem mapM_eq_none_iff {α β : Type} {attempt : α → Option β} {items : List α} :
    items.mapM attempt = none ↔ ∃ item ∈ items, attempt item = none := by
  induction items with
  | nil => simp
  | cons item rest ih =>
    rw [List.mapM_cons, List.exists_mem_cons_iff, ← ih]
    cases attempt item with
    | none => simp
    | some result => cases rest.mapM attempt <;> simp

/-- A second attempt that does not depend on the first one adds a condition to it. -/
theorem isSome_bind_iff {α β : Type} {first : Option α} {second : α → Option β} {later : Prop}
    (same : ∀ value, (second value).isSome ↔ later) :
    (first.bind second).isSome ↔ first ≠ none ∧ later := by
  cases first with
  | none => simp
  | some value => simp [same]

section Stats

/-- What comes behind the name of a stat are digits. -/
theorem not_mem_ofUint32 {value : UInt32} {character : UInt8}
    (other : ¬ (48 ≤ character.toNat ∧ character.toNat ≤ 57)) : character ∉ ofUint32 value :=
  fun member => other (digit_of_mem_toDecimal member)

/-- A text of stats is cut at the semicolons, and what is between two of them at the commas. -/
theorem statItems_eq (stats : Bytes) :
    statItems stats = some (((stats.splitOn 59).filter (· ≠ [])).map (List.splitOn 44)) := by
  have items : explodeString stats (ascii ";") = some (stats.splitOn 59) :=
    explodeString_singleton stats 59
  have fields : (fun item => explodeString item (ascii ",")) = fun item => pure (item.splitOn 44) :=
    funext fun item => explodeString_singleton item 44
  unfold statItems
  rw [items, Option.bind_some, fields, List.mapM_pure]
  rfl

/-- A stat needs three fields. -/
theorem ofData_eq_none_iff {statData : List Bytes} :
    Stats.ofData statData = none ↔ statData.length < 3 := by
  rcases statData with _ | ⟨first, _ | ⟨second, _ | ⟨third, rest⟩⟩⟩
  all_goals simp [Stats.ofData]

/-- The stats of a template are read past the end of an item that has too few fields. -/
theorem readStats_eq_none_iff {statsString : Bytes} :
    readStats statsString = none ↔
      ∃ item ∈ statsString.splitOn 59, item ≠ [] ∧ (item.splitOn 44).length < 3 := by
  unfold readStats
  rw [statItems_eq, Option.bind_some, mapM_eq_none_iff]
  simp only [List.mem_map, List.mem_filter, ofData_eq_none_iff, decide_eq_true_eq]
  constructor
  · intro ⟨_, ⟨item, ⟨member, something⟩, same⟩, short⟩
    exact ⟨item, member, something, same ▸ short⟩
  · intro ⟨item, member, something, short⟩
    exact ⟨_, ⟨item, ⟨member, something⟩, rfl⟩, short⟩

/-- Wherever a template's stats can be read, an update with the same text makes the same of it. -/
theorem updateStats_of_readStats {stats : Bytes} {mStats : List Stats}
    (read : readStats stats = some mStats) : updateStats stats = some mStats := by
  have long : ∀ item ∈ stats.splitOn 59, item ≠ [] → 3 ≤ (item.splitOn 44).length := by
    intro item member something
    by_contra short
    have missing := readStats_eq_none_iff.mpr ⟨item, member, something, by omega⟩
    rw [missing] at read
    cases read
  unfold readStats at read
  unfold updateStats
  rw [statItems_eq, Option.bind_some] at read ⊢
  -- With no item of fewer fields, the update leaves none out.
  rw [List.filter_eq_self.mpr, read]
  simp only [List.mem_map, List.mem_filter, decide_eq_true_eq]
  intro _ ⟨item, ⟨member, something⟩, same⟩
  exact same ▸ long item member something

/-- No text that is read makes a stat whose name has a comma, a semicolon or a NUL of the text. -/
theorem clear_of_readStats {statsString : Bytes} {mStats : List Stats}
    (read : readStats statsString = some mStats) {stat : Stats} (member : stat ∈ mStats) :
    44 ∉ stat.statName ∧ 59 ∉ stat.statName ∧ stat.statName ⊆ statsString := by
  unfold readStats at read
  rw [statItems_eq, Option.bind_some, mapM_eq_some_iff, List.map_map] at read
  -- The stat comes from one of the items, and its name is the first field of that.
  have made : some stat ∈ mStats.map some := List.mem_map_of_mem member
  rw [← read] at made
  obtain ⟨item, held, same⟩ := List.mem_map.mp made
  obtain ⟨inText, -⟩ := List.mem_filter.mp held
  obtain ⟨name, first, rest⟩ := Option.bind_eq_some_iff.mp same
  obtain ⟨_, -, last⟩ := Option.bind_eq_some_iff.mp rest
  obtain ⟨_, -, rfl⟩ := Option.map_eq_some_iff.mp last
  have field : name ∈ item.splitOn 44 := List.mem_of_getElem? first
  exact ⟨not_mem_of_mem_splitOn field,
    fun inside => not_mem_of_mem_splitOn inText (subset_of_mem_splitOn field inside),
    List.Subset.trans (subset_of_mem_splitOn field) (subset_of_mem_splitOn inText)⟩

variable {stat : Stats} {mStats : List Stats}

/-- A stat is written as its name and two numbers, with commas between. -/
theorem text_eq (stat : Stats) :
    stat.text = stat.statName ++ 44 :: (ofUint32 stat.maxValue ++ 44 :: ofUint32 stat.currentValue) := by
  have comma : ascii "," = [44] := rfl
  simp only [Stats.text, comma, List.append_assoc, List.cons_append, List.nil_append]

/-- A stat is written as three fields. -/
theorem splitOn_text (clear : 44 ∉ stat.statName) :
    stat.text.splitOn 44 = [stat.statName, ofUint32 stat.maxValue, ofUint32 stat.currentValue] := by
  rw [text_eq, List.splitOn_append_cons_self_of_not_mem clear,
    List.splitOn_append_cons_self_of_not_mem (not_mem_ofUint32 (by decide)),
    List.splitOn_eq_singleton (not_mem_ofUint32 (by decide))]

/-- A stat whose name has no semicolon is written as one item. -/
theorem not_mem_text {character : UInt8} (clear : character ∉ stat.statName)
    (other : ¬ (48 ≤ character.toNat ∧ character.toNat ≤ 57)) (noComma : character ≠ 44) :
    character ∉ stat.text := by
  rw [text_eq]
  simp only [List.mem_append, List.mem_cons, not_or]
  exact ⟨clear, noComma, not_mem_ofUint32 other, noComma, not_mem_ofUint32 other⟩

/-- The items of a text of stats are the stats that it was written of. -/
theorem splitOn_writeStats (clear : ∀ stat ∈ mStats, 59 ∉ stat.statName) :
    (writeStats mStats).splitOn 59 = mStats.map Stats.text ++ [[]] := by
  induction mStats with
  | nil => rfl
  | cons stat rest ih =>
    obtain ⟨here, others⟩ := List.forall_mem_cons.mp clear
    have written : writeStats (stat :: rest) = stat.text ++ 59 :: writeStats rest :=
      List.append_assoc _ [59] _
    rw [written, List.splitOn_append_cons_self_of_not_mem (not_mem_text here (by decide) (by decide)),
      ih others]
    rfl

/-- Stats are read as they were written, as long as their names have no comma and no semicolon. -/
theorem readStats_writeStats
    (clear : ∀ stat ∈ mStats, 44 ∉ stat.statName ∧ 59 ∉ stat.statName) :
    readStats (writeStats mStats) = some mStats := by
  unfold readStats
  rw [statItems_eq, Option.bind_some, mapM_eq_some_iff,
    splitOn_writeStats fun stat member => (clear stat member).2]
  -- The text ends with a semicolon, and the empty item behind it is left out.
  have something : ∀ text ∈ mStats.map Stats.text, decide (text ≠ []) = true := by
    intro text member
    obtain ⟨stat, -, rfl⟩ := List.mem_map.mp member
    simp [text_eq]
  rw [List.filter_append, List.filter_eq_self.mpr something]
  simp only [ne_eq, not_true_eq_false, decide_false, Bool.false_eq_true, not_false_eq_true,
    List.filter_cons_of_neg, List.filter_nil, List.append_nil, List.map_map]
  apply List.map_congr_left
  intro stat member
  simp [splitOn_text (clear stat member).1, Stats.ofData]

/-- The characters of a text of stats are those of the names, and some that are not NUL. -/
theorem plain_writeStats (clear : ∀ stat ∈ mStats, 0 ∉ stat.statName) :
    (0 : UInt8) ∉ writeStats mStats := by
  unfold writeStats
  simp only [List.mem_flatMap, List.mem_append, not_exists, not_and, not_or]
  intro stat member
  exact ⟨not_mem_text (clear stat member) (by decide) (by decide), by decide⟩

end Stats

section Texts

variable {floating : Floating}

/-- A type of creatures is read as it was written. -/
@[simp] theorem CreatureType.fromString_toText (type : CreatureType) :
    fromString type.toText = type := by
  cases type <;> decide

/-- A class of creatures is read as it was written. -/
@[simp] theorem CreatureClass.fromString_toText (type : CreatureClass) :
    fromString type.toText = type := by
  cases type <;> decide

/-- The parts that are read from the name of a class, which are unknown for most of them. -/
def CreatureClass.parts : CreatureClass → CreatureParts
  | all => .all
  | _ => .unknown

@[simp] theorem CreatureParts.fromString_toText (type : CreatureClass) :
    fromString type.toText = type.parts := by
  cases type <;> decide

/-- A text is kept up to its first NUL. -/
theorem cString_eq_self_iff {text : Bytes} : cString text = text ↔ 0 ∉ text := by
  refine ⟨fun same inside => ?_, cString_eq⟩
  rw [← same] at inside
  simpa using List.mem_takeWhile_imp inside

/-- A text of less than 4 GiB is put into a document whole. -/
theorem JsonValue.ofText_eq {text : Bytes} (short : text.length < 2 ^ 32) :
    (ofText text : JsonValue floating) = .string text := by
  rw [ofText, Nat.mod_eq_of_lt short, List.take_length]

end Texts

namespace TemplateSheet

open JsonMembers

variable {floating : Floating} {sheet : TemplateSheet floating}

/-- The texts of a template that go into a document. -/
def texts (sheet : TemplateSheet floating) : List Bytes :=
  [sheet.mNameLocaleId, sheet.mTextLocaleId, sheet.mName, writeStats sheet.mStats]

/-- What a template has to be like to be read again as it was written. -/
structure Written (sheet : TemplateSheet floating) : Prop where
  /-- No text ends early. -/
  plain : ∀ text ∈ [sheet.mNameLocaleId, sheet.mTextLocaleId, sheet.mName], (0 : UInt8) ∉ text
  /-- The names of the stats have nothing that ends a name, an item or the text. -/
  clear : ∀ stat ∈ sheet.mStats, 44 ∉ stat.statName ∧ 59 ∉ stat.statName ∧ 0 ∉ stat.statName
  /-- The parts are no more than the class says. -/
  parts : sheet.mEquipableParts = sheet.mClass.parts

/-- An id is read as it was written. -/
theorem readAbilitySlot_ofUint {members : JsonMembers floating} {key : String} {id : UInt32}
    (found : members.lookup key = some (.ofUint id)) : readAbilitySlot key (.object members) = id := by
  have small := id.toNat_lt
  simp only [readAbilitySlot, found, JsonValue.ofUint]
  apply UInt32.toNat_inj.mp
  simp

/-- A name that is not there names no id. -/
theorem readAbilitySlot_missing {members : JsonMembers floating} {key : String}
    (missing : members.lookup key = none) : readAbilitySlot key (.object members) = 0 := by
  simp only [readAbilitySlot, missing]

/-- The abilities are read as they were written, also those that are zero. -/
theorem readAbility_members (sheet : TemplateSheet floating) :
    readAbility sheet.members = sheet.mAbility := by
  funext slot
  -- The first name of a slot is the one it is written under, and none of its other names is used.
  have first : ∃ key others, abilityKeys slot = key :: others ∧
      sheet.members.lookup key = some (.ofUint (sheet.mAbility slot)) ∧
      ∀ other ∈ others, sheet.members.lookup other = none := by
    fin_cases slot
    all_goals exact ⟨_, _, rfl, rfl, by simp [members, List.lookup]⟩
  obtain ⟨key, others, names, found, unused⟩ := first
  have rest : readAbilitySlotManyKeys (.object sheet.members) others = 0 := by
    clear names
    induction others with
    | nil => rfl
    | cons other more ih =>
      obtain ⟨here, later⟩ := List.forall_mem_cons.mp unused
      rw [readAbilitySlotManyKeys, readAbilitySlot_missing here]
      exact ih later
  have inside : sheet.members.lookup "statsTemplateAbility" = none := by simp [members, List.lookup]
  unfold readAbility
  rw [names, readAbilitySlotManyKeys, readAbilitySlot_ofUint found, rest, inside]
  by_cases zero : sheet.mAbility slot = 0
  · simp [zero]
  · simp [zero]

/-- What is read of a written template. -/
theorem readJson_members (short : ∀ text ∈ sheet.texts, text.length < 2 ^ 32) :
    readJson sheet.writeJson =
      (readStats (cString (writeStats sheet.mStats))).map fun mStats =>
        { sheet with
          mNameLocaleId := cString sheet.mNameLocaleId
          mTextLocaleId := cString sheet.mTextLocaleId
          mName := cString sheet.mName
          mEquipableParts := sheet.mClass.parts
          mStats } := by
  have noun : getUint sheet.members "id" = some sheet.mNoun := by
    have small := sheet.mNoun.toNat_lt
    simp [getUint, members, JsonValue.ofUint]
    omega
  have number : ∀ (label : String) (value : floating.Double),
      sheet.members.lookup label = some (.real value) → getDouble sheet.members label = some value := by
    intro label value found
    rw [getDouble, found]
  have string : ∀ (label : String) (text : Bytes), text.length < 2 ^ 32 →
      sheet.members.lookup label = some (.ofText text) →
      getString sheet.members label = some (cString text) := by
    intro label text small found
    rw [getString, found, JsonValue.ofText_eq small]
  have type : sheet.mType.toText.length < 2 ^ 32 ∧ cString sheet.mType.toText = sheet.mType.toText := by
    cases sheet.mType <;> decide
  have classType : sheet.mClass.toText.length < 2 ^ 32 ∧
      cString sheet.mClass.toText = sheet.mClass.toText := by
    cases sheet.mClass <;> decide
  have text : ∀ text ∈ sheet.texts, text.length < 2 ^ 32 := short
  simp only [texts, List.forall_mem_cons] at text
  obtain ⟨nameLocale, textLocale, name, stats, -⟩ := text
  unfold writeJson readJson
  dsimp only
  rw [noun, string "nameLocaleId" _ nameLocale rfl, string "descLocaleId" _ textLocale rfl,
    string "name" _ name rfl, string "elementType" _ type.1 rfl,
    number "weaponMinDamage" _ rfl, number "weaponMaxDamage" _ rfl, number "gearScore" _ rfl,
    string "classType" _ classType.1 rfl, string "statsTemplate" _ stats rfl, type.2, classType.2,
    readAbility_members]
  simp only [bind, Option.bind_some, CreatureType.fromString_toText, CreatureClass.fromString_toText,
    CreatureParts.fromString_toText, floating.narrow_widen]
  cases readStats (cString (writeStats sheet.mStats)) <;> rfl

/--
A template that is written as JSON is read as it was under these conditions only.

The parts are not written; a stat is lost with the rest of the text if its name ends the text.
-/
theorem readJson_writeJson_iff (short : ∀ text ∈ sheet.texts, text.length < 2 ^ 32) :
    readJson sheet.writeJson = some sheet ↔ sheet.Written := by
  rw [readJson_members short, Option.map_eq_some_iff]
  constructor
  · intro ⟨mStats, read, same⟩
    have nameLocale := congrArg mNameLocaleId same
    have textLocale := congrArg mTextLocaleId same
    have name := congrArg (fun read => read.mName) same
    have parts := congrArg mEquipableParts same
    have stats : mStats = sheet.mStats := congrArg (fun read => read.mStats) same
    refine ⟨?_, ?_, parts.symm⟩
    · simp only [List.forall_mem_cons]
      exact ⟨cString_eq_self_iff.mp nameLocale, cString_eq_self_iff.mp textLocale,
        cString_eq_self_iff.mp name, List.forall_mem_nil _⟩
    · -- A name that was read has no such characters, and it is the name that was written.
      intro stat member
      obtain ⟨noComma, noSemicolon, inText⟩ := clear_of_readStats read (stats ▸ member)
      exact ⟨noComma, noSemicolon, fun inside => by simpa using List.mem_takeWhile_imp (inText inside)⟩
  · intro written
    have whole : cString (writeStats sheet.mStats) = writeStats sheet.mStats :=
      cString_eq (plain_writeStats fun stat member => (written.clear stat member).2.2)
    refine ⟨sheet.mStats, ?_, ?_⟩
    · rw [whole]
      exact readStats_writeStats fun stat member =>
        ⟨(written.clear stat member).1, (written.clear stat member).2.1⟩
    · have plain := written.plain
      simp only [List.forall_mem_cons] at plain
      rw [cString_eq plain.1, cString_eq plain.2.1, cString_eq plain.2.2.1, ← written.parts]

/-- Whole numbers, in the place of both floating types. -/
def wholeNumbers : Floating := ⟨Int, Int, id, id, id, fun _ => rfl⟩

/-- A template of the game, with two stats. -/
def blitzAlpha : TemplateSheet wholeNumbers :=
  { mName := ascii "Blitz Alpha", mNoun := 1667741389, mNameLocaleId := ascii "0x0ababafd"
    mTextLocaleId := ascii "0x0acaf252", mType := .plasma, mClass := .ravager
    mEquipableParts := .unknown, mAbility := fun slot => if slot.val = 3 then 0 else 868969257
    mStats := [⟨ascii "STR", 14, 0⟩, ⟨ascii "HLTH", 100, 70⟩] }

theorem readJson_writeJson_iff_blitzAlpha :
    (∀ text ∈ blitzAlpha.texts, text.length < 2 ^ 32) ∧
      (readJson blitzAlpha.writeJson = some blitzAlpha ↔ blitzAlpha.Written) ∧
      blitzAlpha.Written := by
  have short : ∀ text ∈ blitzAlpha.texts, text.length < 2 ^ 32 := by decide
  exact ⟨short, readJson_writeJson_iff short, ⟨by decide, by decide, rfl⟩⟩

section Loading

variable {mTemplateCreatures : List (TemplateSheet floating)}

/-- What a template of the file has to be like to be read at all. -/
def Readable : JsonValue floating → Prop
  | .object object =>
    getUint object "id" ≠ none ∧
      (∀ label ∈ ["nameLocaleId", "descLocaleId", "name", "elementType", "classType"],
        getString object label ≠ none) ∧
      (∀ label ∈ ["weaponMinDamage", "weaponMaxDamage", "gearScore"], getDouble object label ≠ none) ∧
      ∃ stats, getString object "statsTemplate" = some stats ∧
        ∀ item ∈ stats.splitOn 59, item ≠ [] → 3 ≤ (item.splitOn 44).length
  | _ => True

/-- A template is read unless a member is of another kind, or an item of the stats is too short. -/
theorem readJson_isSome_iff (value : JsonValue floating) :
    (readJson value).isSome ↔ Readable value := by
  cases value with
  | object object =>
    have stats : ∀ text, (readStats text).isSome ↔
        ∀ item ∈ text.splitOn 59, item ≠ [] → 3 ≤ (item.splitOn 44).length := by
      intro text
      rw [Option.isSome_iff_ne_none, ne_eq, readStats_eq_none_iff]
      push Not
      rfl
    -- The stats come last, and their text decides whether they are read.
    have last : ∀ make : List Stats → TemplateSheet floating,
        ((getString object "statsTemplate").bind fun text =>
          (readStats text).bind fun mStats => some (make mStats)).isSome ↔
        ∃ text, getString object "statsTemplate" = some text ∧
          ∀ item ∈ text.splitOn 59, item ≠ [] → 3 ≤ (item.splitOn 44).length := by
      intro make
      simp only [← stats]
      cases getString object "statsTemplate" with
      | none => simp
      | some text => cases read : readStats text <;> simp [read]
    -- Each member before them is there and of its kind, or it ends the reading.
    have chain : (readJson (.object object)).isSome ↔ _ :=
      isSome_bind_iff fun _ => isSome_bind_iff fun _ => isSome_bind_iff fun _ =>
      isSome_bind_iff fun _ => isSome_bind_iff fun _ => isSome_bind_iff fun _ =>
      isSome_bind_iff fun _ => isSome_bind_iff fun _ => isSome_bind_iff fun _ =>
        last _
    rw [chain]
    unfold Readable
    simp only [List.forall_mem_cons, List.not_mem_nil, false_implies, implies_true, and_true]
    tauto
  | _ => simp [readJson, Readable]

/-- The templates are added one by one, once all of them are read. -/
theorem load_eq (templatesList : List (JsonValue floating)) :
    load templatesList = (templatesList.mapM readJson).map (List.foldl tryEmplace []) := by
  -- The induction is along the file, for any templates that are there before.
  suffices general : ∀ held : List (TemplateSheet floating),
      templatesList.foldlM (fun mTemplateCreatures templateNode =>
        (readJson templateNode).map (tryEmplace mTemplateCreatures)) held =
      (templatesList.mapM readJson).map (List.foldl tryEmplace held) from general []
  intro held
  induction templatesList generalizing held with
  | nil => rfl
  | cons first rest ih =>
    rw [List.foldlM_cons, List.mapM_cons]
    cases readJson first with
    | none => rfl
    | some sheet =>
      have later := ih (tryEmplace held sheet)
      simp only [Option.map_some, bind, Option.bind_some, later]
      cases rest.mapM readJson <;> rfl

/-- The first of the templates of a name. -/
def named (name : Bytes) (sheets : List (TemplateSheet floating)) : Option (TemplateSheet floating) :=
  sheets.find? fun sheet => sheet.mName = name

/-- A template is added unless there is one of its name. -/
theorem named_tryEmplace (name : Bytes) (sheet : TemplateSheet floating) :
    named name (tryEmplace mTemplateCreatures sheet) = named name (mTemplateCreatures ++ [sheet]) := by
  unfold tryEmplace named
  split
  · rename_i same
    obtain ⟨held, member, equal⟩ := same
    rw [List.find?_append]
    by_cases own : sheet.mName = name
    · have found : (mTemplateCreatures.find? fun sheet => sheet.mName = name).isSome :=
        List.find?_isSome.mpr ⟨held, member, by simp [equal, own]⟩
      rw [Option.or_of_isSome found]
    · simp [own]
  · rfl

/-- After any number of additions, a name belongs to the first template that has it. -/
theorem named_foldl (name : Bytes) (sheets : List (TemplateSheet floating)) :
    named name (sheets.foldl tryEmplace mTemplateCreatures) =
      named name (mTemplateCreatures ++ sheets) := by
  induction sheets generalizing mTemplateCreatures with
  | nil => simp
  | cons first rest ih =>
    have added := @named_tryEmplace floating mTemplateCreatures name first
    rw [List.foldl_cons, ih]
    unfold named at added ⊢
    rw [List.find?_append, added, ← List.find?_append, List.append_assoc]
    rfl

/-- No addition brings a name twice. -/
theorem nodup_foldl {sheets : List (TemplateSheet floating)}
    (distinct : (mTemplateCreatures.map fun sheet => sheet.mName).Nodup) :
    ((sheets.foldl tryEmplace mTemplateCreatures).map fun sheet => sheet.mName).Nodup := by
  induction sheets generalizing mTemplateCreatures with
  | nil => exact distinct
  | cons first rest ih =>
    refine ih ?_
    unfold tryEmplace
    split
    · exact distinct
    · rename_i fresh
      rw [List.map_append, List.nodup_append]
      refine ⟨distinct, List.nodup_singleton _, ?_⟩
      intro name held other here
      obtain ⟨sheet, member, rfl⟩ := List.mem_map.mp held
      rw [List.map_singleton, List.mem_singleton] at here
      exact fun equal => fresh ⟨sheet, member, equal.trans here⟩

/-- The templates that an account's creatures are made of, as the file of templates leaves them. -/
def templatesOf (templatesList : List (JsonValue floating)) : Templates where
  list := ((templatesList.filterMap readJson).foldl tryEmplace []).map toTemplateCreature
  names := by
    rw [List.map_map]
    exact nodup_foldl List.nodup_nil

/--
The file of templates goes wrong by a template that cannot be read, and by nothing else.

Otherwise a name finds the first template that has it in the file, and only that one.
-/
theorem load_serves (templatesList : List (JsonValue floating)) :
    (load templatesList = none ↔ ∃ templateNode ∈ templatesList, ¬ Readable templateNode) ∧
      ∀ mTemplateCreatures, load templatesList = some mTemplateCreatures →
        mTemplateCreatures.map toTemplateCreature = (templatesOf templatesList).list ∧
        ∀ name, named name mTemplateCreatures = named name (templatesList.filterMap readJson) := by
  rw [load_eq]
  constructor
  · rw [Option.map_eq_none_iff, mapM_eq_none_iff]
    simp only [← readJson_isSome_iff, Option.not_isSome_iff_eq_none]
  · intro mTemplateCreatures loaded
    obtain ⟨sheets, read, rfl⟩ := Option.map_eq_some_iff.mp loaded
    -- As every template was read, none of the file is left out.
    have all : templatesList.filterMap readJson = sheets := by
      have outcomes := congrArg (List.filterMap id) (mapM_eq_some_iff.mp read)
      simpa [List.filterMap_map] using outcomes
    refine ⟨by simp only [templatesOf, all], ?_⟩
    intro name
    rw [named_foldl, List.nil_append, all]

end Loading

end TemplateSheet

end Recap.SporeNet
