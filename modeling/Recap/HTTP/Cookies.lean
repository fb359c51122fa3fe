import Recap.Core.Strings
import Recap.Lib.OrderedMap

/-! The cookies of a request, and which of them are found again by their names. -/

namespace Recap.HTTP

/-- One piece of the header, which is a cookie if it has a name and a value. -/
def addCookie (data : TextMap) (cookie : Bytes) : Option TextMap := do
  let cookieData ← explodeString cookie [61] 1
  match cookieData with
  | [name, value] => some (data.insertIfNew name value)
  | _ => some data

/-- `parse_cookies` -/
def parseCookies (cookies : Bytes) : Option TextMap :=
  if cookies = [] then some ∅ else do
    let cookieList ← explodeString (59 :: cookies) [59]
    cookieList.foldlM addCookie ∅

/-- A text without semicolons, equals signs and spaces. -/
def Token (text : Bytes) : Prop := 59 ∉ text ∧ 61 ∉ text ∧ 32 ∉ text

/-- Cookies of different names, as a client may send them. -/
structure Cookies where
  list : List (Bytes × Bytes)
  distinct : (list.map Prod.fst).Nodup
  tokens : ∀ cookie ∈ list, Token cookie.1 ∧ Token cookie.2

namespace Cookies

/-- A cookie as it stands in a header. -/
def pair (cookie : Bytes × Bytes) : Bytes := cookie.1 ++ 61 :: cookie.2

/-- The header that a client sends, with a semicolon and a space between two cookies. -/
def header (cookies : Cookies) : Bytes := [59, 32].intercalate (cookies.list.map pair)

/-- The names under which cookies are kept: all but the first one keep the space. -/
def stored : List (Bytes × Bytes) → List (Bytes × Bytes)
  | [] => []
  | first :: rest => first :: rest.map fun cookie => (32 :: cookie.1, cookie.2)

/-- Each cookie is found by its name. -/
def FindsAll (cookies : Cookies) : Prop :=
  ∃ data, parseCookies cookies.header = some data ∧
    ∀ cookie ∈ cookies.list, data[cookie.1]? = some cookie.2

/-- A name without an equals sign ends at the first one. -/
theorem addCookie_pair (data : TextMap) {cookie : Bytes × Bytes} (clear : 61 ∉ cookie.1) :
    addCookie data (pair cookie) = some (data.insertIfNew cookie.1 cookie.2) := by
  have something : ([61] : Bytes) ≠ [] := List.cons_ne_nil _ _
  have found : Cutting.cut [61] (pair cookie) = some (cookie.1, cookie.2) :=
    Cutting.cut_singleton clear cookie.2
  unfold addCookie explodeString
  rw [StringView.explode_cut something (by decide) found,
    StringView.explode_whole something (.inl (by decide))]
  rfl

/-- In front of the first semicolon there is nothing. -/
theorem addCookie_nil (data : TextMap) : addCookie data [] = some data := by
  unfold addCookie explodeString
  rw [StringView.explode_whole (List.cons_ne_nil _ _) (.inr (by decide))]
  rfl

/-- Cookies are kept one by one, and the first one of a name stays. -/
theorem foldlM_addCookie (list : List (Bytes × Bytes)) (clear : ∀ cookie ∈ list, 61 ∉ cookie.1)
    (data : TextMap) :
    (list.map pair).foldlM addCookie data =
      some (list.foldl (fun data cookie => data.insertIfNew cookie.1 cookie.2) data) := by
  induction list generalizing data with
  | nil => rfl
  | cons cookie rest ih =>
    obtain ⟨here, others⟩ := List.forall_mem_cons.mp clear
    rw [List.map_cons, List.foldlM_cons, addCookie_pair data here]
    exact ih others _

/-- The space between two cookies goes to the second one. -/
theorem header_eq (cookies : Cookies) :
    cookies.header = [59].intercalate ((stored cookies.list).map pair) := by
  unfold header
  cases cookies.list with
  | nil => rfl
  | cons first rest =>
    rw [stored, List.map_cons, List.map_cons, List.map_map, Cutting.intercalate_cons_eq,
      List.map_map]
    rfl

/-- A cookie is kept under its own name, or under that with a space in front. -/
theorem mem_stored {list : List (Bytes × Bytes)} {cookie : Bytes × Bytes}
    (member : cookie ∈ stored list) :
    ∃ original ∈ list, cookie = original ∨ cookie = (32 :: original.1, original.2) := by
  cases list with
  | nil => cases member
  | cons first rest =>
    rcases List.mem_cons.mp member with rfl | later
    · exact ⟨cookie, List.mem_cons_self, .inl rfl⟩
    · obtain ⟨original, inRest, rfl⟩ := List.mem_map.mp later
      exact ⟨original, List.mem_cons_of_mem _ inRest, .inr rfl⟩

/-- No name that is kept has an equals sign, and no cookie a semicolon. -/
theorem clear_of_mem_stored (cookies : Cookies) {cookie : Bytes × Bytes}
    (member : cookie ∈ stored cookies.list) : 61 ∉ cookie.1 ∧ 59 ∉ pair cookie := by
  -- The space in front changes neither of the two.
  obtain ⟨original, inList, kept⟩ := mem_stored member
  obtain ⟨name, value⟩ := cookies.tokens original inList
  have clear : 59 ∉ pair original := by
    unfold pair
    rw [List.mem_append, List.mem_cons]
    exact fun inside => inside.elim name.1 fun rest => rest.elim (by decide) value.1
  rcases kept with rfl | rfl
  · exact ⟨name.2.1, clear⟩
  · refine ⟨?_, ?_⟩
    · rw [List.mem_cons]
      exact fun inside => inside.elim (by decide) name.2.1
    · change 59 ∉ 32 :: pair original
      rw [List.mem_cons]
      exact fun inside => inside.elim (by decide) clear

/-- The header is taken apart into the cookies, of which all but the first have a space in front. -/
theorem parseCookies_header (cookies : Cookies) :
    parseCookies cookies.header =
      some ((stored cookies.list).foldl (fun data cookie => data.insertIfNew cookie.1 cookie.2)
        ∅) := by
  unfold parseCookies
  by_cases empty : stored cookies.list = []
  · have nothing : cookies.header = [] := by
      rw [header_eq, empty]
      rfl
    rw [if_pos nothing, empty]
    rfl
  · have pieces : cookies.header.splitOn 59 = (stored cookies.list).map pair := by
      rw [header_eq]
      refine List.splitOn_intercalate 59 ?_ (mt List.map_eq_nil_iff.mp empty)
      exact List.forall_mem_map.mpr fun cookie member => (cookies.clear_of_mem_stored member).2
    -- A header of cookies has at least an equals sign.
    have something : cookies.header ≠ [] := by
      intro nothing
      obtain ⟨cookie, rest, same⟩ := List.exists_cons_of_ne_nil empty
      rw [nothing, same, List.map_cons, List.splitOn_nil] at pieces
      exact List.append_ne_nil_of_right_ne_nil _ (List.cons_ne_nil _ _) (List.cons.inj pieces).1.symm
    have split : (59 :: cookies.header).splitOn 59 = [] :: cookies.header.splitOn 59 :=
      List.splitOn_append_cons_self [] cookies.header
    rw [if_neg something, explodeString_singleton, split, pieces]
    change List.foldlM addCookie ∅ ([] :: (stored cookies.list).map pair) = _
    rw [List.foldlM_cons, addCookie_nil]
    exact foldlM_addCookie _ (fun cookie member => (cookies.clear_of_mem_stored member).1) ∅

/-- What is found under a name is the first cookie that is kept under it. -/
theorem findsAll_iff_lookup (cookies : Cookies) :
    cookies.FindsAll ↔
      ∀ cookie ∈ cookies.list, (stored cookies.list).lookup cookie.1 = some cookie.2 := by
  unfold FindsAll
  rw [parseCookies_header]
  simp only [Option.some.injEq, exists_eq_left', OrderedMap.lookup_insertAllNew]
  simp

/-- All cookies are found exactly if there is no second one. -/
theorem findsAll_iff (cookies : Cookies) : cookies.FindsAll ↔ cookies.list.length ≤ 1 := by
  rw [findsAll_iff_lookup]
  have distinct := cookies.distinct
  have tokens := cookies.tokens
  revert distinct tokens
  cases cookies.list with
  | nil => simp
  | cons first rest =>
    cases rest with
    | nil =>
      intro _ _
      rw [List.forall_mem_singleton, stored, List.map_nil, List.lookup_cons, beq_self_eq_true]
      exact iff_of_true rfl (Nat.le_refl _)
    | cons second others =>
      intro distinct tokens
      refine iff_of_false (fun finds => ?_) (by simp)
      -- The second cookie is kept under a name with a space, which is nobody's name.
      have found := finds second (List.mem_cons_of_mem _ List.mem_cons_self)
      have missing : (stored (first :: second :: others)).lookup second.1 = none := by
        rw [List.lookup_eq_none_iff]
        intro cookie member
        rw [bne_iff_ne]
        rcases List.mem_cons.mp member with rfl | later
        · have apart := (List.nodup_cons.mp distinct).1
          exact fun same => apart (same ▸ List.mem_cons_self)
        · obtain ⟨original, -, rfl⟩ := List.mem_map.mp later
          intro same
          have spaceless := (tokens second (by simp)).1.2.2
          exact spaceless (same ▸ List.mem_cons_self)
      rw [missing] at found
      cases found

/-- The second of two cookies is kept under a name that starts with a space. -/
theorem not_findsAll : ¬ ∀ cookies : Cookies, cookies.FindsAll := by
  intro always
  have finds := (findsAll_iff_lookup _).mp
    (always ⟨[([97], [49]), ([98], [50])], by decide, by unfold Token; decide⟩)
  exact absurd (finds ([98], [50]) (by decide)) (by decide)

end Cookies

end Recap.HTTP
