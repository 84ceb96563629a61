import ScimDirectory.Proofs.Json.FlatObject
import ScimDirectory.Proofs.Filter.Selection

/-!
# Strings stored under a key

The assertions on a key are fixed texts: the key in quotes, a colon, an opening quote, and for an
equality the literal and a closing quote. They do not depend on the data type that is declared for
the part, and the literal is put in as it is. So they find what is stored in just that form. A
presence finds every string, whatever characters are in it and whatever other members the object
has, nested ones included. An equality finds the strings whose text in the object is the literal in
quotes, which for a literal of verbatim characters is that string (`text_of_isVerbatim`).

Other values are not written in that form: a truth value or a number has no quotes, a quote inside a
string is escaped, and so is a backslash in a key. The assertions pass over them.

A filter selects entries only as far as its text is a filter, and on the names that are read in it.
So the key may not hold a parenthesis, nor the carrier any character of the grammar
(`selects_item_iff`). A key may hold a star, which is then read as a wildcard. That does no harm
here, since a star also stands for itself.

## Main results

* `matches_stored_string`, `matches_stored_text`: the two assertions match every object with such a
  member.
* `selects_item_iff`, `selects_present_item_iff`: the entries that one item selects.
* `Registry.finds_stored_string`: **presence and equality on a key find every string stored there
  verbatim**.
* `Registry.misses_stored_value`: values that they do not find.
-/

namespace ScimDirectory

variable {key : String} {members : List (String × Json)}

/-- The quoted key with an assertion on the beginning of its value behind it, between stars, matches
every object with such a member. -/
theorem matches_at_key (hkey : IsVerbatim key) {value : Json} (hmem : (key, value) ∈ members)
    {front : List Char} (hfront : unescape front <+: value.chars) :
    Assertion.Matches (Assertion.pieces ('*' :: Json.atKey key.toList front ++ ['*']))
      (Json.object members).text.toList := by
  have hplain : '\\' ∉ '"' :: key.toList ++ ['"', ':'] := by
    simpa using (Json.isRaw_of_isVerbatim hkey).2
  have hsplit : ∀ back, Json.atKey key.toList back = '"' :: key.toList ++ ['"', ':'] ++ back := by
    intro back
    simp [Json.atKey]
  have hdecoded : unescape (Json.atKey key.toList front) =
      Json.atKey key.toList (unescape front) := by
    rw [hsplit, hsplit, unescape_append_of_not_mem hplain]
  refine Assertion.matches_of_infix ?_
  rw [hdecoded, Json.text, String.toList_ofList]
  exact Json.key_infix_of_mem hkey hmem hfront

/-- The assertion of a presence matches every object that has some string under the key. -/
theorem matches_stored_string (hkey : IsVerbatim key) {s : String}
    (hmem : (key, .string s) ∈ members) :
    Assertion.Matches (Assertion.pieces ("*\"" ++ key ++ "\":\"*").toList)
      (Json.object members).text.toList := by
  have hfront : unescape ['"'] <+: (Json.string s).chars := by
    rw [unescape_of_not_mem (by decide)]
    simp [Json.chars, quote]
  simpa [Json.atKey] using matches_at_key hkey hmem hfront

/-- The assertion of an equality matches every object that has under the key a string whose text is
the literal in quotes. -/
theorem matches_stored_text (hkey : IsVerbatim key) {s literal : String}
    (hmem : (key, .string s) ∈ members)
    (htext : (Json.string s).text = "\"" ++ literal ++ "\"") :
    Assertion.Matches
      (Assertion.pieces ("*\"" ++ key ++ "\":\"" ++ escape literal ++ "\"*").toList)
      (Json.object members).text.toList := by
  have hchars : (Json.string s).chars = '"' :: (literal.toList ++ ['"']) := by
    simpa [Json.text] using congrArg String.toList htext
  have hfront : unescape ('"' :: (literal.toList.flatMap escapeChar ++ ['"'])) <+:
      (Json.string s).chars := by
    rw [unescape_cons (by decide), unescape_flatMap_escapeChar_append,
      unescape_of_not_mem (by decide), hchars]
  simpa [Json.atKey, toList_escape] using matches_at_key hkey hmem hfront

/-- A string of verbatim characters is written as it is, in quotes. -/
theorem text_of_isVerbatim {s : String} (h : IsVerbatim s) :
    (Json.string s).text = "\"" ++ s ++ "\"" := by
  rw [← String.toList_inj, Json.text, String.toList_ofList]
  simp [Json.chars, quote, Json.flatMap_quoteChar_of_isVerbatim h]

/-! ### Items on a carrier -/

section Items

variable {name assertion : String} {order : Collation} {entry : Entry}

/-- **What an equality item says**: its assertion matches some value. That is so of a lone star too,
which is read as a presence, since a star matches every value. -/
theorem DirectoryFilter.holds_item_iff :
    (item name .equal assertion).reading.Holds order entry ↔
      ∃ value ∈ entry name,
        Assertion.Matches (Assertion.pieces assertion.toList) value.toList := by
  rw [reading, FilterReading.item]
  by_cases hstar : assertion.toList = ['*']
  · rw [if_pos hstar, hstar, String.ofList_toList, Operator.holds_present_iff]
    refine exists_congr fun value => (and_iff_left ?_).symm
    exact (Assertion.matches_prefix_iff [] value.toList).mpr List.nil_prefix
  · rw [if_neg hstar]
    simp [FilterReading.Holds, Function.comp_def]

/-- The entries that an item on a clean name selects. With a raw parenthesis in its assertion it is
no item, and selects none. -/
theorem selects_item_iff (hname : IsCleanName name) :
    Selects order entry (name ++ "=" ++ assertion) ↔
      IsBare assertion.toList ∧ ∃ value ∈ entry name,
        Assertion.Matches (Assertion.pieces assertion.toList) value.toList := by
  have htext : (name ++ "=" ++ assertion).toList = name.toList ++ '=' :: assertion.toList := by
    simp
  have hbare : Selects order entry (name ++ "=" ++ assertion) → IsBare assertion.toList := by
    rintro ⟨reading, hreads, -⟩
    rw [htext] at hreads
    exact hreads.isBare_of_isCleanName hname
  refine (and_iff_right_of_imp hbare).symm.trans (and_congr_right fun hbare => ?_)
  have hclean : (DirectoryFilter.item name .equal assertion).IsClean := ⟨hname, hbare⟩
  exact (DirectoryFilter.selects_text_iff hclean).trans DirectoryFilter.holds_item_iff

/-- Presence of the name in front of an item on it asks for no more than the item does. -/
theorem selects_present_item_iff (hname : IsCleanName name) (hbare : IsBare assertion.toList) :
    Selects order entry ("&(" ++ name ++ "=*)(" ++ name ++ "=" ++ assertion ++ ")") ↔
      ∃ value ∈ entry name,
        Assertion.Matches (Assertion.pieces assertion.toList) value.toList := by
  let filter : DirectoryFilter := .and (.present name) (.item name .equal assertion)
  have htext : "&(" ++ name ++ "=*)(" ++ name ++ "=" ++ assertion ++ ")" = filter.text := by
    simp [filter, DirectoryFilter.present, DirectoryFilter.text, Relation.sign,
      ← String.toList_inj]
  have hclean : filter.IsClean := ⟨⟨hname, by decide, by decide⟩, hname, hbare⟩
  rw [htext, DirectoryFilter.selects_text_iff hclean, ← DirectoryFilter.holds_item_iff]
  refine and_iff_right_of_imp fun hitem => ?_
  obtain ⟨value, hvalue, -⟩ := DirectoryFilter.holds_item_iff.mp hitem
  rw [reading_present]
  exact List.ne_nil_of_mem hvalue

end Items

namespace Registry

/-- **Presence and equality on a key find every string stored there verbatim.** Where a path leads
to a key that stands for itself in quotes and holds no parenthesis, behind a carrier of a clean
name, presence and equality with any literal compile. Presence selects every entry that has as a
value of the carrier the text of an object with some string under the key, whatever its characters
and whatever the other members. Equality selects every entry that has there an object with a string
under the key that is written as the literal in quotes. -/
theorem finds_stored_string {registry : Registry} {name path carrier key : String}
    (hresolve : registry.resolve path name = .ok (.fragment carrier key))
    (hcarrier : IsCleanName carrier) (hkey : IsVerbatim key) (hbare : IsBare key.toList) :
    (∃ text, registry.compile ⟨.rfc4515⟩ (.present path) name = .ok text ∧
      ∀ (order : Collation) (entry : Entry) members s,
        (Json.object members).text ∈ entry carrier → (key, .string s) ∈ members →
        Selects order entry text) ∧
    ∀ token literal, Operator.ofToken? token = some .equal →
      ∃ text, registry.compile ⟨.rfc4515⟩ (.compare path token literal) name = .ok text ∧
        ∀ (order : Collation) (entry : Entry) members s,
          (Json.object members).text ∈ entry carrier → (key, .string s) ∈ members →
          (Json.string s).text = "\"" ++ literal ++ "\"" →
          Selects order entry text := by
  constructor
  · refine ⟨_, compile_present_fragment hresolve ⟨.rfc4515⟩, ?_⟩
    intro order entry members s hvalue hmem
    have hpresent := (isClean_fragment_present hcarrier hbare).2.2
    exact (selects_present_item_iff hcarrier hpresent).mpr
      ⟨_, hvalue, matches_stored_string hkey hmem⟩
  · intro token literal htoken
    refine ⟨_, compile_equal_fragment hresolve htoken ⟨.rfc4515⟩ literal, ?_⟩
    intro order entry members s hvalue hmem htext
    have hequal := isBare_wholeAssertion? hbare
      (show Fragment.wholeAssertion? key .equal (escape literal) = some _ from rfl)
    exact (selects_item_iff hcarrier).mpr
      ⟨hequal, _, hvalue, matches_stored_text hkey hmem htext⟩

/-- The part `value` of the members of a team, with a quote and a line break in it, and without. -/
theorem finds_stored_string_team :
    ∃ registry present equal, build [Sample.team] = .ok registry ∧
      registry.resolve "members.value" "team" = .ok (.fragment "member" "value") ∧
      IsCleanName "member" ∧ IsVerbatim "value" ∧ IsBare "value".toList ∧
      registry.compile ⟨.rfc4515⟩ (.present "members.value") "team" = .ok present ∧
      Selects .byCharacters (fun _ =>
        [(Json.object [("leader", .bool true), ("value", .string "a\"b\n")]).text]) present ∧
      registry.compile ⟨.rfc4515⟩ (.compare "members.value" "eq" "a*b") "team" = .ok equal ∧
      Selects .byCharacters (fun _ =>
        [(Json.object [("leader", .bool true), ("value", .string "a*b")]).text]) equal := by
  have hsample : ∃ registry, build [Sample.team] = .ok registry ∧
      registry.resolve "members.value" "team" = .ok (.fragment "member" "value") := by
    apply exists_ok_of_decide
    decide +kernel
  obtain ⟨registry, hbuild, hresolve⟩ := hsample
  have hcarrier : IsCleanName "member" := by decide +kernel
  have hkey : IsVerbatim "value" := by decide
  have hbare : IsBare "value".toList := by decide
  obtain ⟨⟨present, hpresent, hstrings⟩, hequal⟩ :=
    finds_stored_string hresolve hcarrier hkey hbare
  obtain ⟨equal, hcompile, htexts⟩ := hequal "eq" "a*b" (Operator.ofToken?_token .equal)
  refine ⟨registry, present, equal, hbuild, hresolve, hcarrier, hkey, hbare, hpresent, ?_,
    hcompile, ?_⟩
  · exact hstrings _ _ _ "a\"b\n" List.mem_cons_self (by simp)
  · exact htexts _ _ _ "a*b" List.mem_cons_self (by simp) (text_of_isVerbatim (by decide))

end Registry

/-! ### Values that are passed over -/

/-- A resource type with two complex attributes whose parts are of several data types. Two of the
parts are stored under names with a backslash and a parenthesis, and one of the complex attributes
under a name with an equality sign. -/
def Sample.device : ResourceDeclaration where
  name := "device"
  schema := "urn:device"
  attributes := [
    { path := "state", type := .complex },
    { path := "state.active", type := .boolean },
    { path := "state.count", type := .integer },
    { path := "state.note" },
    { path := "state.mark", storageName := some "a\\b" },
    { path := "state.side", storageName := some "a)b" },
    { path := "spot", storageName := some "c=d", type := .complex },
    { path := "spot.note" } ]

/-- An item with one piece between two stars passes over a value without that piece, whether or not
the presence of its name stands before it. -/
theorem not_selects_of_not_infix {text value : String} {order : Collation}
    (name assertion piece : String)
    (htext : text = name ++ "=" ++ assertion ∨
      text = "&(" ++ name ++ "=*)(" ++ name ++ "=" ++ assertion ++ ")")
    (hname : IsCleanName name) (hbare : IsBare assertion.toList)
    (hpieces : Assertion.pieces assertion.toList = [[], piece.toList, []])
    (h : ¬ piece.toList <:+: value.toList) : ¬ Selects order (fun _ => [value]) text := by
  intro hselects
  obtain ⟨other, hmem, hmatches⟩ : ∃ other ∈ [value],
      Assertion.Matches (Assertion.pieces assertion.toList) other.toList := by
    rcases htext with rfl | rfl
    · exact ((selects_item_iff hname).mp hselects).2
    · exact (selects_present_item_iff hname hbare).mp hselects
  obtain rfl := List.mem_singleton.mp hmem
  rw [hpieces, Assertion.matches_infix_iff] at hmatches
  exact h hmatches

namespace Registry

/-- **Values that are not found**: a truth value, by presence and by equality with its text; a
number; a string with a quote in it, by equality with that string; and a string under a key with a
backslash, by presence. Under a key with a parenthesis no string is found by an equality, whose text
is no filter; neither is one behind a carrier with an equality sign, where the name is read as
another. -/
theorem misses_stored_value :
    ∃ registry, build [Sample.device] = .ok registry ∧
      (registry.compile ⟨.rfc4515⟩ (.present "state.active") "device" =
          .ok "&(state=*)(state=*\"active\":\"*)" ∧
        ¬ Selects .byCharacters (fun _ => [(Json.object [("active", .bool true)]).text])
          "&(state=*)(state=*\"active\":\"*)") ∧
      (registry.compile ⟨.rfc4515⟩ (.compare "state.active" "eq" "true") "device" =
          .ok "state=*\"active\":\"true\"*" ∧
        ¬ Selects .byCharacters (fun _ => [(Json.object [("active", .bool true)]).text])
          "state=*\"active\":\"true\"*") ∧
      (registry.compile ⟨.rfc4515⟩ (.compare "state.count" "eq" "5") "device" =
          .ok "state=*\"count\":\"5\"*" ∧
        ¬ Selects .byCharacters
          (fun _ => [(Json.object [("count", .number { whole := [5] })]).text])
          "state=*\"count\":\"5\"*") ∧
      (registry.compile ⟨.rfc4515⟩ (.compare "state.note" "eq" "a\"b") "device" =
          .ok "state=*\"note\":\"a\"b\"*" ∧
        ¬ Selects .byCharacters (fun _ => [(Json.object [("note", .string "a\"b")]).text])
          "state=*\"note\":\"a\"b\"*") ∧
      (registry.compile ⟨.rfc4515⟩ (.present "state.mark") "device" =
          .ok "&(state=*)(state=*\"a\\b\":\"*)" ∧
        ¬ Selects .byCharacters (fun _ => [(Json.object [("a\\b", .string "x")]).text])
          "&(state=*)(state=*\"a\\b\":\"*)") ∧
      (registry.compile ⟨.rfc4515⟩ (.compare "state.side" "eq" "x") "device" =
          .ok "state=*\"a)b\":\"x\"*" ∧
        ¬ Selects .byCharacters (fun _ => [(Json.object [("a)b", .string "x")]).text])
          "state=*\"a)b\":\"x\"*") ∧
      (registry.compile ⟨.rfc4515⟩ (.compare "spot.note" "eq" "x") "device" =
          .ok "c=d=*\"note\":\"x\"*" ∧
        ¬ Selects .byCharacters
          (fun name => if name = "c=d" then [(Json.object [("note", .string "x")]).text] else [])
          "c=d=*\"note\":\"x\"*") := by
  have hsample : ∃ registry, build [Sample.device] = .ok registry ∧
      registry.compile ⟨.rfc4515⟩ (.present "state.active") "device" =
        .ok "&(state=*)(state=*\"active\":\"*)" ∧
      registry.compile ⟨.rfc4515⟩ (.compare "state.active" "eq" "true") "device" =
        .ok "state=*\"active\":\"true\"*" ∧
      registry.compile ⟨.rfc4515⟩ (.compare "state.count" "eq" "5") "device" =
        .ok "state=*\"count\":\"5\"*" ∧
      registry.compile ⟨.rfc4515⟩ (.compare "state.note" "eq" "a\"b") "device" =
        .ok "state=*\"note\":\"a\"b\"*" ∧
      registry.compile ⟨.rfc4515⟩ (.present "state.mark") "device" =
        .ok "&(state=*)(state=*\"a\\b\":\"*)" ∧
      registry.compile ⟨.rfc4515⟩ (.compare "state.side" "eq" "x") "device" =
        .ok "state=*\"a)b\":\"x\"*" ∧
      registry.compile ⟨.rfc4515⟩ (.compare "spot.note" "eq" "x") "device" =
        .ok "c=d=*\"note\":\"x\"*" := by
    apply exists_ok_of_decide
    decide +kernel
  obtain ⟨registry, hbuild, hpresent, hequal, hnumber, hquote, hslash, hside, hspot⟩ := hsample
  have hstate : IsCleanName "state" := by decide +kernel
  have hother : IsCleanName "c" := by decide +kernel
  refine ⟨registry, hbuild, ⟨hpresent, ?_⟩, ⟨hequal, ?_⟩, ⟨hnumber, ?_⟩, ⟨hquote, ?_⟩,
    ⟨hslash, ?_⟩, ⟨hside, ?_⟩, ⟨hspot, ?_⟩⟩
  · exact not_selects_of_not_infix "state" "*\"active\":\"*" "\"active\":\""
      (.inr rfl) hstate (by decide) rfl (by decide)
  · exact not_selects_of_not_infix "state" "*\"active\":\"true\"*" "\"active\":\"true\""
      (.inl rfl) hstate (by decide) rfl (by decide)
  · exact not_selects_of_not_infix "state" "*\"count\":\"5\"*" "\"count\":\"5\""
      (.inl rfl) hstate (by decide) rfl (by decide)
  · exact not_selects_of_not_infix "state" "*\"note\":\"a\"b\"*" "\"note\":\"a\"b\""
      (.inl rfl) hstate (by decide) rfl (by decide)
  · exact not_selects_of_not_infix "state" "*\"a\\b\":\"*" "\"a\\b\":\""
      (.inr rfl) hstate (by decide) rfl (by decide)
  · have htext : "state=*\"a)b\":\"x\"*" = "state" ++ "=" ++ "*\"a)b\":\"x\"*" := rfl
    rw [htext, selects_item_iff hstate]
    rintro ⟨hbare, -⟩
    exact hbare.2 (by decide)
  · -- the name ends at the first equality sign, and the entry has no value of that name
    have htext : "c=d=*\"note\":\"x\"*" = "c" ++ "=" ++ "d=*\"note\":\"x\"*" := rfl
    rw [htext, selects_item_iff hother]
    rintro ⟨-, value, hmem, -⟩
    cases hmem

end Registry

end ScimDirectory
