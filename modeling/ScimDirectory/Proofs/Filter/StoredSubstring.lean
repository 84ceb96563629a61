import ScimDirectory.Proofs.Filter.StoredString

/-!
# Substrings of strings stored under a key

For a substring match the pattern leaves a gap behind the quoted key and its colon: any text may
stand there before the literal, the rest of the member and the beginning of the next one included.
The price of the gap is a match too many, never one too few. Wherever the member stands in the
object and whatever is around the literal in its string, escaped characters included, the string is
found.

The beginning of a string cannot be told from any other place behind the gap. `sw` therefore
compiles to the same text as `co`, under either way of escaping.

## Main results

* `matches_behind_key`: the assertion with a gap matches every object with such a member.
* `Registry.finds_stored_substring`: **substring matches on a key miss no string stored there**.
-/

namespace ScimDirectory

variable {key : String} {members : List (String × Json)}

/-- The quoted key, a gap, and an assertion on some part of its value match every object with such a
member. -/
theorem matches_behind_key (hkey : IsVerbatim key) {value : Json} (hmem : (key, value) ∈ members)
    {part : List Char} (hpart : unescape part <:+: value.chars) :
    Assertion.Matches
      (Assertion.pieces ('*' :: Json.atKey key.toList [] ++ '*' :: part ++ ['*']))
      (Json.object members).text.toList := by
  have hplain : '\\' ∉ Json.atKey key.toList [] := by
    simpa [Json.atKey] using (Json.isRaw_of_isVerbatim hkey).2
  obtain ⟨front, back, hobject⟩ := Json.key_infix_of_mem hkey hmem List.prefix_rfl
  obtain ⟨before, after, hvalue⟩ := hpart
  have htext : (Json.object members).text.toList =
      front ++ unescape (Json.atKey key.toList []) ++ (before ++ unescape part) ++
        (after ++ back) := by
    rw [Json.text, String.toList_ofList, ← hobject, ← hvalue, unescape_of_not_mem hplain]
    simp [Json.atKey]
  rw [htext]
  exact Assertion.matches_of_infixes

/-- Verbatim characters stand in the text of a string wherever they stand in the string. -/
theorem infix_chars_of_infix {literal s : String} (hliteral : IsVerbatim literal)
    (h : literal.toList <:+: s.toList) : literal.toList <:+: (Json.string s).chars := by
  obtain ⟨before, after, hs⟩ := h
  refine ⟨'"' :: before.flatMap quoteChar, after.flatMap quoteChar ++ ['"'], ?_⟩
  simp [Json.chars, quote, ← hs, Json.flatMap_quoteChar_of_isVerbatim hliteral]

/-- Verbatim characters at the end of a string stand before the closing quote of its text. -/
theorem suffix_chars_of_suffix {literal s : String} (hliteral : IsVerbatim literal)
    (h : literal.toList <:+ s.toList) : literal.toList ++ ['"'] <:+ (Json.string s).chars := by
  obtain ⟨before, hs⟩ := h
  refine ⟨'"' :: before.flatMap quoteChar, ?_⟩
  simp [Json.chars, quote, ← hs, Json.flatMap_quoteChar_of_isVerbatim hliteral]

/-- What a carrier is compared with for a match anywhere in a string, or at its beginning. -/
def insideAssertion (key literal : String) : String :=
  "*\"" ++ key ++ "\":*" ++ escape literal ++ "*"

/-- What a carrier is compared with for a match at the end of a string. -/
def endingAssertion (key literal : String) : String :=
  "*\"" ++ key ++ "\":*" ++ escape literal ++ "\"*"

section Literal

variable {literal s : String}

/-- A match anywhere in a string finds every object with a string under the key that contains the
literal. -/
theorem matches_stored_infix (hkey : IsVerbatim key) (hliteral : IsVerbatim literal)
    (hmem : (key, .string s) ∈ members) (h : literal.toList <:+: s.toList) :
    Assertion.Matches (Assertion.pieces (insideAssertion key literal).toList)
      (Json.object members).text.toList := by
  have hpart : unescape (escape literal).toList <:+: (Json.string s).chars := by
    rw [unescape_escape]
    exact infix_chars_of_infix hliteral h
  simpa [insideAssertion, Json.atKey] using matches_behind_key hkey hmem hpart

/-- A match at the end of a string finds every object with a string under the key that ends with the
literal. -/
theorem matches_stored_suffix (hkey : IsVerbatim key) (hliteral : IsVerbatim literal)
    (hmem : (key, .string s) ∈ members) (h : literal.toList <:+ s.toList) :
    Assertion.Matches (Assertion.pieces (endingAssertion key literal).toList)
      (Json.object members).text.toList := by
  have hpart : unescape ((escape literal).toList ++ ['"']) <:+: (Json.string s).chars := by
    rw [toList_escape, unescape_flatMap_escapeChar_append, unescape_of_not_mem (by decide)]
    exact (suffix_chars_of_suffix hliteral h).isInfix
  simpa [endingAssertion, Json.atKey] using matches_behind_key hkey hmem hpart

end Literal

namespace Registry

/-- **Substring matches on a key miss no string stored there.** Where a path leads to a key that
stands for itself in quotes, `co` and `sw` with a literal that does so as well compile to one and
the same item, and `ew` to another. The first matches the text of every object that has under the
key a string that contains the literal, and so each that begins with it; the second, the text of
every object that has there a string that ends with it. Of any key and literal, and under either
way of escaping, `co` and `sw` compile to the same text. -/
theorem finds_stored_substring {registry : Registry} {name path carrier key : String}
    (hresolve : registry.resolve path name = .ok (.fragment carrier key)) :
    (IsVerbatim key → ∀ literal, IsVerbatim literal →
      (∀ token, Operator.ofToken? token = some .contains ∨
          Operator.ofToken? token = some .startsWith →
        registry.compile ⟨.rfc4515⟩ (.compare path token literal) name =
          .ok (carrier ++ "=" ++ insideAssertion key literal)) ∧
      (∀ token, Operator.ofToken? token = some .endsWith →
        registry.compile ⟨.rfc4515⟩ (.compare path token literal) name =
          .ok (carrier ++ "=" ++ endingAssertion key literal)) ∧
      ∀ members s, (key, .string s) ∈ members →
        (literal.toList <:+: s.toList →
          Assertion.Matches (Assertion.pieces (insideAssertion key literal).toList)
            (Json.object members).text.toList) ∧
        (literal.toList <+: s.toList →
          Assertion.Matches (Assertion.pieces (insideAssertion key literal).toList)
            (Json.object members).text.toList) ∧
        (literal.toList <:+ s.toList →
          Assertion.Matches (Assertion.pieces (endingAssertion key literal).toList)
            (Json.object members).text.toList)) ∧
    ∀ config co sw literal, Operator.ofToken? co = some .contains →
      Operator.ofToken? sw = some .startsWith →
      ∃ text, registry.compile config (.compare path co literal) name = .ok text ∧
        registry.compile config (.compare path sw literal) name = .ok text := by
  constructor
  · intro hkey literal hliteral
    refine ⟨?_, ?_, ?_⟩
    · rintro token (htoken | htoken) <;> exact compile_compare_fragment hresolve htoken rfl
    · exact fun token htoken => compile_compare_fragment hresolve htoken rfl
    · intro members s hmem
      refine ⟨fun h => ?_, fun h => ?_, fun h => ?_⟩
      · exact matches_stored_infix hkey hliteral hmem h
      · exact matches_stored_infix hkey hliteral hmem h.isInfix
      · exact matches_stored_suffix hkey hliteral hmem h
  · intro config co sw literal hco hsw
    exact ⟨_, compile_compare_fragment hresolve hco rfl,
      compile_compare_fragment hresolve hsw rfl⟩

/-- The end of a name, behind a quote in it, and its beginning: the member stands between others. -/
theorem finds_stored_substring_team :
    ∃ registry, build [Sample.team] = .ok registry ∧
      registry.compile ⟨.rfc4515⟩ (.compare "members.value" "sw" "a*") "team" =
        .ok ("member" ++ "=" ++ insideAssertion "value" "a*") ∧
      Assertion.Matches (Assertion.pieces (insideAssertion "value" "a*").toList) (Json.object
        [("leader", .bool true), ("value", .string "a*\"b"), ("note", .null)]).text.toList ∧
      registry.compile ⟨.rfc4515⟩ (.compare "members.value" "ew" "b") "team" =
        .ok ("member" ++ "=" ++ endingAssertion "value" "b") ∧
      Assertion.Matches (Assertion.pieces (endingAssertion "value" "b").toList) (Json.object
        [("leader", .bool true), ("value", .string "a*\"b"), ("note", .null)]).text.toList := by
  have hsample : ∃ registry, build [Sample.team] = .ok registry ∧
      registry.resolve "members.value" "team" = .ok (.fragment "member" "value") := by
    apply exists_ok_of_decide
    decide +kernel
  obtain ⟨registry, hbuild, hresolve⟩ := hsample
  obtain ⟨hfinds, -⟩ := finds_stored_substring hresolve
  obtain ⟨hstarts, -, hstrings⟩ := hfinds (by decide) "a*" (by decide)
  obtain ⟨-, hends, hstrings'⟩ := hfinds (by decide) "b" (by decide)
  obtain ⟨-, hprefix, -⟩ := hstrings
    [("leader", .bool true), ("value", .string "a*\"b"), ("note", .null)] "a*\"b" (by simp)
  obtain ⟨-, -, hsuffix⟩ := hstrings'
    [("leader", .bool true), ("value", .string "a*\"b"), ("note", .null)] "a*\"b" (by simp)
  exact ⟨registry, hbuild, hstarts "sw" (.inr (Operator.ofToken?_token .startsWith)),
    hprefix (by decide), hends "ew" (Operator.ofToken?_token .endsWith), hsuffix (by decide)⟩

end Registry

end ScimDirectory
