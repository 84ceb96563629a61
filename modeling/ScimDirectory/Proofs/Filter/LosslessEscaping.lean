import ScimDirectory.Proofs.DirectoryFilter.Assertion

/-!
# Escaping loses nothing

Two literals must not become one text under escaping, and no text that escaping makes may be taken
for anything but a literal. Both come from the form that escaped texts have: `IsEscaped` says it of
a text alone, without mention of any literal. No character of the filter syntax stands in such a
text but the backslash, and a backslash only at the beginning of one of five pairs.

Escaping and decoding are inverse to each other between all literals and the texts of that form. A
literal that was escaped before, or that happens to hold a backslash and two digits, is no
exception: its backslashes are escaped like any others.

## Main results

* `isEscaped_flatMap_escapeChar`: escaping makes texts of that form only.
* `IsEscaped.flatMap_escapeChar_unescape`: every text of that form is the escaped form of what it is
  decoded to.
* `escape_lossless`: **escaping is a lossless encoding**, character by character.
-/

namespace ScimDirectory

/-- What stands behind the backslash in the escaped forms of backslash, star, the two parentheses
and NUL. -/
def escapeCodes : List (List Char) :=
  [['5', 'c'], ['2', 'a'], ['2', '8'], ['2', '9'], ['0', '0']]

/-- **The form of escaped texts**: no star, no parenthesis and no NUL, and behind each backslash one
of the five codes. -/
structure IsEscaped (text : List Char) : Prop where
  plain : ∀ c ∈ ['*', '(', ')', '\x00'], c ∉ text
  coded : ∀ front back, text = front ++ '\\' :: back → ∃ code ∈ escapeCodes, code <+: back

/-- What stands at the end of an escaped text has the same form. -/
theorem IsEscaped.of_append {front back : List Char} (h : IsEscaped (front ++ back)) :
    IsEscaped back where
  plain := fun c hc hmem => h.plain c hc (List.mem_append_right front hmem)
  coded := fun before after heq =>
    h.coded (front ++ before) after (by rw [heq, List.append_assoc])

/-! ### What escaping makes -/

/-- A character stands for itself, or for a backslash and one of the codes. -/
theorem escapeChar_cases (c : Char) :
    (c ≠ '\\' ∧ escapeChar c = [c]) ∨ ∃ code ∈ escapeCodes, escapeChar c = '\\' :: code := by
  by_cases h : isMeta c = true
  · simp only [isMeta, Bool.or_eq_true, beq_iff_eq] at h
    refine .inr ?_
    rcases h with (((rfl | rfl) | rfl) | rfl) | rfl <;> exact ⟨_, by decide, rfl⟩
  · refine .inl ⟨?_, escapeChar_of_not_isMeta (by simpa using h)⟩
    rintro rfl
    exact h (by decide)

/-- No code holds a backslash. -/
theorem backslash_not_mem_code {code : List Char} (h : code ∈ escapeCodes) : '\\' ∉ code := by
  have hall : ∀ code ∈ escapeCodes, '\\' ∉ code := by decide
  exact hall code h

/-- A backslash in the escaped form of a character has its code behind it. -/
theorem mem_escapeCodes_of_escapeChar {c : Char} {front behind : List Char}
    (h : escapeChar c = front ++ '\\' :: behind) : behind ∈ escapeCodes := by
  rcases escapeChar_cases c with ⟨hc, hself⟩ | ⟨code, hcode, hcoded⟩
  · have hmem : '\\' ∈ escapeChar c := h ▸ List.mem_append_right front List.mem_cons_self
    rw [hself, List.mem_singleton] at hmem
    exact absurd hmem.symm hc
  · rw [hcoded] at h
    rcases List.cons_eq_append_iff.mp h with ⟨-, heq⟩ | ⟨front, -, rfl⟩
    · exact (List.cons.inj heq).2 ▸ hcode
    · exact absurd (List.mem_append_right front List.mem_cons_self) (backslash_not_mem_code hcode)

/-- **Behind each backslash of an escaped literal stands a code.** Induction on the literal: the
backslash belongs to the escaped form of its first character, or stands behind that. -/
theorem exists_code_of_backslash {literal front back : List Char}
    (h : literal.flatMap escapeChar = front ++ '\\' :: back) :
    ∃ code ∈ escapeCodes, code <+: back := by
  induction literal generalizing front with
  | nil => simp at h
  | cons c literal ih =>
      rw [List.flatMap_cons] at h
      rcases List.append_eq_append_iff.mp h with ⟨between, -, hrest⟩ | ⟨behind, hchar, hback⟩
      · exact ih hrest
      · rcases List.cons_eq_append_iff.mp hback with ⟨-, hrest⟩ | ⟨code, rfl, rfl⟩
        · exact ih (hrest.trans (List.nil_append _).symm)
        · exact ⟨code, mem_escapeCodes_of_escapeChar hchar, List.prefix_append code _⟩

/-- **Escaping makes texts of the escaped form.** -/
theorem isEscaped_flatMap_escapeChar (literal : List Char) :
    IsEscaped (literal.flatMap escapeChar) where
  plain := fun _ hc => not_mem_flatMap_escapeChar hc literal
  coded := fun _ _ => exists_code_of_backslash

/-! ### What decoding undoes -/

/-- A code is decoded to the character that is escaped with it. -/
theorem exists_hexPair?_of_code {code : List Char} (h : code ∈ escapeCodes) :
    ∃ high low c, code = [high, low] ∧ hexPair? high low = some c ∧
      escapeChar c = ['\\', high, low] := by
  simp only [escapeCodes, List.mem_cons, List.not_mem_nil, or_false] at h
  rcases h with rfl | rfl | rfl | rfl | rfl <;> exact ⟨_, _, _, rfl, rfl, by decide⟩

namespace IsEscaped

/-- An escaped text that begins with a backslash begins with an escaped character. -/
theorem exists_pair {text : List Char} (h : IsEscaped ('\\' :: text)) :
    ∃ high low rest c, text = high :: low :: rest ∧ hexPair? high low = some c ∧
      escapeChar c = ['\\', high, low] ∧ IsEscaped rest := by
  obtain ⟨code, hcode, rest, rfl⟩ := h.coded [] text rfl
  obtain ⟨high, low, c, rfl, hpair, hescape⟩ := exists_hexPair?_of_code hcode
  exact ⟨high, low, rest, c, rfl, hpair, hescape,
    of_append (show IsEscaped (['\\', high, low] ++ rest) from h)⟩

/-- A character of an escaped text that is no backslash is none of the filter syntax. -/
theorem isMeta_eq_false {text : List Char} (h : IsEscaped text) {c : Char} (hmem : c ∈ text)
    (hc : c ≠ '\\') : isMeta c = false := by
  rw [← Bool.not_eq_true]
  intro hmeta
  simp only [isMeta, Bool.or_eq_true, beq_iff_eq] at hmeta
  rcases hmeta with (((rfl | rfl) | rfl) | rfl) | rfl
  · exact hc rfl
  all_goals exact h.plain _ (by decide) hmem

/-- **A text of the escaped form is the escaped form of what it is decoded to.** Induction on the
decoding; a backslash that is not decoded does not occur. -/
theorem flatMap_escapeChar_unescape {text : List Char} (h : IsEscaped text) :
    (unescape text).flatMap escapeChar = text := by
  fun_induction unescape text with
  | case1 high low rest c hpair ih =>
      obtain ⟨_, _, _, c', ⟨⟩, hpair', hescape, hrest⟩ := h.exists_pair
      obtain rfl : c = c' := Option.some.inj (hpair.symm.trans hpair')
      rw [List.flatMap_cons, hescape, ih hrest]
      rfl
  | case2 high low rest hpair ih =>
      obtain ⟨_, _, _, c, ⟨⟩, hpair', -⟩ := h.exists_pair
      rw [hpair] at hpair'
      cases hpair'
  | case3 c rest hne ih =>
      have hc : c ≠ '\\' := by
        rintro rfl
        obtain ⟨high, low, behind, -, heq, -⟩ := h.exists_pair
        exact hne high low behind rfl heq
      have hrest : IsEscaped rest := of_append (show IsEscaped ([c] ++ rest) from h)
      rw [List.flatMap_cons, ih hrest,
        escapeChar_of_not_isMeta (h.isMeta_eq_false List.mem_cons_self hc), List.singleton_append]
  | case4 => rfl

end IsEscaped

/-! ### Escaping as an encoding -/

/-- **Escaping is a lossless encoding, character by character.** No escaped literal holds a star, a
parenthesis or a NUL, and each backslash in it begins one of the five pairs. Decoding gives back
the literal, so that different literals have different escaped forms; and every text of the
escaped form comes from the literal that it is decoded to. Literals may be escaped in parts, and
one that is left alone, having nothing to escape, comes out as it would character by
character. -/
theorem escape_lossless :
    (∀ literal, IsEscaped (escape literal).toList) ∧
      (∀ literal, unescape (escape literal).toList = literal.toList) ∧
      (∀ text, escape (String.ofList (unescape text.toList)) = text ↔ IsEscaped text.toList) ∧
      (∀ a b, escape a = escape b ↔ a = b) ∧
      (∀ a b, escape (a ++ b) = escape a ++ escape b) ∧
      ∀ literal, escape literal = String.ofList (literal.toList.flatMap escapeChar) := by
  have hescaped : ∀ literal, IsEscaped (escape literal).toList := fun literal => by
    rw [toList_escape]
    exact isEscaped_flatMap_escapeChar literal.toList
  refine ⟨hescaped, unescape_escape, fun text => ⟨fun h => ?_, fun h => ?_⟩,
    fun a b => ⟨fun h => ?_, congrArg escape⟩, fun a b => ?_, fun literal => ?_⟩
  · exact h ▸ hescaped _
  · rw [← String.toList_inj, toList_escape, String.toList_ofList, h.flatMap_escapeChar_unescape]
  · rw [← String.toList_inj, ← unescape_escape a, ← unescape_escape b, h]
  · rw [← String.toList_inj, String.toList_append, toList_escape, toList_escape, toList_escape,
      String.toList_append, List.flatMap_append]
  · rw [← toList_escape, String.ofList_toList]

/-- What was escaped before is escaped again, and nothing is taken for an escape. -/
example : escape "\\2a*" = "\\5c2a\\2a" := by decide +kernel

end ScimDirectory
