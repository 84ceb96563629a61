import Mathlib.Data.List.Infix
import ScimDirectory.Json.Basic

/-!
# Keys in the text of a flat object

Where a quoted key and a colon occur in the compact text of an object, there a member of that key
begins. That holds of flat objects: those whose member names are plain words and whose member
values are scalars. The text is scanned from the front. Nothing outside quotes is a quote; inside
a string a raw quote stands behind a backslash, which no word holds; and behind the last quote of
a string stands a comma or a brace, never a colon.

## Main results

* `eq_of_quote_eq`: a text without quotes and backslashes that runs up to the closing quote of a
  string is that string, and what follows both is the same.
* `mem_of_key_suffix`: **a quoted key with its colon occurs only at a member of that key**.
* `value_infix_iff`: the key with a whole string behind it occurs exactly when a member of that key
  has that string as its value.
* `text_infix_iff`: the key with a quote behind it occurs exactly when a member of that key has some
  string as its value.
-/

namespace ScimDirectory

/-- ASCII letters, digits, the dollar sign, the underscore and the hyphen. -/
def isWordChar (c : Char) : Bool :=
  c.isAlphanum || c == '$' || c == '_' || c == '-'

/-- A plain word: at least one character, each of a word. -/
def IsWord (s : String) : Prop :=
  s ≠ "" ∧ ∀ c ∈ s.toList, isWordChar c = true

instance (s : String) : Decidable (IsWord s) :=
  have := List.decidableBAll (isWordChar · = true) s.toList
  inferInstanceAs (Decidable (s ≠ "" ∧ _))

/-- A word holds only characters of words. -/
theorem IsWord.not_mem {s : String} (h : IsWord s) {c : Char} (hc : isWordChar c = false) :
    c ∉ s.toList := by
  intro hmem
  rw [h.2 c hmem] at hc
  cases hc

/-- Every character stands for itself inside the quotes of a string. -/
def IsVerbatim (s : String) : Prop :=
  ∀ c ∈ s.toList, c ≠ '"' ∧ c ≠ '\\' ∧ 0x20 ≤ c.toNat

instance (s : String) : Decidable (IsVerbatim s) :=
  List.decidableBAll (fun c => c ≠ '"' ∧ c ≠ '\\' ∧ 0x20 ≤ c.toNat) s.toList

/-- A word stands for itself inside quotes. -/
theorem IsWord.isVerbatim {s : String} (h : IsWord s) : IsVerbatim s := by
  have hcontrol : ∀ n < 0x20, isWordChar (Char.ofNat n) = false := by decide
  intro c hc
  refine ⟨?_, ?_, ?_⟩
  · rintro rfl
    exact h.not_mem (by decide) hc
  · rintro rfl
    exact h.not_mem (by decide) hc
  · by_contra hlow
    have hfalse := hcontrol c.toNat (by omega)
    rw [Char.ofNat_toNat] at hfalse
    exact h.not_mem hfalse hc

namespace Json

/-- A string, a number, a truth value or null. -/
def IsScalar : Json → Prop
  | array _ | object _ => False
  | _ => True

/-- The names of the members are words, and their values scalars. -/
def IsFlat (members : List (String × Json)) : Prop :=
  ∀ member ∈ members, IsWord member.1 ∧ member.2.IsScalar

/-! ### Characters of strings and numbers -/

theorem hexChar_ne_quote {n : Nat} (h : n < 16) : hexChar n ≠ '"' := by
  have hall : ∀ n < 16, hexChar n ≠ '"' := by decide
  exact hall n h

/-- A character is written as it is, or with a backslash in front. -/
theorem quoteChar_cases (c : Char) :
    (quoteChar c = [c] ∧ c ≠ '"' ∧ c ≠ '\\') ∨ ∃ code, quoteChar c = '\\' :: code := by
  fun_cases quoteChar c
  case case9 hquote hslash _ _ _ _ _ _ => exact .inl ⟨rfl, hquote, hslash⟩
  all_goals exact .inr ⟨_, rfl⟩

/-- Only a quote is written with a quote. -/
theorem quote_not_mem_quoteChar {c : Char} (h : c ≠ '"') : '"' ∉ quoteChar c := by
  fun_cases quoteChar c
  case case1 => exact absurd rfl h
  case case8 =>
    have hhigh := hexChar_ne_quote (n := c.toNat / 16) (by omega)
    have hlow := hexChar_ne_quote (n := c.toNat % 16) (by omega)
    simp [hhigh.symm, hlow.symm]
  case case9 => simpa using h.symm
  all_goals decide

/-- A verbatim text is what stands between the quotes. -/
theorem flatMap_quoteChar_of_isVerbatim {s : String} (h : IsVerbatim s) :
    s.toList.flatMap quoteChar = s.toList := by
  have hsingle : ∀ c ∈ s.toList, quoteChar c = [c] := by
    intro c hc
    obtain ⟨hquote, hslash, hprintable⟩ := h c hc
    fun_cases quoteChar c
    case case9 => rfl
    case case8 => omega
    case case1 | case2 => contradiction
    all_goals exact absurd hprintable (by decide)
  rw [List.flatMap_congr hsingle, List.flatMap_singleton']

/-- The text of a number holds no quote. -/
theorem quote_not_mem_numeral (numeral : Numeral) : '"' ∉ numeral.text := by
  have hdigit : ∀ digit : Fin 10, digitChar digit ≠ '"' := by decide
  have hdigits : ∀ digits : List (Fin 10), '"' ∉ digits.map digitChar := by
    intro digits hmem
    obtain ⟨digit, -, heq⟩ := List.mem_map.mp hmem
    exact hdigit digit heq
  have hexponent : ∀ exponent : Int, '"' ∉ Numeral.exponentText exponent := by
    intro exponent
    have hpower : '"' ∉ Nat.toDigits 10 exponent.natAbs := fun hmem =>
      absurd (Nat.isDigit_of_mem_toDigits (by decide) (by decide) hmem) (by decide)
    simp only [Numeral.exponentText, List.cons_append, List.mem_cons, List.mem_append, not_or]
    refine ⟨by decide, ?_, hpower⟩
    split <;> decide
  simp only [Numeral.text, List.mem_append, not_or]
  refine ⟨⟨⟨?_, ?_⟩, ?_⟩, ?_⟩
  · split <;> decide
  · split
    · decide
    · exact hdigits _
  · split
    · decide
    · rw [List.mem_cons, not_or]
      exact ⟨by decide, hdigits _⟩
  · cases numeral.exponent with
    | none => decide
    | some exponent => exact hexponent exponent

/-- The text of a scalar holds a quote only if the scalar is a string. -/
theorem eq_string_of_quote_mem {value : Json} (hscalar : value.IsScalar) (h : '"' ∈ value.chars) :
    ∃ s, value = .string s := by
  cases value with
  | null => exact absurd h (by decide)
  | bool value => cases value <;> exact absurd h (by simp [chars])
  | number value => exact absurd h (quote_not_mem_numeral value)
  | string value => exact ⟨value, rfl⟩
  | array _ | object _ => exact hscalar.elim

/-! ### Words and strings up to their closing quote -/

/-- The text holds neither quotes nor backslashes. -/
def IsRaw (text : List Char) : Prop :=
  '"' ∉ text ∧ '\\' ∉ text

theorem IsRaw.of_cons {c : Char} {text : List Char} (h : IsRaw (c :: text)) : IsRaw text :=
  ⟨List.not_mem_of_not_mem_cons h.1, List.not_mem_of_not_mem_cons h.2⟩

/-- **Two closing quotes at one place**: a raw text that runs up to the closing quote of a string
is that string, and what follows both is the same. -/
theorem eq_of_quote_eq {raw : List Char} (hraw : IsRaw raw) {content x y : List Char}
    (h : raw ++ '"' :: x = content.flatMap quoteChar ++ '"' :: y) : raw = content ∧ x = y := by
  induction content generalizing raw with
  | nil =>
      cases raw with
      | nil => exact ⟨rfl, (List.cons.inj h).2⟩
      | cons c raw => exact absurd (List.cons.inj h).1.symm (List.ne_of_not_mem_cons hraw.1)
  | cons d content ih =>
      rw [List.flatMap_cons] at h
      rcases quoteChar_cases d with ⟨hd, hquote, -⟩ | ⟨code, hd⟩ <;> rw [hd] at h
      · cases raw with
        | nil => exact absurd (List.cons.inj h).1.symm hquote
        | cons c raw =>
            obtain ⟨rfl, hrest⟩ := List.cons.inj h
            obtain ⟨rfl, rfl⟩ := ih hraw.of_cons hrest
            exact ⟨rfl, rfl⟩
      · cases raw with
        | nil => exact absurd (List.cons.inj h).1 (by decide)
        | cons c raw =>
            exact absurd (List.cons.inj h).1.symm (List.ne_of_not_mem_cons hraw.2)

/-- The quoted key and what follows it from its colon on. -/
def atKey (key back : List Char) : List Char :=
  '"' :: key ++ '"' :: ':' :: back

/-- What stands behind the value of a member: a comma or a brace. -/
def ClosesMember (rest : List Char) : Prop :=
  ∃ c more, rest = c :: more ∧ (c = ',' ∨ c = '\x7d')

/-- Text without quotes is passed over in the search for a quoted key. -/
theorem suffix_of_append {key back rest : List Char} (front : List Char) (hfront : '"' ∉ front)
    (h : atKey key back <:+ front ++ rest) : atKey key back <:+ rest := by
  induction front with
  | nil => exact h
  | cons c front ih =>
      rcases List.suffix_cons_iff.mp h with heq | hsuffix
      · exact absurd (List.cons.inj heq).1 (List.ne_of_not_mem_cons hfront)
      · exact ih (List.not_mem_of_not_mem_cons hfront) hsuffix

/-- No quoted key ends at the closing quote of a string that is the value of a member. -/
theorem key_ne_content {key back content rest : List Char} (hkey : IsRaw key)
    (hrest : ClosesMember rest) :
    key ++ '"' :: ':' :: back ≠ content.flatMap quoteChar ++ '"' :: rest := by
  intro h
  obtain ⟨c, more, rfl, hc⟩ := hrest
  obtain ⟨rfl, -⟩ := List.cons.inj (eq_of_quote_eq hkey h).2
  exact hc.elim (by decide) (by decide)

/-- **A string that is the value of a member is passed over**, its escaped quotes and its closing
quote included. -/
theorem suffix_of_content {key back content rest : List Char} (hkey : IsRaw key)
    (hcomma : ',' ∉ key) (hbrace : '\x7d' ∉ key) (hrest : ClosesMember rest)
    (h : atKey key back <:+ content.flatMap quoteChar ++ '"' :: rest) :
    atKey key back <:+ rest := by
  induction content with
  | nil =>
      rcases List.suffix_cons_iff.mp h with heq | hsuffix
      · -- At the closing quote the key would begin with the comma or the brace behind it.
        obtain ⟨c, more, rfl, hc⟩ := hrest
        have hbehind := (List.cons.inj heq).2
        cases key with
        | nil =>
            obtain ⟨rfl, -⟩ := List.cons.inj hbehind
            exact absurd hc (by decide)
        | cons d key =>
            obtain ⟨rfl, -⟩ := List.cons.inj hbehind
            rcases hc with rfl | rfl
            · exact absurd List.mem_cons_self hcomma
            · exact absurd List.mem_cons_self hbrace
      · exact hsuffix
  | cons c content ih =>
      rw [List.flatMap_cons, List.append_assoc] at h
      by_cases hc : c = '"'
      · subst hc
        have hbehind : atKey key back <:+ '"' :: (content.flatMap quoteChar ++ '"' :: rest) :=
          suffix_of_append ['\\'] (by decide) h
        rcases List.suffix_cons_iff.mp hbehind with heq | hsuffix
        · -- At an escaped quote the key would run up to the closing one, and a colon follow there.
          exact absurd (List.cons.inj heq).2 (key_ne_content hkey hrest)
        · exact ih hsuffix
      · exact ih (suffix_of_append _ (quote_not_mem_quoteChar hc) h)

/-! ### Members -/

/-- What stands behind the value of a member, before the members `rest`. -/
def behind : List (String × Json) → List Char
  | [] => ['\x7d']
  | next :: more => ',' :: membersChars (next :: more) ++ ['\x7d']

theorem closesMember_behind (rest : List (String × Json)) : ClosesMember (behind rest) := by
  cases rest with
  | nil => exact ⟨'\x7d', [], rfl, .inr rfl⟩
  | cons next more => exact ⟨',', _, rfl, .inl rfl⟩

/-- The text of a member stands in front of the others. -/
theorem membersChars_cons (key : String) (value : Json) (rest : List (String × Json)) :
    membersChars ((key, value) :: rest) ++ ['\x7d'] =
      quote key ++ ':' :: value.chars ++ behind rest := by
  cases rest with
  | nil => simp [membersChars, behind]
  | cons next more => simp [membersChars, behind]

/-- A verbatim text is raw. -/
theorem isRaw_of_isVerbatim {s : String} (h : IsVerbatim s) : IsRaw s.toList :=
  ⟨fun hmem => (h _ hmem).1 rfl, fun hmem => (h _ hmem).2.1 rfl⟩

/-- The value of a member is passed over. -/
theorem suffix_of_value {key : String} (hkey : IsWord key) {back rest : List Char} {value : Json}
    (hscalar : value.IsScalar) (hrest : ClosesMember rest)
    (h : atKey key.toList back <:+ value.chars ++ rest) : atKey key.toList back <:+ rest := by
  by_cases hquote : '"' ∈ value.chars
  · obtain ⟨s, rfl⟩ := eq_string_of_quote_mem hscalar hquote
    have hraw := isRaw_of_isVerbatim hkey.isVerbatim
    have hopen : atKey key.toList back <:+ '"' :: (s.toList.flatMap quoteChar ++ '"' :: rest) := by
      simpa [chars, quote] using h
    rcases List.suffix_cons_iff.mp hopen with heq | hsuffix
    · exact absurd (List.cons.inj heq).2 (key_ne_content hraw hrest)
    · exact suffix_of_content hraw (hkey.not_mem (by decide)) (hkey.not_mem (by decide)) hrest
        hsuffix
  · exact suffix_of_append _ hquote h

/-- The name of a member holds no other quoted key: not behind its opening quote, and not at its
closing one, behind which the colon follows. -/
theorem suffix_of_name {key name : String} (hkey : IsWord key) (hname : IsWord name)
    {back rest : List Char} (h : atKey key.toList back <:+ name.toList ++ '"' :: ':' :: rest) :
    atKey key.toList back <:+ rest := by
  have hclose := suffix_of_append _ (isRaw_of_isVerbatim hname.isVerbatim).1 h
  rcases List.suffix_cons_iff.mp hclose with heq | hsuffix
  · have hbehind := (List.cons.inj heq).2
    cases hchars : key.toList with
    | nil => exact absurd (String.toList_eq_nil_iff.mp hchars) hkey.1
    | cons c more =>
        rw [hchars] at hbehind
        obtain ⟨rfl, -⟩ := List.cons.inj hbehind
        have hcolon : ':' ∉ key.toList := hkey.not_mem (by decide)
        exact absurd (hchars ▸ List.mem_cons_self) hcolon
  · exact suffix_of_append [':'] (by decide) hsuffix

/-- **A quoted key with its colon occurs only at a member of that key**, and is followed by the
value of that member. Induction on the members; the search leaves each of them behind. -/
theorem mem_of_key_suffix {key : String} (hkey : IsWord key) {back : List Char}
    {members : List (String × Json)} (hflat : IsFlat members)
    (h : atKey key.toList back <:+ membersChars members ++ ['\x7d']) :
    ∃ value rest, (key, value) ∈ members ∧ back = value.chars ++ rest ∧ ClosesMember rest := by
  induction members with
  | nil =>
      have hnil := List.suffix_nil.mp (suffix_of_append ['\x7d'] (by decide) h)
      cases hnil
  | cons member rest ih =>
      obtain ⟨name, value⟩ := member
      obtain ⟨⟨hname, hscalar⟩, hrest⟩ := List.forall_mem_cons.mp hflat
      have hopen : atKey key.toList back <:+
          '"' :: (name.toList ++ '"' :: ':' :: (value.chars ++ behind rest)) := by
        simpa [membersChars_cons, quote, flatMap_quoteChar_of_isVerbatim hname.isVerbatim] using h
      rcases List.suffix_cons_iff.mp hopen with heq | hsuffix
      · have hkeys := (List.cons.inj heq).2
        rw [← flatMap_quoteChar_of_isVerbatim hname.isVerbatim] at hkeys
        obtain ⟨hname, hvalue⟩ := eq_of_quote_eq (isRaw_of_isVerbatim hkey.isVerbatim) hkeys
        obtain rfl := String.toList_inj.mp hname
        exact ⟨value, behind rest, List.mem_cons_self, (List.cons.inj hvalue).2,
          closesMember_behind rest⟩
      · have hnext : atKey key.toList back <:+ membersChars rest ++ ['\x7d'] := by
          have hbehind := suffix_of_value hkey hscalar (closesMember_behind rest)
            (suffix_of_name hkey hname hsuffix)
          cases rest with
          | nil => exact hbehind
          | cons next more => exact suffix_of_append [','] (by decide) hbehind
        obtain ⟨found, tail, hmem, hback⟩ := ih hrest hnext
        exact ⟨found, tail, List.mem_cons_of_mem _ hmem, hback⟩

/-- A member stands in the text with its key quoted. -/
theorem key_suffix_of_mem {key : String} (hkey : IsVerbatim key) {value : Json}
    {members : List (String × Json)} (h : (key, value) ∈ members) :
    ∃ rest, atKey key.toList (value.chars ++ rest) <:+ membersChars members ++ ['\x7d'] := by
  induction members with
  | nil => cases h
  | cons member rest ih =>
      obtain ⟨name, other⟩ := member
      rw [membersChars_cons]
      rcases List.mem_cons.mp h with heq | hmem
      · obtain ⟨rfl, rfl⟩ := Prod.mk.inj heq
        refine ⟨behind rest, [], ?_⟩
        simp [atKey, quote, flatMap_quoteChar_of_isVerbatim hkey]
      · obtain ⟨tail, hsuffix⟩ := ih hmem
        have hbehind : membersChars rest ++ ['\x7d'] <:+ behind rest := by
          cases rest with
          | nil => cases hmem
          | cons next more => exact List.suffix_cons _ _
        exact ⟨tail, (hsuffix.trans hbehind).trans (List.suffix_append _ _)⟩

/-! ### Occurrences in objects -/

/-- The quoted key and a beginning of the value behind it. -/
theorem key_infix_of_mem {key : String} (hkey : IsVerbatim key) {value : Json}
    {members : List (String × Json)} (h : (key, value) ∈ members) {front : List Char}
    (hfront : front <+: value.chars) : atKey key.toList front <:+: (object members).chars := by
  obtain ⟨rest, hsuffix⟩ := key_suffix_of_mem hkey h
  obtain ⟨back, hvalue⟩ := hfront
  have hbegins : atKey key.toList front <+: atKey key.toList (value.chars ++ rest) := by
    refine ⟨back ++ rest, ?_⟩
    simp [atKey, ← hvalue]
  have hobject : membersChars members ++ ['\x7d'] <:+ (object members).chars :=
    List.suffix_cons '\x7b' (membersChars members ++ ['\x7d'])
  exact (hbegins.isInfix.trans hsuffix.isInfix).trans hobject.isInfix

/-- A quoted key with a quote behind its colon belongs to a member whose value is a string. -/
theorem exists_string_of_key_infix {key : String} (hkey : IsWord key) {back : List Char}
    {members : List (String × Json)} (hflat : IsFlat members)
    (h : atKey key.toList ('"' :: back) <:+: (object members).chars) :
    ∃ s rest, (key, .string s) ∈ members ∧
      back <+: s.toList.flatMap quoteChar ++ '"' :: rest := by
  obtain ⟨found, ⟨tail, rfl⟩, hsuffix⟩ := List.infix_iff_prefix_suffix.mp h
  have hmembers : atKey key.toList ('"' :: back ++ tail) <:+ membersChars members ++ ['\x7d'] := by
    refine suffix_of_append ['\x7b'] (by decide) ?_
    simpa [atKey, chars] using hsuffix
  obtain ⟨value, rest, hmem, hvalue, c, more, rfl, hc⟩ := mem_of_key_suffix hkey hflat hmembers
  have hquote : '"' ∈ value.chars := by
    cases hchars : value.chars with
    | nil =>
        rw [hchars] at hvalue
        obtain ⟨rfl, -⟩ := List.cons.inj hvalue
        exact absurd hc (by decide)
    | cons d tail =>
        rw [hchars] at hvalue
        obtain ⟨rfl, -⟩ := List.cons.inj hvalue
        exact List.mem_cons_self
  obtain ⟨s, rfl⟩ := eq_string_of_quote_mem (hflat _ hmem).2 hquote
  refine ⟨s, c :: more, hmem, tail, ?_⟩
  simpa [chars, quote] using hvalue

/-- **The key with a whole string behind it** occurs exactly when a member of that key has that
string as its value. -/
theorem value_infix_iff {key literal : String} (hkey : IsWord key) (hliteral : IsVerbatim literal)
    {members : List (String × Json)} (hflat : IsFlat members) :
    atKey key.toList ('"' :: (literal.toList ++ ['"'])) <:+: (object members).chars ↔
      (key, .string literal) ∈ members := by
  constructor
  · intro h
    obtain ⟨s, rest, hmem, tail, heq⟩ := exists_string_of_key_infix hkey hflat h
    rw [List.append_assoc] at heq
    obtain rfl := String.toList_inj.mp (eq_of_quote_eq (isRaw_of_isVerbatim hliteral) heq).1
    exact hmem
  · intro h
    refine key_infix_of_mem hkey.isVerbatim h ?_
    simp [chars, quote, flatMap_quoteChar_of_isVerbatim hliteral]

/-- **The key with a quote behind it** occurs exactly when a member of that key has some string as
its value. -/
theorem text_infix_iff {key : String} (hkey : IsWord key) {members : List (String × Json)}
    (hflat : IsFlat members) :
    atKey key.toList ['"'] <:+: (object members).chars ↔ ∃ s, (key, .string s) ∈ members := by
  constructor
  · intro h
    obtain ⟨s, rest, hmem, -⟩ := exists_string_of_key_infix hkey hflat h
    exact ⟨s, hmem⟩
  · rintro ⟨s, h⟩
    refine key_infix_of_mem hkey.isVerbatim h ?_
    simp [chars, quote]

end Json

end ScimDirectory
