import Mathlib.Data.List.Infix
import ScimDirectory.Filter.Escaping
import ScimDirectory.Json.Reader

/-!
# Assertions as patterns

The directory takes the assertion of an item as text. A star in it stands for any text, so the
stars cut it into pieces; a backslash with two hexadecimal digits stands for the character of that
number, so each piece is decoded after the cut. `pieces` is that reading, and `Matches` says which
values a list of pieces describes: the pieces lie in the value in order and without overlap, the
first at its beginning and the last at its end.

## Main results

* `unescape_flatMap_escapeChar_append`: decoding undoes escaping, whatever text follows.
* `pieces_append_star`, `pieces_of_not_mem`: an assertion is cut exactly at its raw stars.
* `matches_prefix_iff`, `matches_suffix_iff`, `matches_infix_iff`: a star behind, before, or on
  both sides of one piece asks for a prefix, a suffix, or an infix of the value.
* `matches_unescape`: **an assertion matches its own decoded text**, stars included.
-/

namespace ScimDirectory

/-! ### Decoding -/

/-- The character that a backslash and these two hexadecimal digits stand for. -/
def hexPair? (high low : Char) : Option Char := do
  return Char.ofNat (16 * (← Json.hexValue? high) + (← Json.hexValue? low))

/-- The text with every backslash and two hexadecimal digits decoded, from left to right. A
backslash without two such digits stands for itself. -/
def unescape : List Char → List Char
  | '\\' :: high :: low :: rest =>
      match hexPair? high low with
      | some c => c :: unescape rest
      | none => '\\' :: unescape (high :: low :: rest)
  | c :: rest => c :: unescape rest
  | [] => []

/-- Only a backslash begins a pair. -/
theorem unescape_cons {c : Char} (h : c ≠ '\\') (rest : List Char) :
    unescape (c :: rest) = c :: unescape rest :=
  unescape.eq_2 c rest fun _ _ _ hc _ => h hc

/-- A pair is decoded to its character. -/
theorem unescape_pair {high low c : Char} (h : hexPair? high low = some c) (rest : List Char) :
    unescape ('\\' :: high :: low :: rest) = c :: unescape rest := by
  rw [unescape, h]

/-- No pair of hexadecimal digits holds a star. -/
theorem hexPair?_star (c : Char) : hexPair? '*' c = none ∧ hexPair? c '*' = none := by
  have hstar : Json.hexValue? '*' = none := by decide
  simp only [hexPair?, hstar]
  constructor
  · rfl
  · cases Json.hexValue? c <;> rfl

/-- A backslash without a pair behind it stands for itself. -/
theorem unescape_backslash {high low : Char} (h : hexPair? high low = none) (rest : List Char) :
    unescape ('\\' :: high :: low :: rest) = '\\' :: unescape (high :: low :: rest) := by
  rw [unescape, h]

/-- A star is never part of a pair: decoding leaves it where it is. Induction on the decoding of
what stands before the star. -/
theorem unescape_append_star (front back : List Char) :
    unescape (front ++ '*' :: back) = unescape front ++ '*' :: unescape back := by
  have hstar : unescape ('*' :: back) = '*' :: unescape back := unescape_cons (by decide) back
  fun_induction unescape front with
  | case1 high low rest c hpair ih =>
      simp only [List.cons_append, unescape_pair hpair, ih]
  | case2 high low rest hpair ih =>
      simp only [List.cons_append] at ih ⊢
      rw [unescape_backslash hpair, ih]
  | case3 c rest hne ih =>
      by_cases hslash : c = '\\'
      · subst hslash
        -- Behind this backslash stands at most one character, and then the star.
        match rest, hne with
        | [], _ =>
            cases back with
            | nil => rfl
            | cons low back =>
                have hnone := unescape_backslash (hexPair?_star low).1 back
                exact hnone.trans (congrArg ('\\' :: ·) hstar)
        | [high], _ =>
            have hnone := unescape_backslash (hexPair?_star high).2 back
            exact hnone.trans (congrArg ('\\' :: ·) ih)
        | high :: low :: rest, hne => exact (hne high low rest rfl rfl).elim
      · rw [List.cons_append, unescape_cons hslash, ih, List.cons_append]
  | case4 => exact hstar

/-- A text without backslashes is not changed by decoding, whatever follows it. -/
theorem unescape_append_of_not_mem {plain : List Char} (h : '\\' ∉ plain) (rest : List Char) :
    unescape (plain ++ rest) = plain ++ unescape rest := by
  induction plain with
  | nil => rfl
  | cons c plain ih =>
      rw [List.mem_cons, not_or] at h
      rw [List.cons_append, unescape_cons (Ne.symm h.1), ih h.2, List.cons_append]

/-- A text without backslashes is its own decoded form. -/
theorem unescape_of_not_mem {plain : List Char} (h : '\\' ∉ plain) : unescape plain = plain := by
  have happend := unescape_append_of_not_mem h []
  rwa [List.append_nil, unescape, List.append_nil] at happend

/-- The escaped form of a character is decoded to that character. -/
theorem unescape_escapeChar_append (c : Char) (rest : List Char) :
    unescape (escapeChar c ++ rest) = c :: unescape rest := by
  by_cases h : isMeta c = true
  · simp only [isMeta, Bool.or_eq_true, beq_iff_eq] at h
    rcases h with (((rfl | rfl) | rfl) | rfl) | rfl <;> exact unescape_pair (by decide) rest
  · rw [escapeChar_of_not_isMeta (by simpa using h), List.singleton_append, unescape_cons]
    rintro rfl
    exact h (by decide)

/-- **Decoding undoes escaping**, whatever text follows the literal. -/
theorem unescape_flatMap_escapeChar_append (literal rest : List Char) :
    unescape (literal.flatMap escapeChar ++ rest) = literal ++ unescape rest := by
  induction literal with
  | nil => rfl
  | cons c literal ih =>
      rw [List.flatMap_cons, List.append_assoc, unescape_escapeChar_append, ih, List.cons_append]

/-- An escaped literal is decoded to the literal. -/
theorem unescape_escape (literal : String) :
    unescape (escape literal).toList = literal.toList := by
  have hdecoded := unescape_flatMap_escapeChar_append literal.toList []
  rwa [List.append_nil, unescape, List.append_nil, ← toList_escape] at hdecoded

/-- An escaped literal holds no star, no parenthesis and no NUL. -/
theorem not_mem_flatMap_escapeChar {c : Char} (hc : c ∈ ['*', '(', ')', '\x00'])
    (literal : List Char) : c ∉ literal.flatMap escapeChar := by
  rw [List.mem_flatMap]
  rintro ⟨d, -, hd⟩
  by_cases h : isMeta d = true
  · simp only [isMeta, Bool.or_eq_true, beq_iff_eq] at h
    simp only [List.mem_cons, List.not_mem_nil, or_false] at hc
    rcases h with (((rfl | rfl) | rfl) | rfl) | rfl <;>
      rcases hc with rfl | rfl | rfl | rfl <;> exact absurd hd (by decide)
  · rw [escapeChar_of_not_isMeta (by simpa using h), List.mem_singleton] at hd
    subst hd
    simp only [List.mem_cons, List.not_mem_nil, or_false] at hc
    rcases hc with rfl | rfl | rfl | rfl <;> exact h (by decide)

/-! ### Pieces -/

namespace Assertion

/-- The pieces of an assertion: what stands between its stars, decoded. -/
def pieces (assertion : List Char) : List (List Char) :=
  (assertion.splitOn '*').map unescape

/-- A star ends the pieces before it and begins those behind it. -/
theorem pieces_append_star (front back : List Char) :
    pieces (front ++ '*' :: back) = pieces front ++ pieces back := by
  rw [pieces, List.splitOn_append_cons_self, List.map_append, pieces, pieces]

theorem pieces_star (back : List Char) : pieces ('*' :: back) = [] :: pieces back :=
  pieces_append_star [] back

/-- An assertion without stars is one piece. -/
theorem pieces_of_not_mem {assertion : List Char} (h : '*' ∉ assertion) :
    pieces assertion = [unescape assertion] := by
  rw [pieces, List.splitOn_eq_singleton h, List.map_singleton]

/-! ### Matching -/

/-- The pieces lie in the text in order and without overlap, the last at its end. -/
def Follow : List (List Char) → List Char → Prop
  | [], _ => False
  | [last], text => last <:+ text
  | piece :: next :: more, text =>
      ∃ skipped rest, text = skipped ++ piece ++ rest ∧ Follow (next :: more) rest

/-- **The value matches the pieces**: one piece is the whole value; of several, the first stands
at the beginning of the value and the others follow it, with any text between them. -/
def Matches : List (List Char) → List Char → Prop
  | [], _ => False
  | [piece], value => value = piece
  | first :: next :: more, value => ∃ rest, value = first ++ rest ∧ Follow (next :: more) rest

theorem matches_singleton (piece value : List Char) : Matches [piece] value ↔ value = piece :=
  Iff.rfl

/-- A star behind a piece asks for a value that begins with the piece. -/
theorem matches_prefix_iff (piece value : List Char) :
    Matches [piece, []] value ↔ piece <+: value := by
  constructor
  · rintro ⟨rest, rfl, -⟩
    exact List.prefix_append piece rest
  · rintro ⟨rest, rfl⟩
    exact ⟨rest, rfl, List.nil_suffix⟩

/-- A star before a piece asks for a value that ends with the piece. -/
theorem matches_suffix_iff (piece value : List Char) :
    Matches [[], piece] value ↔ piece <:+ value := by
  constructor
  · rintro ⟨rest, rfl, h⟩
    exact h
  · intro h
    exact ⟨value, rfl, h⟩

/-- Stars on both sides of a piece ask for a value that contains the piece. -/
theorem matches_infix_iff (piece value : List Char) :
    Matches [[], piece, []] value ↔ piece <:+: value := by
  constructor
  · rintro ⟨_, rfl, front, back, rfl, -⟩
    exact ⟨front, back, rfl⟩
  · rintro ⟨front, back, rfl⟩
    exact ⟨_, rfl, front, back, rfl, List.nil_suffix⟩

/-! ### An assertion and its own text -/

/-- Pieces that follow each other in two texts do so in the two texts joined. -/
theorem Follow.append {ps qs : List (List Char)} {x y : List Char} (h : Follow ps x)
    (h' : Follow qs y) : Follow (ps ++ qs) (x ++ y) := by
  induction ps generalizing x with
  | nil => exact h.elim
  | cons piece more ih =>
      cases more with
      | nil =>
          obtain ⟨skipped, rfl⟩ := h
          cases qs with
          | nil => exact h'.elim
          | cons next qs => exact ⟨skipped, y, rfl, h'⟩
      | cons next more =>
          obtain ⟨skipped, rest, rfl, hrest⟩ := h
          exact ⟨skipped, rest ++ y, by simp, ih hrest⟩

/-- What matches the pieces may have any text in front of it where they only follow. -/
theorem Matches.follow {ps : List (List Char)} {x : List Char} (h : Matches ps x)
    (skipped : List Char) : Follow ps (skipped ++ x) := by
  match ps, h with
  | [_], h => exact ⟨skipped, h ▸ rfl⟩
  | piece :: next :: more, h =>
      obtain ⟨rest, rfl, hrest⟩ := h
      exact ⟨skipped, rest, by simp, hrest⟩

/-- **An assertion matches its own text**, decoded: what a star stands for may be a star. -/
theorem matches_unescape (assertion : List Char) :
    Matches (pieces assertion) (unescape assertion) := by
  induction hlength : assertion.length using Nat.strong_induction_on generalizing assertion with
  | _ n ih =>
      by_cases hstar : '*' ∈ assertion
      · obtain ⟨front, back, rfl, hfront⟩ := List.eq_append_cons_of_mem hstar
        have hback := ih back.length (by simp at hlength; omega) back rfl
        rw [pieces_append_star, pieces_of_not_mem hfront, unescape_append_star]
        have hfollow := hback.follow ['*']
        cases hpieces : pieces back with
        | nil =>
          rw [hpieces] at hback
          exact hback.elim
        | cons next more =>
          rw [hpieces] at hfollow
          exact ⟨'*' :: unescape back, rfl, hfollow⟩
      · rw [pieces_of_not_mem hstar]
        rfl

/-- Pieces that only follow each other match behind a star. -/
theorem Follow.matches_star {ps : List (List Char)} {value : List Char} (h : Follow ps value) :
    Matches ([] :: ps) value := by
  cases ps with
  | nil => exact h.elim
  | cons next more => exact ⟨value, rfl, h⟩

/-- Between two stars an assertion matches every value that holds its decoded text. -/
theorem matches_of_infix {assertion value : List Char} (h : unescape assertion <:+: value) :
    Matches (pieces ('*' :: assertion ++ ['*'])) value := by
  obtain ⟨front, back, rfl⟩ := h
  have hend : Follow [[]] back := List.nil_suffix
  have hfollow := ((matches_unescape assertion).follow front).append hend
  rw [List.cons_append, pieces_star, pieces_append_star]
  exact hfollow.matches_star

/-- **Two assertions with a star between them**, and one on either side, match every value that
holds the decoded text of the first, and behind it that of the second. -/
theorem matches_of_infixes {first second front between back : List Char} :
    Matches (pieces ('*' :: first ++ '*' :: second ++ ['*']))
      (front ++ unescape first ++ (between ++ unescape second) ++ back) := by
  have hfirst := (matches_unescape first).follow front
  have hsecond := (matches_unescape second).follow between
  have hend : Follow [[]] back := List.nil_suffix
  rw [List.append_assoc, List.cons_append, pieces_star, List.cons_append, pieces_append_star,
    pieces_append_star, ← List.append_assoc]
  exact ((hfirst.append hsecond).append hend).matches_star

end Assertion

end ScimDirectory
