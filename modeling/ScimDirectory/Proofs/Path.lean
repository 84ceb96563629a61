import Mathlib.Data.List.Basic
import ScimDirectory.Path

/-!
# Paths as dotted texts

A path is a text with dots in it, and a declaration, a filter and a look-up each take it apart in a
way of their own. This module ties the ways together: what `AttributePath.ofChars?` reads is what
splitting at the dots gives, it can be read off the text, and letter case does not matter to it,
because folding touches letters only.

## Main results

* `AttributePath.ofChars?_eq_splitOn`: reading a path is splitting it at its dots.
* `AttributePath.ofChars?_eq_simple_iff`, `AttributePath.ofChars?_eq_part_iff`: the two kinds of
  paths by their texts.
* `alike_dotted_iff`: **dotted texts are alike segment by segment**.
* `afterUrn?_eq`: what follows a schema URN, by its length.
-/

namespace ScimDirectory

/-- The two parts of a text around the first occurrence of a character are known. -/
theorem append_cons_inj_of_not_mem {α : Type} {c : α} {a b x y : List α} (ha : c ∉ a) (hb : c ∉ b)
    (h : a ++ c :: x = b ++ c :: y) : a = b ∧ x = y := by
  rw [List.append_eq_append_iff] at h
  rcases h with ⟨m, rfl, hm⟩ | ⟨m, rfl, hm⟩ <;> rcases List.cons_eq_append_iff.mp hm with
    ⟨rfl, hx⟩ | ⟨m', rfl, -⟩
  · exact ⟨(List.append_nil a).symm, (List.cons.inj hx).2.symm⟩
  · exact absurd (List.mem_append_right a List.mem_cons_self) hb
  · exact ⟨List.append_nil b, (List.cons.inj hx).2⟩
  · exact absurd (List.mem_append_right b List.mem_cons_self) ha

/-! ### Letter case and dots -/

/-- A capital is folded to the letter 32 places behind it. -/
theorem toNat_toLower_of_capital {c : Char} (hc : c.val ≥ 'A'.val ∧ c.val ≤ 'Z'.val) :
    c.toLower.val.toNat = c.val.toNat + 32 := by
  have hval : c.toLower.val = c.val + 32 := congrArg Char.val (dif_pos hc)
  have hhigh : c.val.toNat ≤ 90 := hc.2
  rw [hval, UInt32.toNat_add]
  change (c.val.toNat + 32) % 4294967296 = c.val.toNat + 32
  omega

/-- Nothing but the character itself is folded to one that is no letter. -/
theorem toLower_eq_iff {c d : Char} (hd : d.isAlpha = false) : c.toLower = d ↔ c = d := by
  by_cases hc : c.val ≥ 'A'.val ∧ c.val ≤ 'Z'.val
  · have hupper : c.isAlpha = true := Bool.or_eq_true_iff.mpr (.inl (decide_eq_true hc))
    have hlow : 65 ≤ c.val.toNat := hc.1
    have hhigh : c.val.toNat ≤ 90 := hc.2
    have hnat := toNat_toLower_of_capital hc
    have hsmall : 97 ≤ c.toLower.val.toNat ∧ c.toLower.val.toNat ≤ 122 := by omega
    have hlower : c.toLower.isLower = true :=
      Bool.and_eq_true_iff.mpr ⟨decide_eq_true hsmall.1, decide_eq_true hsmall.2⟩
    have hletter : c.toLower.isAlpha = true := Bool.or_eq_true_iff.mpr (.inr hlower)
    refine iff_of_false ?_ ?_
    · rintro rfl
      rw [hd] at hletter
      cases hletter
    · rintro rfl
      rw [hd] at hupper
      cases hupper
  · have hsame : c.toLower = c := dif_neg hc
    rw [hsame]

/-- Only a dot is folded to a dot. -/
theorem toLower_eq_dot_iff {c : Char} : c.toLower = '.' ↔ c = '.' :=
  toLower_eq_iff (by decide)

theorem toList_fold (s : String) : (fold s).toList = s.toList.map Char.toLower :=
  String.toList_map

/-- Alike texts, character by character. -/
theorem alike_iff_map {a b : String} :
    Alike a b ↔ a.toList.map Char.toLower = b.toList.map Char.toLower := by
  rw [Alike, ← String.toList_inj, toList_fold, toList_fold]

/-- A folded text holds a dot where the text does. -/
theorem dot_mem_map_toLower_iff {text : List Char} :
    '.' ∈ text.map Char.toLower ↔ '.' ∈ text := by
  simp [toLower_eq_dot_iff]

/-- Alike texts both hold a dot or both hold none. -/
theorem dot_mem_iff_of_alike {a b : String} (h : Alike a b) : '.' ∈ a.toList ↔ '.' ∈ b.toList := by
  rw [← dot_mem_map_toLower_iff, alike_iff_map.mp h, dot_mem_map_toLower_iff]

/-- What is alike to a text without dots holds none. -/
theorem dot_not_mem_of_alike {a b : String} (h : Alike a b) (hb : '.' ∉ b.toList) :
    '.' ∉ a.toList :=
  (dot_mem_iff_of_alike h).not.mpr hb

/-- The text of two segments with a dot between them. -/
def dotted (parent name : String) : String :=
  parent ++ "." ++ name

theorem toList_dotted (parent name : String) :
    (dotted parent name).toList = parent.toList ++ '.' :: name.toList := by
  simp [dotted]

/-- **Dotted texts are alike segment by segment**, if the first segments are such. -/
theorem alike_dotted_iff {p q n m : String} (hp : '.' ∉ p.toList) (hq : '.' ∉ q.toList) :
    Alike (dotted p n) (dotted q m) ↔ Alike p q ∧ Alike n m := by
  simp only [alike_iff_map, toList_dotted, List.map_append, List.map_cons]
  rw [← dot_mem_map_toLower_iff] at hp hq
  constructor
  · intro h
    exact append_cons_inj_of_not_mem hp hq h
  · rintro ⟨hfirst, hsecond⟩
    rw [hfirst, hsecond]

/-- A text that is alike to a dotted one is dotted itself. -/
theorem exists_dotted_of_alike {s parent name : String} (h : Alike s (dotted parent name)) :
    ∃ p n, s = dotted p n ∧ Alike p parent ∧ Alike n name := by
  rw [alike_iff_map, toList_dotted, List.map_append, List.map_cons] at h
  obtain ⟨front, back, hs, hfront, hback⟩ := List.map_eq_append_iff.mp h
  obtain ⟨c, rest, rfl, hc, hrest⟩ := List.map_eq_cons_iff.mp hback
  obtain rfl := toLower_eq_dot_iff.mp hc
  refine ⟨String.ofList front, String.ofList rest, ?_, ?_, ?_⟩
  · rw [← String.toList_inj, toList_dotted, hs, String.toList_ofList, String.toList_ofList]
  · rw [alike_iff_map, String.toList_ofList, hfront]
  · rw [alike_iff_map, String.toList_ofList, hrest]

/-! ### Segments -/

/-- Splitting at the dots is cutting at the first and splitting what stands behind it. -/
theorem splitOn_dot_eq (text : List Char) :
    text.splitOn '.' = (cutAtDot text).1 :: (cutAtDot text).2.elim [] (·.splitOn '.') := by
  have hcut := cutAtDot_text text
  have hfront := dot_not_mem_cutAtDot text
  cases hback : (cutAtDot text).2 with
  | none =>
      rw [hback, Option.elim_none, List.append_nil] at hcut
      rw [Option.elim_none, ← hcut, List.splitOn_eq_singleton (hcut ▸ hfront)]
  | some rest =>
      rw [hback, Option.elim_some] at hcut
      nth_rewrite 1 [hcut]
      rw [Option.elim_some, List.splitOn_append_cons_self_of_not_mem hfront]

namespace AttributePath

/-- A path by the segments of its text: one or two of them. -/
def ofSegments? : List (List Char) → Option AttributePath
  | [name] => some (.simple (String.ofList name))
  | [parent, name] => some (.part (String.ofList parent) (String.ofList name))
  | _ => none

/-- **Reading a path is splitting it at its dots.** -/
theorem ofChars?_eq_splitOn (text : List Char) :
    ofChars? text = ofSegments? (text.splitOn '.') := by
  rw [ofChars?, splitOn_dot_eq text]
  rcases cutAtDot text with ⟨front, _ | rest⟩
  · rfl
  · rw [Option.elim_some, splitOn_dot_eq rest]
    rcases hcut : cutAtDot rest with ⟨name, _ | more⟩
    · simp only [hcut]
      rfl
    · simp only [hcut]
      rw [Option.elim_some, splitOn_dot_eq more]
      rfl

/-- The segments of the path hold no dots. -/
def IsDotFree : AttributePath → Prop
  | simple name => '.' ∉ name.toList
  | part parent name => '.' ∉ parent.toList ∧ '.' ∉ name.toList

/-- The segments of a path. -/
def segments : AttributePath → List String
  | simple name => [name]
  | part parent name => [parent, name]

theorem length_segments_le (path : AttributePath) : path.segments.length ≤ 2 := by
  cases path with
  | simple name => exact Nat.le_succ 1
  | part parent name => exact Nat.le_refl 2

theorem hasEmptySegment_iff {path : AttributePath} :
    path.hasEmptySegment = true ↔ "" ∈ path.segments := by
  cases path with
  | simple name => rw [hasEmptySegment, segments, String.isEmpty_iff, List.mem_singleton, eq_comm]
  | part parent name =>
      simp only [hasEmptySegment, segments, Bool.or_eq_true, String.isEmpty_iff, List.mem_cons,
        List.not_mem_nil, or_false]
      exact or_congr eq_comm eq_comm

/-- The segments of a path that was read are those that its text is split into. -/
theorem segments_of_ofChars? {chars : List Char} {path : AttributePath}
    (h : ofChars? chars = some path) :
    (chars.splitOn '.').map String.ofList = path.segments := by
  rw [ofChars?_eq_splitOn] at h
  match hsplit : chars.splitOn '.' with
  | [] => rw [hsplit] at h; cases h
  | [name] | [parent, name] =>
      rw [hsplit] at h
      obtain rfl := Option.some.inj h
      rfl
  | _ :: _ :: _ :: _ => rw [hsplit] at h; cases h

/-- A path is read from a text exactly when it has the segments that the text is split into. -/
theorem ofChars?_eq_some_iff_segments {chars : List Char} {path : AttributePath} :
    ofChars? chars = some path ↔ (chars.splitOn '.').map String.ofList = path.segments := by
  refine ⟨segments_of_ofChars?, fun h => ?_⟩
  rw [ofChars?_eq_splitOn]
  cases path with
  | simple name =>
      obtain ⟨front, hsplit, rfl⟩ := List.map_eq_singleton_iff.mp h
      rw [hsplit, ofSegments?]
  | part parent name =>
      obtain ⟨front, rest, hsplit, rfl, hrest⟩ := List.map_eq_cons_iff.mp h
      obtain ⟨back, rfl, rfl⟩ := List.map_eq_singleton_iff.mp hrest
      rw [hsplit, ofSegments?]

/-- A text that is no path is split into more than two segments. -/
theorem two_lt_of_ofChars?_eq_none {chars : List Char} (h : ofChars? chars = none) :
    2 < (chars.splitOn '.').length := by
  rw [ofChars?_eq_splitOn] at h
  match hsplit : chars.splitOn '.' with
  | [] =>
      rw [splitOn_dot_eq] at hsplit
      cases hsplit
  | [_] | [_, _] => rw [hsplit] at h; cases h
  | _ :: _ :: _ :: more =>
      simp only [List.length_cons]
      omega

/-- The path that is read from a text is the one whose segments make that text. -/
theorem ofChars?_eq_some_iff {chars : List Char} {path : AttributePath} :
    ofChars? chars = some path ↔ path.IsDotFree ∧ path.text = chars := by
  constructor
  · intro h
    refine ⟨?_, text_of_ofChars? h⟩
    have hfront := dot_not_mem_cutAtDot chars
    rw [ofChars?] at h
    split at h
    · next name hcut =>
        obtain rfl := Option.some.inj h
        rw [hcut] at hfront
        simpa [IsDotFree] using hfront
    · next parent rest hcut =>
        have hback := dot_not_mem_cutAtDot rest
        split at h
        · next name hcut' =>
            obtain rfl := Option.some.inj h
            rw [hcut] at hfront
            rw [hcut'] at hback
            simpa [IsDotFree] using And.intro hfront hback
        · cases h
  · rintro ⟨hdots, rfl⟩
    cases path with
    | simple name => exact @ofChars?_text (.simple name) hdots
    | part parent name => exact @ofChars?_text (.part parent name) hdots

/-- A simple path is a text without dots. -/
theorem ofChars?_eq_simple_iff {s name : String} :
    ofChars? s.toList = some (.simple name) ↔ '.' ∉ s.toList ∧ s = name := by
  rw [ofChars?_eq_some_iff, IsDotFree, text, String.toList_inj]
  constructor
  · rintro ⟨hdot, rfl⟩
    exact ⟨hdot, rfl⟩
  · rintro ⟨hdot, rfl⟩
    exact ⟨hdot, rfl⟩

/-- A path to a part is a text with one dot. -/
theorem ofChars?_eq_part_iff {s parent name : String} :
    ofChars? s.toList = some (.part parent name) ↔
      ('.' ∉ parent.toList ∧ '.' ∉ name.toList) ∧ s = dotted parent name := by
  rw [ofChars?_eq_some_iff, IsDotFree, text, ← toList_dotted, String.toList_inj,
    eq_comm (a := s)]

end AttributePath

/-! ### Schema URNs -/

/-- The path is the URN, letter case aside, a colon, and some rest. -/
def Qualifies (urn : String) (path : List Char) : Prop :=
  Alike (String.ofList (path.take urn.length)) urn ∧ path[urn.length]? = some ':'

instance (urn : String) (path : List Char) : Decidable (Qualifies urn path) :=
  inferInstanceAs (Decidable (_ ∧ _))

/-- **What follows a schema URN**, by its length. -/
theorem afterUrn?_eq (urn : String) (path : List Char) :
    afterUrn? urn.toList path =
      if Qualifies urn path then some (path.drop (urn.length + 1)) else none := by
  have hlength : urn.toList.length = urn.length := String.length_toList
  split
  · next h =>
      obtain ⟨hfront, hcolon⟩ := h
      rw [afterUrn?_eq_some_iff]
      refine ⟨path.take urn.length, ?_, ?_⟩
      · obtain ⟨hlt, hget⟩ := List.getElem?_eq_some_iff.mp hcolon
        rw [← hget, ← List.drop_eq_getElem_cons hlt, List.take_append_drop]
      · rwa [alike_iff_map, String.toList_ofList] at hfront
  · next h =>
      rw [Option.eq_none_iff_forall_ne_some]
      intro rest hrest
      obtain ⟨front, rfl, hfront⟩ := afterUrn?_eq_some_iff.mp hrest
      have hsame : front.length = urn.length := by
        simpa only [List.length_map, hlength] using congrArg List.length hfront
      refine h ⟨?_, ?_⟩
      · rw [alike_iff_map, String.toList_ofList, List.take_left' hsame, hfront]
      · rw [← hsame, List.getElem?_append_right (Nat.le_refl _), Nat.sub_self]
        rfl

/-- A path begins with `urn:` when its first four characters are alike to that. -/
theorem isUrnQualified_iff {path : List Char} :
    isUrnQualified path = true ↔ Alike (String.ofList (path.take 4)) "urn:" := by
  rw [isUrnQualified, Option.isSome_iff_exists, alike_iff_map, String.toList_ofList]
  constructor
  · rintro ⟨rest, hrest⟩
    obtain ⟨front, rfl, hfront⟩ := after?_eq_some_iff.mp hrest
    have hlength : front.length = urnScheme.length := by
      simpa only [List.length_map] using congrArg List.length hfront
    have htake : (front ++ rest).take 4 = front := List.take_left' hlength
    rw [htake, hfront]
    rfl
  · intro h
    refine ⟨path.drop 4, after?_eq_some_iff.mpr ⟨path.take 4, ?_, h⟩⟩
    exact (List.take_append_drop 4 path).symm

end ScimDirectory
