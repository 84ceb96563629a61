import ScimDirectory.Text.LetterCase

/-!
# Attribute paths

A filter names an attribute by a path: one name, or the name of a complex attribute and of one of
its parts with a dot between them. Flat storage keeps one level of parts only, so a path with a
second dot cannot be addressed. A path may also begin with the URN of a schema.

## Main results

* `AttributePath.text_of_ofChars?`: reading a path loses nothing of its text.
* `AttributePath.ofChars?_text`: a path whose names hold no dot is read back from its text.
-/

namespace ScimDirectory

/-- The text up to the first dot, and what stands behind that dot if there is one. -/
def cutAtDot (text : List Char) : List Char × Option (List Char) :=
  (text.takeWhile (· != '.'), (text.dropWhile (· != '.')).tail?)

theorem cutAtDot_nil : cutAtDot [] = ([], none) := rfl

theorem cutAtDot_dot (rest : List Char) : cutAtDot ('.' :: rest) = ([], some rest) := rfl

theorem cutAtDot_cons {c : Char} (rest : List Char) (h : c ≠ '.') :
    cutAtDot (c :: rest) = (c :: (cutAtDot rest).1, (cutAtDot rest).2) := by
  simp [cutAtDot, h]

/-- A text without dots is not cut. -/
theorem cutAtDot_of_not_mem {text : List Char} (h : '.' ∉ text) :
    cutAtDot text = (text, none) := by
  induction text with
  | nil => rfl
  | cons c rest ih =>
      rw [List.mem_cons, not_or] at h
      rw [cutAtDot_cons rest (Ne.symm h.1), ih h.2]

/-- The cut falls at the first dot. -/
theorem cutAtDot_append {front : List Char} (rest : List Char) (h : '.' ∉ front) :
    cutAtDot (front ++ '.' :: rest) = (front, some rest) := by
  induction front with
  | nil => rfl
  | cons c front ih =>
      rw [List.mem_cons, not_or] at h
      rw [List.cons_append, cutAtDot_cons _ (Ne.symm h.1), ih h.2]

/-- What stands before the cut holds no dot. -/
theorem dot_not_mem_cutAtDot (text : List Char) : '.' ∉ (cutAtDot text).1 := by
  induction text with
  | nil => simp [cutAtDot_nil]
  | cons c rest ih =>
      by_cases hc : c = '.'
      · subst hc
        simp [cutAtDot_dot]
      · rw [cutAtDot_cons rest hc]
        simp only [List.mem_cons, not_or]
        exact ⟨Ne.symm hc, ih⟩

/-- The cut loses nothing but the dot it falls at. -/
theorem cutAtDot_text (text : List Char) :
    text = (cutAtDot text).1 ++ (cutAtDot text).2.elim [] ('.' :: ·) := by
  induction text with
  | nil => rfl
  | cons c rest ih =>
      by_cases hc : c = '.'
      · subst hc
        simp [cutAtDot_dot]
      · rw [cutAtDot_cons rest hc, List.cons_append, ← ih]

/-- A path to an attribute: an attribute by its name, or one part of a complex attribute. -/
inductive AttributePath where
  | simple (name : String)
  | part (parent name : String)
deriving DecidableEq, Repr

namespace AttributePath

/-- The path written as `text`, if it has at most two segments. A segment may be empty. -/
def ofChars? (text : List Char) : Option AttributePath :=
  match cutAtDot text with
  | (name, none) => some (.simple (String.ofList name))
  | (parent, some rest) =>
      match cutAtDot rest with
      | (name, none) => some (.part (String.ofList parent) (String.ofList name))
      | (_, some _) => none

/-- The text of a path, its segments joined by a dot. -/
def text : AttributePath → List Char
  | simple name => name.toList
  | part parent name => parent.toList ++ '.' :: name.toList

/-- The last segment of a path, under which the attribute is declared. -/
def leaf : AttributePath → String
  | simple name => name
  | part _ name => name

/-- Some segment of the path is empty. -/
def hasEmptySegment : AttributePath → Bool
  | simple name => name.isEmpty
  | part parent name => parent.isEmpty || name.isEmpty

/-- **Reading a path loses nothing**: its text is the text that was read. -/
theorem text_of_ofChars? {chars : List Char} {path : AttributePath}
    (h : ofChars? chars = some path) : path.text = chars := by
  rw [ofChars?] at h
  have hcut := cutAtDot_text chars
  split at h
  · next name heq =>
      obtain rfl := Option.some.inj h
      rw [heq] at hcut
      simpa [text] using hcut.symm
  · next parent rest heq =>
      have hrest := cutAtDot_text rest
      split at h
      · next name heq' =>
          obtain rfl := Option.some.inj h
          rw [heq] at hcut
          rw [heq'] at hrest
          simp only [Option.elim_some, Option.elim_none, List.append_nil] at hcut hrest
          rw [hcut, text, hrest]
          simp
      · simp at h

/-- **A path is read back from its text** when no name in it holds a dot. -/
theorem ofChars?_text {path : AttributePath}
    (h : match path with
      | simple name => '.' ∉ name.toList
      | part parent name => '.' ∉ parent.toList ∧ '.' ∉ name.toList) :
    ofChars? path.text = some path := by
  cases path with
  | simple name => simp [ofChars?, text, cutAtDot_of_not_mem h]
  | part parent name =>
      simp [ofChars?, text, cutAtDot_append _ h.1, cutAtDot_of_not_mem h.2]

end AttributePath

/-- What marks a path as qualified by a schema URN. -/
def urnScheme : List Char :=
  ['u', 'r', 'n', ':']

/-- The path begins with `urn:` in any letter case. -/
def isUrnQualified (path : List Char) : Bool :=
  (after? urnScheme path).isSome

/-- What follows a schema URN and the colon behind it at the beginning of a path. -/
def afterUrn? (urn path : List Char) : Option (List Char) :=
  match after? urn path with
  | some (':' :: rest) => some rest
  | _ => none

/-- A path qualified by a URN is that URN, letter case aside, a colon and the rest. -/
theorem afterUrn?_eq_some_iff {urn path rest : List Char} :
    afterUrn? urn path = some rest ↔
      ∃ front, path = front ++ ':' :: rest ∧
        front.map Char.toLower = urn.map Char.toLower := by
  rw [afterUrn?]
  constructor
  · intro h
    split at h
    · next rest' heq =>
        obtain rfl := Option.some.inj h
        exact after?_eq_some_iff.1 heq
    · simp at h
  · intro h
    rw [after?_eq_some_iff.2 h]
    rfl

end ScimDirectory
