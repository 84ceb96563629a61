import ScimDirectory.Proofs.Path

/-!
# Entries by position, texts by byte offset

Look-ups go through positions in a list of entries, and a path is compared with a URN by cutting its
bytes at an offset. Neither access is total: there may be no entry at a position, and an offset may
lie within a character or behind the text. This module has both with that failure in sight, and
shows that comparing the beginning of a path with a URN never meets it and finds what a comparison
character by character finds.

The offset is not taken from the path but from the URN, so that it may lie anywhere in the path.
The second cut is safe because the first one was made at the same offset and found a text there.

## Main results

* `frontTo?_eq_some_iff`, `backFrom_eq_ok_iff`: the two sides of a cut at a byte offset.
* `Alike.utf8ByteSize_eq`: alike texts take the same number of bytes.
* `stripUrn_eq`, `hasScheme_eq`: **comparing with a URN by byte offsets never fails**, and finds
  what is found character by character.
-/

namespace ScimDirectory

/-- An access to what is not there. -/
inductive AccessError where
  /-- There is no entry at the position. -/
  | outOfRange (position : Nat)
  /-- No character ends at the byte offset. -/
  | offBoundary (offset : Nat)
deriving DecidableEq, Repr

/-- The entry at a position. -/
def entryAt {α : Type} (entries : Array α) (position : Nat) : Except AccessError α :=
  match entries[position]? with
  | some entry => return entry
  | none => throw (.outOfRange position)

theorem entryAt_eq_ok_iff {α : Type} {entries : Array α} {position : Nat} {entry : α} :
    entryAt entries position = .ok entry ↔ entries[position]? = some entry := by
  rw [entryAt]
  cases entries[position]? with
  | none => exact iff_of_false (by rintro ⟨⟩) (by rintro ⟨⟩)
  | some found => exact ⟨fun h => congrArg some (Except.ok.inj h), fun h => by cases h; rfl⟩

/-! ### Cutting at a byte offset -/

/-- The text before a byte offset, if a character ends there. -/
def frontTo? (text : String) (offset : Nat) : Option String :=
  (text.pos? ⟨offset⟩).map fun position => (text.sliceTo position).copy

/-- The text behind a byte offset, at which a character has to end. -/
def backFrom (text : String) (offset : Nat) : Except AccessError String :=
  match text.pos? ⟨offset⟩ with
  | some position => return (text.sliceFrom position).copy
  | none => throw (.offBoundary offset)

section Cut

variable {text front back : String} {offset : Nat}

/-- A text can be cut at a byte offset exactly where that is one of its positions. -/
theorem pos?_eq_some_iff {position : text.Pos} :
    text.pos? ⟨offset⟩ = some position ↔ position.offset = ⟨offset⟩ := by
  simp only [String.pos?, String.Slice.pos?, Option.map_eq_some_iff]
  constructor
  · rintro ⟨found, hfound, rfl⟩
    split at hfound
    · obtain rfl := Option.some.inj hfound
      rfl
    · cases hfound
  · intro h
    have hvalid : String.Pos.Raw.isValidForSlice text.toSlice ⟨offset⟩ = true := by
      rw [← h, String.Pos.Raw.isValidForSlice_eq_true_iff,
        String.Pos.Raw.isValidForSlice_toSlice_iff]
      exact position.isValid
    exact ⟨text.toSlice.pos ⟨offset⟩ (String.Pos.Raw.isValidForSlice_eq_true_iff.mp hvalid),
      dif_pos hvalid, String.Pos.ext h.symm⟩

/-- There is a position between two parts of a text, at the size of the first one in bytes. -/
theorem exists_splits_iff :
    (∃ position : text.Pos, text.pos? ⟨offset⟩ = some position ∧ position.Splits front back) ↔
      text = front ++ back ∧ front.utf8ByteSize = offset := by
  constructor
  · rintro ⟨position, hposition, hsplits⟩
    have hoffset := hsplits.offset_eq_rawEndPos
    rw [pos?_eq_some_iff.mp hposition] at hoffset
    exact ⟨hsplits.eq_append, (congrArg String.Pos.Raw.byteIdx hoffset).symm⟩
  · rintro ⟨rfl, rfl⟩
    have hvalid : String.Pos.Raw.IsValid (front ++ back) front.rawEndPos :=
      String.Pos.Raw.isValid_iff_exists_append.mpr ⟨front, back, rfl, rfl⟩
    exact ⟨(front ++ back).pos front.rawEndPos hvalid, pos?_eq_some_iff.mpr rfl, rfl, rfl⟩

/-- **What stands before a byte offset** is the front part of that size. -/
theorem frontTo?_eq_some_iff :
    frontTo? text offset = some front ↔
      ∃ back, text = front ++ back ∧ front.utf8ByteSize = offset := by
  simp only [← exists_splits_iff, frontTo?, Option.map_eq_some_iff,
    String.copy_sliceTo_eq_iff_exists_splits]
  constructor
  · rintro ⟨position, hposition, back, hsplits⟩
    exact ⟨back, position, hposition, hsplits⟩
  · rintro ⟨back, position, hposition, hsplits⟩
    exact ⟨position, hposition, back, hsplits⟩

/-- **What stands behind a byte offset** is what remains of the text without a part of that size. -/
theorem backFrom_eq_ok_iff :
    backFrom text offset = .ok back ↔
      ∃ front, text = front ++ back ∧ front.utf8ByteSize = offset := by
  have hcut : backFrom text offset = .ok back ↔
      ∃ position, text.pos? ⟨offset⟩ = some position ∧ (text.sliceFrom position).copy = back := by
    rw [backFrom]
    cases text.pos? ⟨offset⟩ with
    | none => exact iff_of_false (by rintro ⟨⟩) (by rintro ⟨_, ⟨⟩, _⟩)
    | some position =>
        constructor
        · intro h
          exact ⟨position, rfl, Except.ok.inj h⟩
        · rintro ⟨_, ⟨⟩, h⟩
          exact congrArg Except.ok h
  rw [hcut]
  simp only [← exists_splits_iff, String.copy_sliceFrom_eq_iff_exists_splits]
  constructor
  · rintro ⟨position, hposition, front, hsplits⟩
    exact ⟨front, position, hposition, hsplits⟩
  · rintro ⟨front, position, hposition, hsplits⟩
    exact ⟨position, hposition, front, hsplits⟩

/-- A cut that finds a text before the offset finds one behind it. -/
theorem exists_backFrom_of_frontTo? (h : frontTo? text offset = some front) :
    ∃ back, backFrom text offset = .ok back ∧ text = front ++ back := by
  obtain ⟨back, htext, hsize⟩ := frontTo?_eq_some_iff.mp h
  exact ⟨back, backFrom_eq_ok_iff.mpr ⟨front, htext, hsize⟩, htext⟩

end Cut

/-- The euro sign takes three bytes, so that this text cannot be cut behind its eighth byte. -/
example : frontTo? "urn:tea\u20ac" 8 = none ∧
    backFrom "urn:tea\u20ac" 8 = .error (.offBoundary 8) ∧
    backFrom "urn:tea\u20ac" 7 = .ok "\u20ac" := by decide +kernel

/-! ### Sizes in bytes -/

/-- Folding leaves the number of bytes of a character alone: a letter that changes has one. -/
theorem utf8Size_toLower (c : Char) : c.toLower.utf8Size = c.utf8Size := by
  by_cases hc : c.val ≥ 'A'.val ∧ c.val ≤ 'Z'.val
  · have hhigh : c.val.toNat ≤ 90 := hc.2
    have hnat := toNat_toLower_of_capital hc
    have hsmall : c.val.toNat ≤ 127 ∧ c.toLower.val.toNat ≤ 127 := by omega
    exact (Char.utf8Size_eq_one_iff.mpr hsmall.2).trans (Char.utf8Size_eq_one_iff.mpr hsmall.1).symm
  · have hsame : c.toLower = c := dif_neg hc
    rw [hsame]

/-- Folding leaves the number of bytes of a text alone. -/
theorem utf8ByteSize_map_toLower (text : List Char) :
    (String.ofList (text.map Char.toLower)).utf8ByteSize = (String.ofList text).utf8ByteSize := by
  induction text with
  | nil => rfl
  | cons c text ih =>
      rw [List.map_cons, String.ofList_cons, String.utf8ByteSize_append,
        String.utf8ByteSize_singleton, ih, utf8Size_toLower, String.ofList_cons,
        String.utf8ByteSize_append, String.utf8ByteSize_singleton]

/-- **Alike texts take the same number of bytes.** -/
theorem Alike.utf8ByteSize_eq {a b : String} (h : Alike a b) :
    a.utf8ByteSize = b.utf8ByteSize := by
  have ha := utf8ByteSize_map_toLower a.toList
  have hb := utf8ByteSize_map_toLower b.toList
  rw [String.ofList_toList] at ha hb
  rw [← ha, ← hb, alike_iff_map.mp h]

/-- Of two fronts of one text the one with fewer bytes has fewer characters. -/
theorem utf8ByteSize_lt_iff {a b text : List Char} (ha : a <+: text) (hb : b <+: text) :
    (String.ofList a).utf8ByteSize < (String.ofList b).utf8ByteSize ↔ a.length < b.length := by
  have hpos : ∀ more : List Char, 0 < (String.ofList more).utf8ByteSize ↔ 0 < more.length := by
    intro more
    rw [Nat.pos_iff_ne_zero, Nat.pos_iff_ne_zero, ne_eq, String.utf8ByteSize_eq_zero_iff,
      String.ofList_eq_empty_iff, ne_eq, List.length_eq_zero_iff]
  rcases List.prefix_or_prefix_of_prefix ha hb with ⟨more, rfl⟩ | ⟨more, rfl⟩
  · rw [String.ofList_append, String.utf8ByteSize_append, List.length_append,
      Nat.lt_add_right_iff_pos, Nat.lt_add_right_iff_pos, hpos]
  · rw [String.ofList_append, String.utf8ByteSize_append, List.length_append]
    exact iff_of_false (by omega) (by omega)

/-! ### Schema URNs -/

/-- What stands behind a colon. -/
def behindColon? : List Char → Option (List Char)
  | ':' :: rest => some rest
  | _ => none

/-- What follows a schema URN and its colon in a path, the path cut at as many bytes as the URN
takes. -/
def stripUrn (path urn : String) : Except AccessError (Option (List Char)) :=
  match frontTo? path urn.utf8ByteSize with
  | none => return none
  | some head => do
      if ¬ Alike head urn then return none
      let behind ← backFrom path urn.utf8ByteSize
      return behindColon? behind.toList

/-- The path begins with `urn:` in its first four bytes. -/
def hasScheme (path : String) : Bool :=
  (frontTo? path 4).any fun scheme => Alike scheme "urn:"

/-- What follows a head is what stands behind as many bytes as the head takes, if what stands before
them is alike to it. -/
theorem after?_eq_some_iff_backFrom {head path : String} {rest : List Char} :
    after? head.toList path.toList = some rest ↔
      ∃ front, frontTo? path head.utf8ByteSize = some front ∧ Alike front head ∧
        backFrom path head.utf8ByteSize = .ok (String.ofList rest) := by
  rw [after?_eq_some_iff]
  constructor
  · rintro ⟨front, hpath, hfront⟩
    have halike : Alike (String.ofList front) head := by
      rw [alike_iff_map, String.toList_ofList, hfront]
    have hcut : path = String.ofList front ++ String.ofList rest := by
      rw [← String.ofList_append, ← hpath, String.ofList_toList]
    exact ⟨String.ofList front, frontTo?_eq_some_iff.mpr ⟨_, hcut, halike.utf8ByteSize_eq⟩, halike,
      backFrom_eq_ok_iff.mpr ⟨_, hcut, halike.utf8ByteSize_eq⟩⟩
  · rintro ⟨front, hfront, halike, hback⟩
    obtain ⟨back, hback', rfl⟩ := exists_backFrom_of_frontTo? hfront
    obtain rfl := Except.ok.inj (hback'.symm.trans hback)
    refine ⟨front.toList, ?_, alike_iff_map.mp halike⟩
    rw [String.toList_append, String.toList_ofList]

/-- Nothing follows a head where what stands before as many bytes is not alike to it. -/
theorem after?_eq_none {head path : String}
    (h : ∀ front ∈ frontTo? path head.utf8ByteSize, ¬ Alike front head) :
    after? head.toList path.toList = none := by
  rw [Option.eq_none_iff_forall_ne_some]
  intro rest hrest
  obtain ⟨front, hfront, halike, -⟩ := after?_eq_some_iff_backFrom.mp hrest
  exact h front hfront halike

theorem afterUrn?_eq_bind (urn path : List Char) :
    afterUrn? urn path = (after? urn path).bind behindColon? := by
  rw [afterUrn?]
  split
  · next heq => rw [heq, Option.bind_some, behindColon?]
  · next hcolon =>
      cases hafter : after? urn path with
      | none => rfl
      | some behind =>
          rw [Option.bind_some]
          fun_cases behindColon? behind with
          | case1 rest => exact (hcolon rest hafter).elim
          | case2 => rfl

/-- **Stripping a URN by byte offsets never fails**, and leaves what follows it character by
character. -/
theorem stripUrn_eq (path urn : String) :
    stripUrn path urn = .ok (afterUrn? urn.toList path.toList) := by
  rw [afterUrn?_eq_bind, stripUrn]
  cases hfront : frontTo? path urn.utf8ByteSize with
  | none =>
      have hnone : after? urn.toList path.toList = none := after?_eq_none (by simp [hfront])
      rw [hnone]
      rfl
  | some head =>
      obtain ⟨back, hback, -⟩ := exists_backFrom_of_frontTo? hfront
      by_cases halike : Alike head urn
      · have hsome : after? urn.toList path.toList = some back.toList := by
          refine after?_eq_some_iff_backFrom.mpr ⟨head, hfront, halike, ?_⟩
          rw [hback, String.ofList_toList]
        simp only [hsome, if_neg (not_not_intro halike), hback]
        rfl
      · have hnone : after? urn.toList path.toList = none :=
          after?_eq_none (by simpa [hfront] using halike)
        simp only [hnone, if_pos halike]
        rfl

/-- A path begins with `urn:` in its first four bytes exactly where it does in its characters. -/
theorem hasScheme_eq (path : String) : hasScheme path = isUrnQualified path.toList := by
  rw [Bool.eq_iff_iff, isUrnQualified, Option.isSome_iff_exists, hasScheme, Option.any_eq_true]
  have hafter := fun rest => @after?_eq_some_iff_backFrom "urn:" path rest
  constructor
  · rintro ⟨scheme, hscheme, halike⟩
    obtain ⟨back, hback, -⟩ := exists_backFrom_of_frontTo? hscheme
    refine ⟨back.toList, (hafter back.toList).mpr ⟨scheme, hscheme, of_decide_eq_true halike, ?_⟩⟩
    rw [String.ofList_toList]
    exact hback
  · rintro ⟨rest, hrest⟩
    obtain ⟨scheme, hscheme, halike, -⟩ := (hafter rest).mp hrest
    exact ⟨scheme, hscheme, decide_eq_true halike⟩

/-- **Of two URNs that a path begins with the one with fewer bytes has fewer characters.** -/
theorem utf8ByteSize_lt_iff_of_afterUrn? {a b : String} {path rest rest' : List Char}
    (ha : afterUrn? a.toList path = some rest) (hb : afterUrn? b.toList path = some rest') :
    a.utf8ByteSize < b.utf8ByteSize ↔ a.length < b.length := by
  have hfront : ∀ {urn : String} {rest : List Char}, afterUrn? urn.toList path = some rest →
      ∃ front, front <+: path ∧ (String.ofList front).utf8ByteSize = urn.utf8ByteSize ∧
        front.length = urn.length := by
    intro urn rest h
    obtain ⟨front, rfl, hfold⟩ := afterUrn?_eq_some_iff.mp h
    have halike : Alike (String.ofList front) urn := by
      rw [alike_iff_map, String.toList_ofList, hfold]
    refine ⟨front, List.prefix_append front _, halike.utf8ByteSize_eq, ?_⟩
    simpa only [List.length_map, String.length_toList] using congrArg List.length hfold
  obtain ⟨front, hlead, hsize, hlength⟩ := hfront ha
  obtain ⟨front', hlead', hsize', hlength'⟩ := hfront hb
  rw [← hsize, ← hsize', ← hlength, ← hlength', utf8ByteSize_lt_iff hlead hlead']

end ScimDirectory
