import ScimDirectory.Json.Reader

/-!
# Reading undoes printing

The compact text of a value, whatever stands behind it, is read as that value and the text behind
it. This is said of plain values, in which there are no numbers: a numeral has no end of its own, so
what stands behind it matters, and no document here holds one.

The reader is given fuel. A value takes two units for each of its characters at most, which is the
invariant of the induction: it goes over the value, its items and its members together, as the
printer does.

## Main definitions

* `Json.isPlain`: a value without numbers that is nested no deeper than some room allows.

## Main results

* `Json.readString_content`: a string is read back, its escapes undone.
* `Json.readValue_chars`: **a value is read back**, with enough fuel.
* `Json.read_text`: the text of a value is read as that value, and the reader has enough fuel.
* `Json.isSound_ofJson`: a plain value is a sound draft.
-/

namespace ScimDirectory.Json

/-! ### Strings -/

/-- A hexadecimal digit has its value. -/
theorem hexValue?_hexChar {n : Nat} (h : n < 16) : hexValue? (hexChar n) = some n := by
  have hall : ∀ n < 16, hexValue? (hexChar n) = some n := by decide
  exact hall n h

/-- A code unit below the surrogates stands for itself, whatever follows it. -/
theorem joinPieces_unit {value : Nat} (h : value < 0xD800) (pieces : List Piece) :
    joinPieces (.unit value :: pieces) = (joinPieces pieces).map (Char.ofNat value :: ·) := by
  have hhigh : isHighSurrogate value = false := by
    simp [isHighSurrogate]
    omega
  have hlow : isLowSurrogate value = false := by
    simp [isLowSurrogate]
    omega
  rcases pieces with - | ⟨piece, more⟩
  · simp [joinPieces, hhigh, hlow]
  · cases piece with
    | char c => simp [joinPieces, hhigh, hlow]
    | unit next => simp [joinPieces, hhigh, hlow]

/-- The piece as which a character is read back: control characters come as code units. -/
def pieceOf (c : Char) : Piece :=
  if c.toNat < 0x20 ∧ c ∉ ['\n', '\r', '\t', '\x08', '\x0c'] then .unit c.toNat else .char c

/-- The piece stands for its character. -/
theorem joinPieces_pieceOf (c : Char) (pieces : List Piece) :
    joinPieces (pieceOf c :: pieces) = (joinPieces pieces).map (c :: ·) := by
  rw [pieceOf]
  split
  · next h => rw [joinPieces_unit (by omega), Char.ofNat_toNat]
  · rfl

/-- A character that needs no escape is read as itself. -/
theorem readPieces_cons {c : Char} {text rest : List Char} {pieces : List Piece}
    (hquote : c ≠ '"') (hslash : c ≠ '\\') (hcontrol : ¬ c.toNat < 0x20)
    (h : readPieces text = some (pieces, rest)) :
    readPieces (c :: text) = some (.char c :: pieces, rest) := by
  rw [readPieces]
  · simp [h, hslash, hcontrol]
  -- the earlier cases of the reader begin with a quote or a backslash
  all_goals simp_all

/-- A control character is read from its number. -/
theorem readPieces_control {c : Char} {text rest : List Char} {pieces : List Piece}
    (hcontrol : c.toNat < 0x20) (h : readPieces text = some (pieces, rest)) :
    readPieces ('\\' :: 'u' :: '0' :: '0' :: hexChar (c.toNat / 16) :: hexChar (c.toNat % 16) ::
      text) = some (.unit c.toNat :: pieces, rest) := by
  have hvalue : unitValue? '0' '0' (hexChar (c.toNat / 16)) (hexChar (c.toNat % 16)) =
      some c.toNat := by
    have hzero : hexValue? '0' = some 0 := by decide
    rw [unitValue?, hzero, hexValue?_hexChar (by omega), hexValue?_hexChar (by omega)]
    simp
    omega
  rw [readPieces, hvalue, h]
  rfl

/-- **One character is read back** as its piece. -/
theorem readPieces_quoteChar {c : Char} {text rest : List Char} {pieces : List Piece}
    (h : readPieces text = some (pieces, rest)) :
    readPieces (quoteChar c ++ text) = some (pieceOf c :: pieces, rest) := by
  -- control characters, characters as they are, and those with an escape of one letter
  fun_cases quoteChar c
  case case8 hnewline hreturn htab hback hfeed hcontrol =>
    have hpiece : pieceOf c = .unit c.toNat := if_pos ⟨hcontrol, by simp_all⟩
    rw [hpiece]
    exact readPieces_control hcontrol h
  case case9 hquote hslash _ _ _ _ _ hcontrol =>
    have hpiece : pieceOf c = .char c := if_neg fun hunit => hcontrol hunit.1
    rw [hpiece]
    exact readPieces_cons hquote hslash hcontrol h
  all_goals simp [readPieces, unescape?, h, pieceOf]

/-- **A string is read back**, up to its closing quote. -/
theorem readString_content (s : String) (rest : List Char) :
    readString (s.toList.flatMap quoteChar ++ '"' :: rest) = some (some s, rest) := by
  have hpieces : ∀ content : List Char,
      readPieces (content.flatMap quoteChar ++ '"' :: rest) =
          some (content.map pieceOf, rest) ∧
        joinPieces (content.map pieceOf) = some content := by
    intro content
    induction content with
    | nil => exact ⟨by simp [readPieces], rfl⟩
    | cons c content ih =>
        obtain ⟨hread, hjoin⟩ := ih
        constructor
        · rw [List.flatMap_cons, List.append_assoc, readPieces_quoteChar hread, List.map_cons]
        · rw [List.map_cons, joinPieces_pieceOf, hjoin, Option.map_some]
  obtain ⟨hread, hjoin⟩ := hpieces s.toList
  simp [readString, hread, hjoin]

/-! ### One step of the reader -/

section Steps

variable {fuel : Nat} {text behind rest : List Char}

theorem skipGap_cons {c : Char} (h : isGap c = false) : skipGap (c :: text) = c :: text := by
  simp [skipGap, h]

theorem readValue_string {value : Option String} (h : readString text = some (value, rest)) :
    readValue (fuel + 1) ('"' :: text) = (.string value, some rest) := by
  rw [readValue, skipGap_cons rfl]
  simp [h]

/-- An array that holds something is read item by item. -/
theorem readValue_array {c : Char} (hgap : isGap c = false) (hclose : c ≠ ']') {items : List Draft}
    (h : readItems fuel (c :: text) = (items, some rest)) :
    readValue (fuel + 1) ('[' :: c :: text) = (.array items true, some rest) := by
  rw [readValue, skipGap_cons rfl]
  simp [skipGap_cons hgap, h, hclose]

/-- An object that holds something is read member by member. -/
theorem readValue_object {members : List (Option String × Draft)}
    (h : readMembers fuel ('"' :: text) = (members, some rest)) :
    readValue (fuel + 1) ('\x7b' :: '"' :: text) = (.object members true, some rest) := by
  rw [readValue, skipGap_cons rfl]
  simp [skipGap_cons, isGap, h]

/-- The last item of an array. -/
theorem readItems_last {item : Draft} (h : readValue fuel text = (item, some (']' :: rest))) :
    readItems (fuel + 1) text = ([item], some rest) := by
  rw [readItems, h]
  simp [skipGap_cons, isGap]

/-- An item that others follow. -/
theorem readItems_comma {item : Draft} {items : List Draft}
    (h : readValue fuel text = (item, some (',' :: behind)))
    (hmore : readItems fuel behind = (items, some rest)) :
    readItems (fuel + 1) text = (item :: items, some rest) := by
  rw [readItems, h]
  simp [skipGap_cons, isGap, hmore]

/-- The last member of an object. -/
theorem readMembers_last {key : Option String} {value : Draft}
    (hkey : readString text = some (key, ':' :: behind))
    (h : readValue fuel behind = (value, some ('\x7d' :: rest))) :
    readMembers (fuel + 1) ('"' :: text) = ([(key, value)], some rest) := by
  rw [readMembers, skipGap_cons rfl]
  simp [hkey, skipGap_cons, isGap, h]

/-- A member that others follow. -/
theorem readMembers_comma {key : Option String} {value : Draft}
    {members : List (Option String × Draft)} {next : List Char}
    (hkey : readString text = some (key, ':' :: behind))
    (h : readValue fuel behind = (value, some (',' :: next)))
    (hmore : readMembers fuel next = (members, some rest)) :
    readMembers (fuel + 1) ('"' :: text) = ((key, value) :: members, some rest) := by
  rw [readMembers, skipGap_cons rfl]
  simp [hkey, skipGap_cons, isGap, h, hmore]

end Steps

/-! ### Plain values -/

mutual

/-- There are no numbers in the value, and it is nested no deeper than `room` allows. -/
def isPlain (room : Nat) : Json → Bool
  | null | bool _ | string _ => true
  | number _ => false
  | array items => room ≠ 0 && itemsPlain (room - 1) items
  | object members => room ≠ 0 && membersPlain (room - 1) members

/-- The items are plain. -/
def itemsPlain (room : Nat) : List Json → Bool
  | [] => true
  | item :: more => item.isPlain room && itemsPlain room more

/-- The members are plain. -/
def membersPlain (room : Nat) : List (String × Json) → Bool
  | [] => true
  | (_, value) :: more => value.isPlain room && membersPlain room more

end

/-- The text of a plain value begins with a character that is neither a gap nor a bracket that
closes an array. -/
theorem exists_chars_eq_cons {room : Nat} {value : Json} (h : value.isPlain room = true) :
    ∃ c more, value.chars = c :: more ∧ isGap c = false ∧ c ≠ ']' := by
  cases value with
  | null => exact ⟨'n', _, rfl, rfl, by decide⟩
  | bool value => cases value <;> exact ⟨_, _, rfl, rfl, by decide⟩
  | number value => cases h
  | string value => exact ⟨'"', _, rfl, rfl, by decide⟩
  | array items => exact ⟨'[', _, rfl, rfl, by decide⟩
  | object members => exact ⟨'\x7b', _, rfl, rfl, by decide⟩

/-- The items of an array that holds something begin likewise. -/
theorem exists_itemsChars_eq_cons {room : Nat} {item : Json} (h : item.isPlain room = true)
    (more : List Json) :
    ∃ c text, itemsChars (item :: more) = c :: text ∧ isGap c = false ∧ c ≠ ']' := by
  obtain ⟨c, text, hchars, hgap, hclose⟩ := exists_chars_eq_cons h
  cases more with
  | nil => exact ⟨c, text, hchars, hgap, hclose⟩
  | cons next more =>
      exact ⟨c, _, by rw [itemsChars, hchars, List.cons_append], hgap, hclose⟩

/-- The members of an object that holds something begin with a quote. -/
theorem exists_membersChars_eq_cons (member : String × Json) (more : List (String × Json)) :
    ∃ text, membersChars (member :: more) = '"' :: text := by
  cases more with
  | nil => exact ⟨_, rfl⟩
  | cons next more => exact ⟨_, rfl⟩

mutual

/-- **A value is read back**, with whatever stands behind it. -/
theorem readValue_chars : ∀ (value : Json) {room fuel : Nat} {rest : List Char},
    value.isPlain room = true → 2 * value.chars.length ≤ fuel →
      readValue fuel (value.chars ++ rest) = (.ofJson value, some rest)
  | .null, _, fuel + 1, rest, _, _ => by
      rw [readValue]
      rfl
  | .bool true, _, fuel + 1, rest, _, _ => by
      rw [readValue]
      rfl
  | .bool false, _, fuel + 1, rest, _, _ => by
      rw [readValue]
      rfl
  | .string value, _, fuel + 1, rest, _, _ => by
      have htext : (Json.string value).chars ++ rest =
          '"' :: (value.toList.flatMap quoteChar ++ '"' :: rest) := by
        simp [chars, quote]
      rw [htext]
      exact readValue_string (readString_content value rest)
  | .array [], _, fuel + 1, rest, _, _ => by
      rw [readValue]
      rfl
  | .array (item :: more), room, fuel + 1, rest, hplain, hfuel => by
      have hitemsPlain : itemsPlain (room - 1) (item :: more) = true :=
        (Bool.and_eq_true_iff.mp hplain).2
      have hitems : readItems fuel (itemsChars (item :: more) ++ ']' :: rest) =
          (Draft.ofItems (item :: more), some rest) := by
        -- the brackets leave four units over, of which this step takes one
        refine readItems_chars _ (List.cons_ne_nil _ _) hitemsPlain ?_
        simp only [chars, List.length_append, List.length_cons, List.length_nil] at hfuel
        omega
      obtain ⟨c, text, hchars, hgap, hclose⟩ :=
        exists_itemsChars_eq_cons (Bool.and_eq_true_iff.mp hitemsPlain).1 more
      have htext : (Json.array (item :: more)).chars ++ rest =
          '[' :: c :: (text ++ ']' :: rest) := by
        simp [chars, hchars]
      rw [hchars] at hitems
      rw [htext]
      exact readValue_array hgap hclose hitems
  | .object [], _, fuel + 1, rest, _, _ => by
      rw [readValue]
      rfl
  | .object (member :: more), room, fuel + 1, rest, hplain, hfuel => by
      have hmembers : readMembers fuel (membersChars (member :: more) ++ '\x7d' :: rest) =
          (Draft.ofMembers (member :: more), some rest) := by
        refine readMembers_chars _ (List.cons_ne_nil _ _) (Bool.and_eq_true_iff.mp hplain).2 ?_
        simp only [chars, List.length_append, List.length_cons, List.length_nil] at hfuel
        omega
      obtain ⟨text, hchars⟩ := exists_membersChars_eq_cons member more
      have htext : (Json.object (member :: more)).chars ++ rest =
          '\x7b' :: '"' :: (text ++ '\x7d' :: rest) := by
        simp [chars, hchars]
      rw [hchars] at hmembers
      rw [htext]
      exact readValue_object hmembers

/-- **The items of an array are read back**, up to its closing bracket. -/
theorem readItems_chars : ∀ (items : List Json) {room fuel : Nat} {rest : List Char},
    items ≠ [] → itemsPlain room items = true → 2 * (itemsChars items).length + 1 ≤ fuel →
      readItems fuel (itemsChars items ++ ']' :: rest) = (Draft.ofItems items, some rest)
  | [item], room, fuel + 1, rest, _, hplain, hfuel => by
      have hitem := (Bool.and_eq_true_iff.mp hplain).1
      exact readItems_last (readValue_chars item hitem (Nat.le_of_succ_le_succ hfuel))
  | item :: next :: more, room, fuel + 1, rest, _, hplain, hfuel => by
      obtain ⟨hitem, hmore⟩ := Bool.and_eq_true_iff.mp hplain
      have htext : itemsChars (item :: next :: more) ++ ']' :: rest =
          item.chars ++ ',' :: (itemsChars (next :: more) ++ ']' :: rest) := by
        simp [itemsChars]
      simp only [itemsChars, List.length_append, List.length_cons] at hfuel
      rw [htext]
      refine readItems_comma (readValue_chars item hitem ?_)
        (readItems_chars (next :: more) (List.cons_ne_nil _ _) hmore ?_)
      · omega
      · omega

/-- **The members of an object are read back**, up to its closing brace. -/
theorem readMembers_chars : ∀ (members : List (String × Json)) {room fuel : Nat} {rest : List Char},
    members ≠ [] → membersPlain room members = true →
      2 * (membersChars members).length + 1 ≤ fuel →
      readMembers fuel (membersChars members ++ '\x7d' :: rest) =
        (Draft.ofMembers members, some rest)
  | [(key, value)], room, fuel + 1, rest, _, hplain, hfuel => by
      have hvalue := (Bool.and_eq_true_iff.mp hplain).1
      have htext : membersChars [(key, value)] ++ '\x7d' :: rest =
          '"' :: (key.toList.flatMap quoteChar ++ '"' :: ':' ::
            (value.chars ++ '\x7d' :: rest)) := by
        simp [membersChars, quote]
      simp only [membersChars, List.length_append, List.length_cons] at hfuel
      rw [htext]
      refine readMembers_last (readString_content key _) (readValue_chars value hvalue ?_)
      omega
  | (key, value) :: next :: more, room, fuel + 1, rest, _, hplain, hfuel => by
      obtain ⟨hvalue, hmore⟩ := Bool.and_eq_true_iff.mp hplain
      have htext : membersChars ((key, value) :: next :: more) ++ '\x7d' :: rest =
          '"' :: (key.toList.flatMap quoteChar ++ '"' :: ':' ::
            (value.chars ++ ',' :: (membersChars (next :: more) ++ '\x7d' :: rest))) := by
        simp [membersChars, quote]
      simp only [membersChars, List.length_append, List.length_cons] at hfuel
      rw [htext]
      refine readMembers_comma (readString_content key _) (readValue_chars value hvalue ?_)
        (readMembers_chars (next :: more) (List.cons_ne_nil _ _) hmore ?_)
      · omega
      · omega

end

/-- **The text of a value is read as that value**, to its end. -/
theorem read_text {room : Nat} {value : Json} (h : value.isPlain room = true) :
    read value.text.toList = (.ofJson value, some []) := by
  have hread : readValue (2 * value.chars.length + 2) (value.chars ++ []) =
      (.ofJson value, some []) :=
    readValue_chars value h (Nat.le_add_right _ _)
  rw [read, text, String.toList_ofList]
  rwa [List.append_nil] at hread

mutual

/-- **A plain value is a sound draft.** -/
theorem isSound_ofJson : ∀ (value : Json) {room : Nat}, value.isPlain room = true →
    (Draft.ofJson value).isSound room = true
  | .null, _, _ => rfl
  | .bool _, _, _ => rfl
  | .string _, _, _ => rfl
  | .array items, room, h => by
      obtain ⟨hroom, hitems⟩ := Bool.and_eq_true_iff.mp h
      rw [Draft.ofJson, Draft.isSound, hroom, itemsSound_ofItems items hitems]
      rfl
  | .object members, room, h => by
      obtain ⟨hroom, hmembers⟩ := Bool.and_eq_true_iff.mp h
      rw [Draft.ofJson, Draft.isSound, hroom, membersSound_ofMembers members hmembers]
      rfl

theorem itemsSound_ofItems : ∀ (items : List Json) {room : Nat}, itemsPlain room items = true →
    Draft.itemsSound room (Draft.ofItems items) = true
  | [], _, _ => rfl
  | item :: more, room, h => by
      obtain ⟨hitem, hmore⟩ := Bool.and_eq_true_iff.mp h
      rw [Draft.ofItems, Draft.itemsSound, isSound_ofJson item hitem, itemsSound_ofItems more hmore]
      rfl

theorem membersSound_ofMembers : ∀ (members : List (String × Json)) {room : Nat},
    membersPlain room members = true →
      Draft.membersSound room (Draft.ofMembers members) = true
  | [], _, _ => rfl
  | (key, value) :: more, room, h => by
      obtain ⟨hvalue, hmore⟩ := Bool.and_eq_true_iff.mp h
      rw [Draft.ofMembers, Draft.membersSound, isSound_ofJson value hvalue,
        membersSound_ofMembers more hmore]
      rfl

end

/-- A list of plain values is plain. -/
theorem itemsPlain_map_of_mem {α : Type} {toJson : α → Json} {room : Nat} {xs : List α}
    (h : ∀ x ∈ xs, (toJson x).isPlain room = true) : itemsPlain room (xs.map toJson) = true := by
  induction xs with
  | nil => rfl
  | cons x xs ih =>
      rw [List.forall_mem_cons] at h
      rw [List.map_cons, itemsPlain, h.1, ih h.2, Bool.and_self]

theorem itemsPlain_map {α : Type} {toJson : α → Json} {room : Nat}
    (h : ∀ x, (toJson x).isPlain room = true) (xs : List α) :
    itemsPlain room (xs.map toJson) = true :=
  itemsPlain_map_of_mem fun x _ => h x

end ScimDirectory.Json
