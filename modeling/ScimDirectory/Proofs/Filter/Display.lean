import ScimDirectory.Filter.Basic

/-!
# Displayed filters can be read back

A filter is shown in the filter language for the log. Nothing is escaped there, so a displayed
filter determines its tree only if the signs of the language can be told from names and literals:
a name is what stands before the next sign, a literal what stands before the next quote. Under that
condition alone no two trees have one text, whatever the words in names and literals are: `not` and
`pr` may be paths and operators, and a literal may look like a filter.

This is shown by a reader. It goes through a text once from the left, and needs as much fuel as the
tree is deep; the induction is on that fuel. Its invariant is what the reader meets at the end of a
tree: nothing, or a sign that does not continue the tree, as a blank and a quote would continue a
presence test to a comparison.

## Main definitions

* `Filter.IsReadable`: names hold no sign of the language and literals no quote.
* `Filter.read?`: the reader.

## Main results

* `Filter.read?_text`: **the reader undoes the display**, whatever follows the filter.
* `Filter.text_inj`: displayed filters determine their trees.
-/

namespace ScimDirectory

/-- A text is cut where a test first fails. -/
theorem cut_append {p : Char → Bool} {front rest : List Char} (hfront : ∀ c ∈ front, p c = true)
    (hrest : ∀ c ∈ rest.head?, p c = false) :
    (front ++ rest).takeWhile p = front ∧ (front ++ rest).dropWhile p = rest := by
  rw [List.takeWhile_append_of_pos hfront, List.dropWhile_append_of_pos hfront]
  cases rest with
  | nil => simp
  | cons c rest => simp [hrest c rfl]

/-! ### Names and literals -/

/-- The character is none of the signs of the filter language, and may stand in a name. -/
def isNameChar (c : Char) : Bool :=
  c ∉ [' ', '"', '(', ')', '[', ']']

/-- No sign of the filter language stands in the name. -/
def IsSignless (name : String) : Prop :=
  ∀ c ∈ name.toList, isNameChar c = true

instance (name : String) : Decidable (IsSignless name) :=
  List.decidableBAll (isNameChar · = true) name.toList

/-- The name at the beginning of a text, and what follows it. -/
def splitName (text : List Char) : String × List Char :=
  (String.ofList (text.takeWhile isNameChar), text.dropWhile isNameChar)

/-- The literal up to the next quote, and what follows the quote. -/
def splitLiteral? (text : List Char) : Option (String × List Char) :=
  match text.dropWhile (· != '"') with
  | [] => none
  | _ :: rest => some (String.ofList (text.takeWhile (· != '"')), rest)

/-- **A name is read back** if a sign follows it, or nothing. -/
theorem splitName_append {name : String} (hname : IsSignless name) {rest : List Char}
    (hrest : ∀ c ∈ rest.head?, isNameChar c = false) :
    splitName (name.toList ++ rest) = (name, rest) := by
  obtain ⟨htake, hdrop⟩ := cut_append hname hrest
  rw [splitName, htake, hdrop, String.ofList_toList]

theorem splitName_sign {name : String} (hname : IsSignless name) {c : Char}
    (hc : isNameChar c = false) (rest : List Char) :
    splitName (name.toList ++ c :: rest) = (name, c :: rest) :=
  splitName_append hname (by simpa using hc)

/-- **A literal is read back** if it holds no quote. -/
theorem splitLiteral?_append {value : String} (hvalue : '"' ∉ value.toList) (rest : List Char) :
    splitLiteral? (value.toList ++ '"' :: rest) = some (value, rest) := by
  have hfront : ∀ c ∈ value.toList, (c != '"') = true := fun c hc =>
    bne_iff_ne.mpr fun heq => hvalue (heq ▸ hc)
  have hrest : ∀ c ∈ ('"' :: rest).head?, (c != '"') = false := by simp
  obtain ⟨htake, hdrop⟩ := cut_append hfront hrest
  rw [splitLiteral?, htake, hdrop, String.ofList_toList]

namespace Filter

/-! ### The reader -/

/-- What follows a character that has to stand at the beginning of a text. -/
def behind? (c : Char) : List Char → Option (List Char)
  | d :: rest => if d = c then some rest else none
  | [] => none

/-- The binary node that stands between two operands, and what follows it. -/
def connective? : List Char → Option ((Filter → Filter → Filter) × List Char)
  | ' ' :: 'a' :: 'n' :: 'd' :: ' ' :: rest => some (and, rest)
  | ' ' :: 'o' :: 'r' :: ' ' :: rest => some (or, rest)
  | _ => none

/-- The leaf on a path, and what follows it: behind an operator stands a literal in quotes, unless
it is the word for presence and no quote is there. -/
def readLeaf? (path : String) (text : List Char) : Option (Filter × List Char) :=
  match splitName text with
  | (token, ' ' :: '"' :: rest) => do
      let (value, rest) ← splitLiteral? rest
      return (compare path token value, rest)
  | (token, rest) => if token = "pr" then some (present path, rest) else none

/-- **Read a displayed filter**: the tree at the beginning of a text, and what follows it. What
stands before the first sign and the sign tell which kind of tree it is. -/
def read? : (fuel : Nat) → List Char → Option (Filter × List Char)
  | 0, _ => none
  | fuel + 1, text =>
      match splitName text with
      | (word, '(' :: rest) => do
          if word ≠ "" then none
          let (left, rest) ← read? fuel rest
          let (node, rest) ← connective? rest
          let (right, rest) ← read? fuel rest
          return (node left right, ← behind? ')' rest)
      | (word, ' ' :: '(' :: rest) => do
          if word ≠ "not" then none
          let (operand, rest) ← read? fuel rest
          return (not operand, ← behind? ')' rest)
      | (carrier, '[' :: rest) => do
          let (operand, rest) ← read? fuel rest
          return (grouping carrier operand, ← behind? ']' rest)
      | (path, ' ' :: rest) => readLeaf? path rest
      | _ => none

/-! ### One step of the reader -/

section Steps

variable {fuel : Nat} {text between next rest : List Char} {operand left right : Filter}

/-- Operands and the node between them stand in parentheses. -/
theorem read?_operands {node : Filter → Filter → Filter}
    (hleft : read? fuel text = some (left, between))
    (hnode : connective? between = some (node, next))
    (hright : read? fuel next = some (right, ')' :: rest)) :
    read? (fuel + 1) ('(' :: text) = some (node left right, rest) := by
  have hsplit : splitName ("".toList ++ '(' :: text) = ("", '(' :: text) :=
    splitName_sign (by decide) (by decide) text
  rw [String.toList_empty, List.nil_append] at hsplit
  rw [read?, hsplit]
  simp [hleft, hnode, hright, behind?]

/-- What stands in parentheses behind the word `not` is negated. -/
theorem read?_negation (h : read? fuel text = some (operand, ')' :: rest)) :
    read? (fuel + 1) ("not".toList ++ ' ' :: '(' :: text) = some (not operand, rest) := by
  rw [read?, splitName_sign (by decide) (by decide)]
  simp [h, behind?]

theorem read?_grouping {carrier : String} (hcarrier : IsSignless carrier)
    (h : read? fuel text = some (operand, ']' :: rest)) :
    read? (fuel + 1) (carrier.toList ++ '[' :: text) = some (grouping carrier operand, rest) := by
  rw [read?, splitName_sign hcarrier (by decide)]
  simp [h, behind?]

/-- What follows a path and a blank is read as that of a leaf, unless it is a parenthesis. -/
theorem read?_leaf {path : String} (hpath : IsSignless path) (h : text.head? ≠ some '(') :
    read? (fuel + 1) (path.toList ++ ' ' :: text) = readLeaf? path text := by
  rw [read?, splitName_sign hpath (by decide)]
  cases text with
  | nil => rfl
  | cons c text =>
      have hc : c ≠ '(' := by simpa using h
      simp [hc]

end Steps

/-! ### Leaves -/

/-- A filter may end before the text: a sign begins it, if anything, and it is not the literal of a
comparison. -/
def EndsBefore (rest : List Char) : Prop :=
  (∀ c ∈ rest.head?, isNameChar c = false) ∧ rest.take 2 ≠ [' ', '"']

theorem endsBefore_nil : EndsBefore [] :=
  ⟨by simp, by decide⟩

theorem endsBefore_sign (c : Char) (hc : isNameChar c = false) (hblank : c ≠ ' ')
    (rest : List Char) : EndsBefore (c :: rest) :=
  ⟨by simpa using hc, fun h => hblank (List.cons.inj h).1⟩

theorem endsBefore_blank (c : Char) (hc : c ≠ '"') (rest : List Char) :
    EndsBefore (' ' :: c :: rest) :=
  have hblank : isNameChar ' ' = false := by decide
  ⟨by simpa using hblank, fun h => hc (List.cons.inj (List.cons.inj h).2).1⟩

theorem readLeaf?_present (path : String) {rest : List Char} (hrest : EndsBefore rest) :
    readLeaf? path ("pr".toList ++ rest) = some (present path, rest) := by
  rw [readLeaf?, splitName_append (by decide) hrest.1]
  split
  · next heq =>
      obtain ⟨-, rfl⟩ := Prod.mk.inj heq
      exact absurd rfl hrest.2
  · next heq =>
      obtain ⟨rfl, rfl⟩ := Prod.mk.inj heq
      exact if_pos rfl

theorem readLeaf?_compare (path : String) {token value : String} (htoken : IsSignless token)
    (hvalue : '"' ∉ value.toList) (rest : List Char) :
    readLeaf? path (token.toList ++ ' ' :: '"' :: (value.toList ++ '"' :: rest)) =
      some (compare path token value, rest) := by
  rw [readLeaf?, splitName_sign htoken (by decide)]
  simp [splitLiteral?_append hvalue]

/-- A name does not begin with a parenthesis, nor does what follows it where that is a blank. -/
theorem head?_ne_of_isSignless {name : String} (h : IsSignless name) (rest : List Char) :
    (name.toList ++ ' ' :: rest).head? ≠ some '(' := by
  cases hname : name.toList with
  | nil => simp
  | cons c chars =>
      have hc : isNameChar c = true := h c (by simp [hname])
      simp only [List.cons_append, List.head?_cons, ne_eq, Option.some.injEq]
      rintro rfl
      exact absurd hc (by decide)

/-! ### Reading undoes displaying -/

/-- The filter can be told from its display: no name in it holds a sign of the filter language, and
no literal a quote. -/
def IsReadable : Filter → Prop
  | present path => IsSignless path
  | compare path token value => IsSignless path ∧ IsSignless token ∧ '"' ∉ value.toList
  | grouping carrier operand => IsSignless carrier ∧ operand.IsReadable
  | and left right | or left right => left.IsReadable ∧ right.IsReadable
  | not operand => operand.IsReadable

instance decidableIsReadable : (filter : Filter) → Decidable filter.IsReadable
  | present _ => inferInstanceAs (Decidable (IsSignless _))
  | compare _ _ _ => inferInstanceAs (Decidable (_ ∧ _))
  | grouping _ operand =>
      have := decidableIsReadable operand
      inferInstanceAs (Decidable (_ ∧ _))
  | and left right | or left right =>
      have := decidableIsReadable left
      have := decidableIsReadable right
      inferInstanceAs (Decidable (_ ∧ _))
  | not operand => decidableIsReadable operand

/-- The number of nodes on the longest way from the root of the tree to a leaf. -/
def depth : Filter → Nat
  | present _ | compare _ _ _ => 1
  | and left right | or left right => max left.depth right.depth + 1
  | grouping _ operand | not operand => operand.depth + 1

theorem depth_pos (filter : Filter) : 0 < filter.depth := by
  cases filter <;> simp [depth]

/-- **The reader undoes the display**, whatever follows the filter, as long as the filter may end
there. Induction on the fuel, for all filters that it suffices for and all that may follow them. -/
theorem read?_text {filter : Filter} (h : filter.IsReadable) {fuel : Nat}
    (hfuel : filter.depth ≤ fuel) {rest : List Char} (hrest : EndsBefore rest) :
    read? fuel (filter.text.toList ++ rest) = some (filter, rest) := by
  induction fuel generalizing filter rest with
  | zero => exact absurd hfuel (Nat.not_le.mpr filter.depth_pos)
  | succ fuel ih =>
      have hclosing := endsBefore_sign ')' (by decide) (by decide) rest
      cases filter with
      | present path =>
          have htext : (present path).text.toList ++ rest =
              path.toList ++ ' ' :: ("pr".toList ++ rest) := by simp [text]
          rw [htext, read?_leaf h (by simp), readLeaf?_present path hrest]
      | compare path token value =>
          obtain ⟨hpath, htoken, hvalue⟩ := h
          have htext : (compare path token value).text.toList ++ rest =
              path.toList ++ ' ' :: (token.toList ++ ' ' :: '"' ::
                (value.toList ++ '"' :: rest)) := by simp [text]
          rw [htext, read?_leaf hpath (head?_ne_of_isSignless htoken _),
            readLeaf?_compare path htoken hvalue]
      | grouping carrier operand =>
          have htext : (grouping carrier operand).text.toList ++ rest =
              carrier.toList ++ '[' :: (operand.text.toList ++ ']' :: rest) := by simp [text]
          have hoperand := ih h.2 (Nat.le_of_succ_le_succ hfuel)
            (endsBefore_sign ']' (by decide) (by decide) rest)
          rw [htext]
          exact read?_grouping h.1 hoperand
      | and left right =>
          obtain ⟨hl, hr⟩ := Nat.max_le.mp (Nat.le_of_succ_le_succ hfuel)
          have htext : (and left right).text.toList ++ rest =
              '(' :: (left.text.toList ++ ' ' :: 'a' :: 'n' :: 'd' :: ' ' ::
                (right.text.toList ++ ')' :: rest)) := by simp [text]
          rw [htext]
          exact read?_operands (ih h.1 hl (endsBefore_blank 'a' (by decide) _)) rfl
            (ih h.2 hr hclosing)
      | or left right =>
          obtain ⟨hl, hr⟩ := Nat.max_le.mp (Nat.le_of_succ_le_succ hfuel)
          have htext : (or left right).text.toList ++ rest =
              '(' :: (left.text.toList ++ ' ' :: 'o' :: 'r' :: ' ' ::
                (right.text.toList ++ ')' :: rest)) := by simp [text]
          rw [htext]
          exact read?_operands (ih h.1 hl (endsBefore_blank 'o' (by decide) _)) rfl
            (ih h.2 hr hclosing)
      | not operand =>
          have hoperand : operand.IsReadable := h
          have htext : (not operand).text.toList ++ rest =
              "not".toList ++ ' ' :: '(' :: (operand.text.toList ++ ')' :: rest) := by simp [text]
          rw [htext]
          exact read?_negation (ih hoperand (Nat.le_of_succ_le_succ hfuel) hclosing)

/-- **Displayed filters determine their trees**: of two filters whose names hold no sign of the
filter language and whose literals hold no quote, the texts are equal if and only if the trees
are. Names may even be empty. Both texts are read with fuel enough for either tree. -/
theorem text_inj {f g : Filter} (hf : f.IsReadable) (hg : g.IsReadable) :
    f.text = g.text ↔ f = g := by
  constructor
  · intro htext
    have hreadf := read?_text hf (Nat.le_max_left f.depth g.depth) endsBefore_nil
    have hreadg := read?_text hg (Nat.le_max_right f.depth g.depth) endsBefore_nil
    rw [htext, hreadg] at hreadf
    exact (congrArg Prod.fst (Option.some.inj hreadf)).symm
  · exact congrArg text

/-- Words of the language as paths and operators, and literals that look like the rest of a filter,
do not make two filters look the same. -/
theorem text_inj_words :
    (and (compare "not" "pr" "a) or (b") (not (present "pr"))).IsReadable ∧
      (and (compare "not" "pr" "a") (not (grouping "pr" (present "pr")))).IsReadable ∧
      (and (compare "not" "pr" "a) or (b") (not (present "pr"))).text ≠
        (and (compare "not" "pr" "a") (not (grouping "pr" (present "pr")))).text := by
  refine ⟨by decide, by decide, fun htext => ?_⟩
  have heq := (text_inj (by decide) (by decide)).mp htext
  exact absurd heq (by decide)

/-- Literals with quotes can make two filters look the same. -/
example : (and (compare "a" "eq" "x\" and b eq \"y") (compare "c" "eq" "z")).text =
    (and (compare "a" "eq" "x") (compare "b" "eq" "y\" and c eq \"z")).text := by
  decide

end Filter

end ScimDirectory
