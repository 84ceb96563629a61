import ScimDirectory.DirectoryFilter.Basic
import ScimDirectory.Proofs.DirectoryFilter.Assertion
import ScimDirectory.Proofs.Path

/-!
# Reading filter texts

The directory reads the text of a filter by a small grammar: two operands behind `&` or `|`, one
behind `!`, each in parentheses, or an item. The name of an item is what stands before its first
equality sign, less a final `>` or `<` that belongs to the sign. Nothing else is asked of a name,
so a name may swallow opening parentheses, and the grammar alone does not make a text readable in
one way only.

`Reads text reading` is that grammar. A text in which every closing parenthesis comes behind the
sign of the item that it closes (`SignsFirst`), and which closes as many parentheses as it opens,
leaves no parenthesis to a name; such a text has at most one reading.

## Main results

* `Reads.onlyReading`: two balanced readings that begin at the same place of such a text end at the
  same place and agree.
* `DirectoryFilter.reads_text_iff`: **the text of a filter with clean names and assertions has
  exactly one reading**, that of its tree.
-/

namespace ScimDirectory

/-- What the directory understands of a filter text. The pieces of an equality are those between
the stars of its assertion: one piece is the value itself, several describe a substring match. -/
inductive FilterReading where
  | present (name : String)
  | equal (name : String) (pieces : List String)
  | atLeast (name value : String)
  | atMost (name value : String)
  | and (left right : FilterReading)
  | or (left right : FilterReading)
  | not (operand : FilterReading)
deriving DecidableEq, Repr

/-- What an item says. A star alone behind an equality sign asks for presence. -/
def FilterReading.item (name : List Char) (relation : Relation) (assertion : List Char) :
    FilterReading :=
  match relation with
  | .equal =>
      if assertion = ['*'] then .present (String.ofList name)
      else .equal (String.ofList name) ((Assertion.pieces assertion).map String.ofList)
  | .atLeast => .atLeast (String.ofList name) (String.ofList (unescape assertion))
  | .atMost => .atMost (String.ofList name) (String.ofList (unescape assertion))

/-- The text can stand before the sign of a relation: it holds no equality sign, and what would
make a plain equality sign a longer one does not end it. -/
def IsItemName (name : List Char) (relation : Relation) : Prop :=
  '=' ∉ name ∧ (relation = .equal → name.getLast? ≠ some '>' ∧ name.getLast? ≠ some '<')

/-- The text holds no raw parenthesis. -/
def IsBare (text : List Char) : Prop :=
  '(' ∉ text ∧ ')' ∉ text

instance (text : List Char) : Decidable (IsBare text) :=
  inferInstanceAs (Decidable (_ ∧ _))

theorem IsBare.append {a b : List Char} (ha : IsBare a) (hb : IsBare b) : IsBare (a ++ b) :=
  ⟨fun h => (List.mem_append.mp h).elim ha.1 hb.1, fun h => (List.mem_append.mp h).elim ha.2 hb.2⟩

/-- **The grammar of filter texts.** -/
inductive Reads : List Char → FilterReading → Prop
  | item {name assertion : List Char} {relation : Relation} :
      IsItemName name relation → IsBare assertion →
      Reads (name ++ relation.sign.toList ++ assertion) (.item name relation assertion)
  | and {l r : List Char} {a b : FilterReading} :
      Reads l a → Reads r b → Reads ('&' :: '(' :: (l ++ ')' :: '(' :: (r ++ [')']))) (.and a b)
  | or {l r : List Char} {a b : FilterReading} :
      Reads l a → Reads r b → Reads ('|' :: '(' :: (l ++ ')' :: '(' :: (r ++ [')']))) (.or a b)
  | not {l : List Char} {a : FilterReading} :
      Reads l a → Reads ('!' :: '(' :: (l ++ [')'])) (.not a)

/-! ### Signs before closing parentheses -/

/-- Scanning the text, no closing parenthesis is met before an equality sign has been met since
the last opening one. `signed` tells whether such a sign was met before the text. -/
def SignsFirst : (signed : Bool) → List Char → Prop
  | _, [] => True
  | _, '(' :: rest => SignsFirst false rest
  | _, '=' :: rest => SignsFirst true rest
  | signed, ')' :: rest => signed = true ∧ SignsFirst signed rest
  | signed, _ :: rest => SignsFirst signed rest

/-- An operator and its parenthesis begin the scan anew. -/
theorem signsFirst_open {op : Char} (hop : op ∈ ['&', '|', '!']) (signed : Bool)
    (rest : List Char) : SignsFirst signed (op :: '(' :: rest) ↔ SignsFirst false rest := by
  simp only [List.mem_cons, List.not_mem_nil, or_false] at hop
  rcases hop with rfl | rfl | rfl <;> rfl

/-- Behind a sign an operand may end, and the next may begin. -/
theorem signsFirst_next (rest : List Char) :
    SignsFirst true (')' :: '(' :: rest) ↔ SignsFirst false rest := by
  simp [SignsFirst]

theorem signsFirst_close (rest : List Char) :
    SignsFirst true (')' :: rest) ↔ SignsFirst true rest := by
  simp [SignsFirst]

/-- A sign is scanned as an equality sign. -/
theorem signsFirst_sign (relation : Relation) (signed : Bool) (rest : List Char) :
    SignsFirst signed (relation.sign.toList ++ rest) ↔ SignsFirst true rest := by
  cases relation <;> simp [Relation.sign, SignsFirst]

/-- A text without parentheses makes no difference, unless it holds the first equality sign. -/
theorem signsFirst_bare {text : List Char} {signed : Bool} (h : IsBare text)
    (hsigned : '=' ∈ text → signed = true) (rest : List Char) :
    SignsFirst signed (text ++ rest) ↔ SignsFirst signed rest := by
  obtain ⟨hopen, hclose⟩ := h
  induction text with
  | nil => rfl
  | cons c text ih =>
      rw [List.mem_cons, not_or] at hopen hclose
      have hrest := ih (fun hmem => hsigned (List.mem_cons_of_mem c hmem)) hopen.2 hclose.2
      by_cases hc : c = '='
      · subst hc
        rw [List.cons_append, SignsFirst, ← hrest, hsigned List.mem_cons_self]
      · rwa [List.cons_append,
          SignsFirst.eq_5 _ _ _ (Ne.symm hopen.1) hc (Ne.symm hclose.1)]

/-- A name in front of its sign holds no closing parenthesis where signs come first. -/
theorem signsFirst_name {name rest : List Char} {relation : Relation} (hname : '=' ∉ name)
    (h : SignsFirst false (name ++ (relation.sign.toList ++ rest))) :
    ')' ∉ name ∧ SignsFirst true rest := by
  induction name with
  | nil => exact ⟨List.not_mem_nil, (signsFirst_sign relation false rest).mp h⟩
  | cons c name ih =>
      rw [List.mem_cons, not_or] at hname
      rw [List.mem_cons, not_or]
      rw [List.cons_append] at h
      by_cases hclose : c = ')'
      · subst hclose
        exact absurd h.1 Bool.false_ne_true
      · have hrest : SignsFirst false (name ++ (relation.sign.toList ++ rest)) := by
          by_cases hopen : c = '('
          · subst hopen
            exact h
          · rwa [SignsFirst.eq_5 _ _ _ hopen (Ne.symm hname.1) hclose] at h
        exact ⟨⟨Ne.symm hclose, (ih hname.2 hrest).1⟩, (ih hname.2 hrest).2⟩

/-- The parentheses of a binary node are those of its operands and two pairs around them. -/
theorem count_operands {op : Char} (hop : op ∈ ['&', '|', '!']) (l r : List Char) :
    (op :: '(' :: (l ++ ')' :: '(' :: (r ++ [')']))).count '(' = l.count '(' + r.count '(' + 2 ∧
      (op :: '(' :: (l ++ ')' :: '(' :: (r ++ [')']))).count ')' =
        l.count ')' + r.count ')' + 2 := by
  simp only [List.mem_cons, List.not_mem_nil, or_false] at hop
  rcases hop with rfl | rfl | rfl <;> simp <;> omega

/-- The parentheses of a negation are those of its operand and a pair around it. -/
theorem count_operand (l : List Char) :
    ('!' :: '(' :: (l ++ [')'])).count '(' = l.count '(' + 1 ∧
      ('!' :: '(' :: (l ++ [')'])).count ')' = l.count ')' + 1 := by
  simp

/-- Where signs come first, a reading ends behind a sign, and closes no more parentheses than it
opens: its names may hold opening parentheses only. -/
theorem Reads.signsFirst {text : List Char} {reading : FilterReading} (h : Reads text reading) :
    ∀ {rest : List Char}, SignsFirst false (text ++ rest) →
      SignsFirst true rest ∧ text.count ')' ≤ text.count '(' := by
  induction h with
  | @item name assertion relation hname hbare =>
      intro rest hs
      rw [List.append_assoc, List.append_assoc] at hs
      obtain ⟨hclose, hs⟩ := signsFirst_name hname.1 hs
      refine ⟨(signsFirst_bare hbare (fun _ => rfl) rest).mp hs, ?_⟩
      have hsign : relation.sign.toList.count ')' = 0 := by cases relation <;> rfl
      rw [List.count_append, List.count_append, List.count_eq_zero_of_not_mem hclose, hsign,
        List.count_eq_zero_of_not_mem hbare.2]
      exact Nat.zero_le _
  | and _ _ ihl ihr | or _ _ ihl ihr =>
      intro rest hs
      simp only [List.cons_append, List.append_assoc, List.nil_append] at hs
      rw [signsFirst_open (by decide)] at hs
      obtain ⟨hs, hl⟩ := ihl hs
      rw [signsFirst_next] at hs
      obtain ⟨hs, hr⟩ := ihr hs
      rw [signsFirst_close] at hs
      refine ⟨hs, ?_⟩
      rw [(count_operands (by decide) _ _).1, (count_operands (by decide) _ _).2]
      omega
  | not _ ih =>
      intro rest hs
      simp only [List.cons_append, List.append_assoc, List.nil_append] at hs
      rw [signsFirst_open (by decide)] at hs
      obtain ⟨hs, hl⟩ := ih hs
      rw [signsFirst_close] at hs
      refine ⟨hs, ?_⟩
      rw [(count_operand _).1, (count_operand _).2]
      omega

/-! ### Uniqueness -/

/-- The text closes as many parentheses as it opens. -/
def IsBalanced (text : List Char) : Prop :=
  text.count '(' = text.count ')'

/-- What may stand behind a filter text: nothing, or a closing parenthesis. -/
def Ends (rest : List Char) : Prop :=
  rest = [] ∨ ∃ more, rest = ')' :: more

/-- Of two bare texts at the same place, each followed by an end, neither is longer. -/
theorem IsBare.unique {a b v w : List Char} (ha : IsBare a) (hb : IsBare b) (hv : Ends v)
    (hw : Ends w) (h : a ++ v = b ++ w) : a = b := by
  rcases hv with rfl | ⟨v, rfl⟩ <;> rcases hw with rfl | ⟨w, rfl⟩
  · simpa using h
  · rw [List.append_nil] at h
    exact absurd (h ▸ List.mem_append_right b List.mem_cons_self) ha.2
  · rw [List.append_nil] at h
    exact absurd (h ▸ List.mem_append_right a List.mem_cons_self) hb.2
  · exact (append_cons_inj_of_not_mem ha.2 hb.2 h).1

/-- What a sign has before its equality sign. -/
def Relation.lead : Relation → List Char
  | .equal => []
  | .atLeast => ['>']
  | .atMost => ['<']

theorem Relation.not_mem_lead (relation : Relation) : '=' ∉ relation.lead := by
  cases relation <;> decide

/-- An item is cut at its first equality sign. -/
theorem Relation.append_sign_append (relation : Relation) (name rest : List Char) :
    name ++ relation.sign.toList ++ rest = (name ++ relation.lead) ++ '=' :: rest := by
  cases relation <;> simp [sign, lead]

/-- What stands before the first equality sign of an item holds none. -/
theorem IsItemName.not_mem_append_lead {name : List Char} {relation : Relation}
    (h : IsItemName name relation) : '=' ∉ name ++ relation.lead :=
  fun hmem => (List.mem_append.mp hmem).elim h.1 relation.not_mem_lead

/-- Name and relation are known from what stands before the first equality sign. -/
theorem IsItemName.unique {a b : List Char} {r s : Relation} (ha : IsItemName a r)
    (hb : IsItemName b s) (h : a ++ r.lead = b ++ s.lead) : a = b ∧ r = s := by
  have hlast := congrArg List.getLast? h
  cases r <;> cases s <;>
    simp only [Relation.lead, List.append_nil, List.getLast?_concat, Option.some.injEq,
      Char.reduceEq] at h hlast
  · exact ⟨h, rfl⟩
  · exact absurd hlast (ha.2 rfl).1
  · exact absurd hlast (ha.2 rfl).2
  · exact absurd hlast.symm (hb.2 rfl).1
  · exact ⟨List.append_cancel_right h, rfl⟩
  · exact absurd hlast.symm (hb.2 rfl).2
  · exact ⟨List.append_cancel_right h, rfl⟩

/-- A balanced item leaves no parenthesis to its name, where signs come first. -/
theorem IsBalanced.isBare_name {name assertion rest : List Char} {relation : Relation}
    (h : IsBalanced (name ++ relation.sign.toList ++ assertion)) (hname : '=' ∉ name)
    (hbare : IsBare assertion)
    (hs : SignsFirst false (name ++ relation.sign.toList ++ assertion ++ rest)) : IsBare name := by
  rw [List.append_assoc, List.append_assoc] at hs
  have hclose := (signsFirst_name hname hs).1
  have hsign : relation.sign.toList.count '(' = 0 ∧ relation.sign.toList.count ')' = 0 := by
    cases relation <;> exact ⟨rfl, rfl⟩
  refine ⟨List.count_eq_zero.mp ?_, hclose⟩
  simpa [IsBalanced, hsign, List.count_eq_zero_of_not_mem hbare.1,
    List.count_eq_zero_of_not_mem hbare.2, List.count_eq_zero_of_not_mem hclose] using h

/-- A balanced item does not begin with an operator and a parenthesis, where signs come first. -/
theorem item_ne_open {name assertion rest more : List Char} {relation : Relation} {op : Char}
    (hop : op ∈ ['&', '|', '!']) (hname : '=' ∉ name) (hbare : IsBare assertion)
    (hbal : IsBalanced (name ++ relation.sign.toList ++ assertion))
    (hs : SignsFirst false (name ++ relation.sign.toList ++ assertion ++ rest)) :
    name ++ relation.sign.toList ++ assertion ++ rest ≠ op :: '(' :: more := by
  have hbareName := hbal.isBare_name hname hbare hs
  intro h
  match name with
  | [] =>
      cases relation <;> obtain rfl := (List.cons.inj h).1 <;> exact absurd hop (by decide)
  | [_] => cases relation <;> simp [Relation.sign] at h
  | _ :: c :: name =>
      obtain rfl : c = '(' := (List.cons.inj (List.cons.inj h).2).1
      exact hbareName.1 (by simp)

/-- Two items at the same place, each followed by an end, are the same item. -/
theorem item_unique {name name' assertion assertion' v v' : List Char} {r r' : Relation}
    (hname : IsItemName name r) (hname' : IsItemName name' r') (hbare : IsBare assertion)
    (hbare' : IsBare assertion') (hv : Ends v) (hv' : Ends v')
    (h : name ++ r.sign.toList ++ assertion ++ v = name' ++ r'.sign.toList ++ assertion' ++ v') :
    name = name' ∧ r = r' ∧ assertion = assertion' := by
  rw [List.append_assoc, Relation.append_sign_append, List.append_assoc _ assertion',
    Relation.append_sign_append] at h
  obtain ⟨hlead, hrest⟩ :=
    append_cons_inj_of_not_mem hname.not_mem_append_lead hname'.not_mem_append_lead h
  obtain ⟨rfl, rfl⟩ := hname.unique hname' hlead
  exact ⟨rfl, rfl, hbare.unique hbare' hv hv' hrest⟩

/-- Whatever balanced reading begins where `text` does, in a text where signs come first, and is
followed by an end as `text` is, is `reading` of `text`. -/
def OnlyReading (text : List Char) (reading : FilterReading) : Prop :=
  ∀ {text' rest rest' : List Char} {reading' : FilterReading}, Reads text' reading' →
    text ++ rest = text' ++ rest' → Ends rest → Ends rest' → SignsFirst false (text ++ rest) →
    IsBalanced text → IsBalanced text' → text = text' ∧ reading = reading'

/-- **Operands are found again**: balanced binary nodes of one operator at the same place have the
same operands. Each operand is balanced, because none closes more than it opens. -/
theorem OnlyReading.operands {op : Char} {l r l' r' v v' : List Char} {a b a' b' : FilterReading}
    (hop : op ∈ ['&', '|', '!']) (hl : Reads l a) (hr : Reads r b) (hl' : Reads l' a')
    (hr' : Reads r' b') (ihl : OnlyReading l a) (ihr : OnlyReading r b)
    (heq : op :: '(' :: (l ++ ')' :: '(' :: (r ++ [')'])) ++ v =
      op :: '(' :: (l' ++ ')' :: '(' :: (r' ++ [')'])) ++ v')
    (hs : SignsFirst false (op :: '(' :: (l ++ ')' :: '(' :: (r ++ [')'])) ++ v))
    (hbal : IsBalanced (op :: '(' :: (l ++ ')' :: '(' :: (r ++ [')']))))
    (hbal' : IsBalanced (op :: '(' :: (l' ++ ')' :: '(' :: (r' ++ [')'])))) :
    (l = l' ∧ a = a') ∧ r = r' ∧ b = b' := by
  have hs' := hs
  rw [heq] at hs'
  simp only [List.cons_append, List.append_assoc, List.nil_append] at hs hs' heq
  rw [signsFirst_open hop] at hs hs'
  obtain ⟨-, hrest⟩ := List.cons.inj (List.cons.inj heq).2
  obtain ⟨hsr, hcl⟩ := hl.signsFirst hs
  obtain ⟨hsr', hcl'⟩ := hl'.signsFirst hs'
  rw [signsFirst_next] at hsr hsr'
  have hcr := (hr.signsFirst hsr).2
  have hcr' := (hr'.signsFirst hsr').2
  rw [IsBalanced, (count_operands hop l r).1, (count_operands hop l r).2] at hbal
  rw [IsBalanced, (count_operands hop l' r').1, (count_operands hop l' r').2] at hbal'
  have hleft := ihl hl' hrest (.inr ⟨_, rfl⟩) (.inr ⟨_, rfl⟩) hs
    (show l.count '(' = l.count ')' by omega) (show l'.count '(' = l'.count ')' by omega)
  obtain ⟨rfl, rfl⟩ := hleft
  obtain ⟨-, hnext⟩ := List.cons.inj (List.cons.inj (List.append_cancel_left hrest)).2
  have hright := ihr hr' hnext (.inr ⟨_, rfl⟩) (.inr ⟨_, rfl⟩) hsr
    (show r.count '(' = r.count ')' by omega) (show r'.count '(' = r'.count ')' by omega)
  exact ⟨⟨rfl, rfl⟩, hright⟩

/-- The operand of a balanced negation is found again. -/
theorem OnlyReading.operand {l l' v v' : List Char} {a a' : FilterReading} (hl' : Reads l' a')
    (ih : OnlyReading l a)
    (heq : '!' :: '(' :: (l ++ [')']) ++ v = '!' :: '(' :: (l' ++ [')']) ++ v')
    (hs : SignsFirst false ('!' :: '(' :: (l ++ [')']) ++ v))
    (hbal : IsBalanced ('!' :: '(' :: (l ++ [')'])))
    (hbal' : IsBalanced ('!' :: '(' :: (l' ++ [')']))) : l = l' ∧ a = a' := by
  simp only [List.cons_append, List.append_assoc, List.nil_append] at hs heq
  rw [signsFirst_open (by decide)] at hs
  obtain ⟨-, hrest⟩ := List.cons.inj (List.cons.inj heq).2
  rw [IsBalanced, (count_operand l).1, (count_operand l).2] at hbal
  rw [IsBalanced, (count_operand l').1, (count_operand l').2] at hbal'
  exact ih hl' hrest (.inr ⟨_, rfl⟩) (.inr ⟨_, rfl⟩) hs (Nat.succ.inj hbal) (Nat.succ.inj hbal')

/-- **Balanced readings are unique**: two of them that begin at the same place of a text where
signs come first, and are each followed by an end, agree. Induction on the first reading; against an
item no node stands, because a balanced item leaves no parenthesis to its name. -/
theorem Reads.onlyReading {text : List Char} {reading : FilterReading} (h : Reads text reading) :
    OnlyReading text reading := by
  induction h with
  | @item name assertion relation hname hbare =>
      intro text' v v' reading' h' heq hv hv' hs hbal hbal'
      cases h' with
      | item hname' hbare' =>
          obtain ⟨rfl, rfl, rfl⟩ := item_unique hname hname' hbare hbare' hv hv' heq
          exact ⟨rfl, rfl⟩
      | and _ _ | or _ _ | not _ =>
          exact absurd heq (item_ne_open (by decide) hname.1 hbare hbal hs)
  | and hl hr ihl ihr =>
      intro text' v v' reading' h' heq hv hv' hs hbal hbal'
      cases h' with
      | item hname' hbare' =>
          rw [heq] at hs
          exact absurd heq.symm (item_ne_open (by decide) hname'.1 hbare' hbal' hs)
      | and hl' hr' =>
          obtain ⟨⟨rfl, rfl⟩, rfl, rfl⟩ := OnlyReading.operands (by decide) hl hr hl' hr' ihl ihr
            heq hs hbal hbal'
          exact ⟨rfl, rfl⟩
      | or _ _ | not _ => exact absurd (List.cons.inj heq).1 (by decide)
  | or hl hr ihl ihr =>
      intro text' v v' reading' h' heq hv hv' hs hbal hbal'
      cases h' with
      | item hname' hbare' =>
          rw [heq] at hs
          exact absurd heq.symm (item_ne_open (by decide) hname'.1 hbare' hbal' hs)
      | or hl' hr' =>
          obtain ⟨⟨rfl, rfl⟩, rfl, rfl⟩ := OnlyReading.operands (by decide) hl hr hl' hr' ihl ihr
            heq hs hbal hbal'
          exact ⟨rfl, rfl⟩
      | and _ _ | not _ => exact absurd (List.cons.inj heq).1 (by decide)
  | not hl ih =>
      intro text' v v' reading' h' heq hv hv' hs hbal hbal'
      cases h' with
      | item hname' hbare' =>
          rw [heq] at hs
          exact absurd heq.symm (item_ne_open (by decide) hname'.1 hbare' hbal' hs)
      | and _ _ | or _ _ => exact absurd (List.cons.inj heq).1 (by decide)
      | not hl' =>
          obtain ⟨rfl, rfl⟩ := OnlyReading.operand hl' ih heq hs hbal hbal'
          exact ⟨rfl, rfl⟩

/-! ### The texts of filters -/

/-- No character of the name has a meaning in the grammar or in an assertion. -/
def IsCleanName (name : String) : Prop :=
  ∀ c ∈ name.toList, c ∉ ['(', ')', '*', '\\', '=', '<', '>', '&', '|', '!']

instance (name : String) : Decidable (IsCleanName name) :=
  List.decidableBAll (· ∉ ['(', ')', '*', '\\', '=', '<', '>', '&', '|', '!']) name.toList

/-- A clean name does not hold a character of the grammar. -/
theorem IsCleanName.not_mem {name : String} {c : Char} (h : IsCleanName name)
    (hc : c ∈ ['(', ')', '*', '\\', '=', '<', '>', '&', '|', '!']) : c ∉ name.toList :=
  fun hmem => h c hmem hc

/-- A clean name can stand before any sign. -/
theorem IsCleanName.isItemName {name : String} (h : IsCleanName name) (relation : Relation) :
    IsItemName name.toList relation :=
  ⟨h.not_mem (by decide), fun _ =>
    ⟨fun hlast => h.not_mem (by decide) (List.mem_of_getLast? hlast),
      fun hlast => h.not_mem (by decide) (List.mem_of_getLast? hlast)⟩⟩

theorem IsCleanName.isBare {name : String} (h : IsCleanName name) : IsBare name.toList :=
  ⟨h.not_mem (by decide), h.not_mem (by decide)⟩

/-- A text that begins with a clean name and an equality sign is read as an item, if at all, and
behind the sign there is no raw parenthesis. -/
theorem Reads.isBare_of_isCleanName {name : String} {rest : List Char} {reading : FilterReading}
    (h : Reads (name.toList ++ '=' :: rest) reading) (hname : IsCleanName name) : IsBare rest := by
  have hfirst : ∀ op ∈ ['&', '|', '!'], ∀ more, name.toList ++ '=' :: rest ≠ op :: more := by
    intro op hop more heq
    have hmeta : ['&', '|', '!'] ⊆ ['(', ')', '*', '\\', '=', '<', '>', '&', '|', '!'] := by simp
    rcases List.append_eq_cons_iff.mp heq with ⟨-, hsign⟩ | ⟨name', hname', -⟩
    · obtain rfl := (List.cons.inj hsign).1
      exact absurd hop (by decide)
    · exact hname.not_mem (hmeta hop) (hname' ▸ List.mem_cons_self)
  generalize htext : name.toList ++ '=' :: rest = text at h hfirst
  cases h with
  | item hitem hbare =>
      rw [Relation.append_sign_append] at htext
      obtain ⟨-, rfl⟩ := append_cons_inj_of_not_mem (hname.not_mem (by decide))
        hitem.not_mem_append_lead htext
      exact hbare
  | and _ _ | or _ _ | not _ => exact absurd rfl (hfirst _ (by decide) _)

namespace DirectoryFilter

/-- The names of the filter are clean, and its assertions hold no raw parenthesis. -/
def IsClean : DirectoryFilter → Prop
  | item name _ assertion => IsCleanName name ∧ IsBare assertion.toList
  | and left right | or left right => left.IsClean ∧ right.IsClean
  | not operand => operand.IsClean

/-- What the filter says, item by item. -/
def reading : DirectoryFilter → FilterReading
  | item name relation assertion => .item name.toList relation assertion.toList
  | and left right => .and left.reading right.reading
  | or left right => .or left.reading right.reading
  | not operand => .not operand.reading

theorem toList_text_item (name assertion : String) (relation : Relation) :
    (item name relation assertion).text.toList =
      name.toList ++ relation.sign.toList ++ assertion.toList := by
  simp [text]

theorem toList_text_and (left right : DirectoryFilter) :
    (and left right).text.toList =
      '&' :: '(' :: (left.text.toList ++ ')' :: '(' :: (right.text.toList ++ [')'])) := by
  simp [text]

theorem toList_text_or (left right : DirectoryFilter) :
    (or left right).text.toList =
      '|' :: '(' :: (left.text.toList ++ ')' :: '(' :: (right.text.toList ++ [')'])) := by
  simp [text]

theorem toList_text_not (operand : DirectoryFilter) :
    (not operand).text.toList = '!' :: '(' :: (operand.text.toList ++ [')']) := by
  simp [text]

/-- The text of a clean filter is read as its tree. -/
theorem reads_text {filter : DirectoryFilter} (h : filter.IsClean) :
    Reads filter.text.toList filter.reading := by
  induction filter with
  | item name relation assertion =>
      rw [toList_text_item]
      exact .item (h.1.isItemName relation) h.2
  | and left right ihl ihr =>
      rw [toList_text_and]
      exact .and (ihl h.1) (ihr h.2)
  | or left right ihl ihr =>
      rw [toList_text_or]
      exact .or (ihl h.1) (ihr h.2)
  | not operand ih =>
      rw [toList_text_not]
      exact .not (ih h)

/-- Signs come first in a binary node if they do in its operands. -/
theorem signsFirst_operands {op : Char} (hop : op ∈ ['&', '|', '!']) {l r rest : List Char}
    (hl : ∀ {rest}, SignsFirst true rest → SignsFirst false (l ++ rest))
    (hr : ∀ {rest}, SignsFirst true rest → SignsFirst false (r ++ rest))
    (hrest : SignsFirst true rest) :
    SignsFirst false (op :: '(' :: (l ++ ')' :: '(' :: (r ++ [')'])) ++ rest) := by
  simp only [List.cons_append, List.append_assoc, List.nil_append]
  rw [signsFirst_open hop]
  refine hl ((signsFirst_next _).mpr (hr ?_))
  exact (signsFirst_close rest).mpr hrest

/-- A binary node is balanced if its operands are. -/
theorem isBalanced_operands {op : Char} (hop : op ∈ ['&', '|', '!']) {l r : List Char}
    (hl : IsBalanced l) (hr : IsBalanced r) :
    IsBalanced (op :: '(' :: (l ++ ')' :: '(' :: (r ++ [')']))) := by
  rw [IsBalanced, (count_operands hop l r).1, (count_operands hop l r).2, hl, hr]

/-- In the text of a clean filter signs come first, and behind it a sign has been met. -/
theorem signsFirst_text {filter : DirectoryFilter} (h : filter.IsClean) :
    ∀ {rest : List Char}, SignsFirst true rest → SignsFirst false (filter.text.toList ++ rest) := by
  induction filter with
  | item name relation assertion =>
      intro rest hs
      rw [toList_text_item, List.append_assoc, List.append_assoc,
        signsFirst_bare h.1.isBare (fun hmem => absurd hmem (h.1.not_mem (by decide))),
        signsFirst_sign, signsFirst_bare h.2 fun _ => rfl]
      exact hs
  | and left right ihl ihr =>
      intro rest hs
      rw [toList_text_and]
      exact signsFirst_operands (by decide) (ihl h.1) (ihr h.2) hs
  | or left right ihl ihr =>
      intro rest hs
      rw [toList_text_or]
      exact signsFirst_operands (by decide) (ihl h.1) (ihr h.2) hs
  | not operand ih =>
      intro rest hs
      rw [toList_text_not]
      simp only [List.cons_append, List.append_assoc, List.nil_append]
      rw [signsFirst_open (by decide)]
      exact ih h ((signsFirst_close rest).mpr hs)

/-- The text of a clean filter is balanced. -/
theorem isBalanced_text {filter : DirectoryFilter} (h : filter.IsClean) :
    IsBalanced filter.text.toList := by
  induction filter with
  | item name relation assertion =>
      have hsign : relation.sign.toList.count '(' = 0 ∧ relation.sign.toList.count ')' = 0 := by
        cases relation <;> exact ⟨rfl, rfl⟩
      obtain ⟨hname, hbare⟩ := h
      simp [toList_text_item, IsBalanced, hsign, List.count_eq_zero_of_not_mem hname.isBare.1,
        List.count_eq_zero_of_not_mem hname.isBare.2, List.count_eq_zero_of_not_mem hbare.1,
        List.count_eq_zero_of_not_mem hbare.2]
  | and left right ihl ihr =>
      rw [toList_text_and]
      exact isBalanced_operands (by decide) (ihl h.1) (ihr h.2)
  | or left right ihl ihr =>
      rw [toList_text_or]
      exact isBalanced_operands (by decide) (ihl h.1) (ihr h.2)
  | not operand ih =>
      rw [toList_text_not, IsBalanced, (count_operand _).1, (count_operand _).2, ih h]

/-- **The text of a clean filter has exactly one reading**, that of its tree. -/
theorem reads_text_iff {filter : DirectoryFilter} (h : filter.IsClean) (reading : FilterReading) :
    Reads filter.text.toList reading ↔ reading = filter.reading := by
  constructor
  · intro hreads
    have hs : SignsFirst false (filter.text.toList ++ []) := signsFirst_text h trivial
    exact (hreads.onlyReading (reads_text h) rfl (.inl rfl) (.inl rfl) hs (isBalanced_text h)
      (isBalanced_text h)).2
  · rintro rfl
    exact reads_text h

end DirectoryFilter

end ScimDirectory
