import ScimDirectory.Proofs.Filter.Selection

/-!
# Strict comparisons of several values

An attribute may have several values, and an item of a directory filter holds when one of them
satisfies it. That is what `ge` and `le` ask for. A directory has no item for a strict comparison,
so `gt` and `lt` are compiled to a non-strict item and a negated equality, and these look at the
values apart from each other: the first one asks for a value on the right side of the literal, or at
it, the second one that no value is the literal. Together they say that some value lies strictly on
the right side and none is the literal itself. On an entry that holds the literal among other values
a strict comparison therefore fails, whatever the others are.

No other filter would do better (`FilterReading.exists_not_strict`). Whatever items it is made of,
there is an entry with two values on which it does not say whether one of them comes after the
literal: of two neighbouring values, one of them the literal, the items cannot tell which one comes
first.

## Main results

* `FilterReading.exists_not_strict`: no directory filter is a strict comparison.
* `Operator.holds_greater_iff`, `Operator.holds_less_iff`: what a strict comparison says.
* `Registry.selects_ordering_iff`: **the entries that the ordering operators select**, of any number
  of values.
-/

namespace ScimDirectory

/-! ### No item compares strictly -/

namespace Collation

/-- Values compared by their ranks, and those of one rank character by character. -/
def byRank (rank : String → Nat) : Collation where
  le a b := rank a < rank b ∨ rank a = rank b ∧ a ≤ b
  total a b := by
    have hchars := String.le_total a b
    grind
  antisymm a b hab hba := by
    have hrank : rank a = rank b := by omega
    exact String.le_antisymm (by grind) (by grind)
  trans a b c hab hbc := by
    rcases hab with hab | ⟨hab, hle⟩ <;> rcases hbc with hbc | ⟨hbc, hle'⟩
    · exact .inl (by omega)
    · exact .inl (by omega)
    · exact .inl (by omega)
    · exact .inr ⟨hab.trans hbc, String.le_trans hle hle'⟩

/-- The order in which `a` comes first and `b` right behind it. -/
def leading (a b : String) : Collation :=
  byRank fun value => if value = a then 0 else if value = b then 1 else 2

theorem le_refl (order : Collation) (a : String) : order.le a a :=
  (order.total a a).elim id id

theorem leading_le (a b value : String) : (leading a b).le a value := by
  by_cases hvalue : value = a
  · rw [hvalue]
    exact le_refl _ a
  · refine .inl ?_
    simp only [if_neg hvalue, if_true]
    split <;> omega

/-- Only the two leading values themselves come before one of them, or are one of them. -/
theorem exists_le_leading_iff {a b bound : String} {values : List String}
    (hvalues : ∀ value, value ∈ values ↔ value = a ∨ value = b) :
    (∃ value ∈ values, (leading a b).le bound value) ↔ bound = a ∨ bound = b := by
  constructor
  · rintro ⟨value, hmem, hle⟩
    by_contra hbound
    obtain ⟨ha, hb⟩ := not_or.mp hbound
    rcases (hvalues value).mp hmem with rfl | rfl <;>
      simp only [leading, byRank, if_neg ha, if_neg hb, if_true] at hle <;> grind
  · intro hbound
    exact ⟨bound, (hvalues bound).mpr hbound, le_refl _ bound⟩

end Collation

namespace FilterReading

/-- Orders that make no difference to bounds make none to filters. Induction on the reading; all
items but bounds leave the order aside. -/
theorem holds_congr {order order' : Collation} {entry : Entry}
    (hlower : ∀ name bound, (∃ value ∈ entry name, order.le bound value) ↔
      ∃ value ∈ entry name, order'.le bound value)
    (hupper : ∀ name bound, (∃ value ∈ entry name, order.le value bound) ↔
      ∃ value ∈ entry name, order'.le value bound) (reading : FilterReading) :
    reading.Holds order entry ↔ reading.Holds order' entry := by
  induction reading with
  | present name | equal name pieces => exact Iff.rfl
  | atLeast name bound => exact hlower name bound
  | atMost name bound => exact hupper name bound
  | and left right ihl ihr => exact and_congr ihl ihr
  | or left right ihl ihr => exact or_congr ihl ihr
  | not operand ih => exact not_congr ih

/-- **No directory filter is a strict comparison**: for every filter there are an order and an entry
with two values of the attribute on which it does not say whether one of them comes after the
literal. -/
theorem exists_not_strict (reading : FilterReading) (name literal : String) :
    ∃ (order : Collation) (entry : Entry), (entry name).length = 2 ∧
      ¬ (reading.Holds order entry ↔ ∃ value ∈ entry name, order.lt literal value) := by
  by_contra! hstrict
  obtain ⟨other, hother⟩ : ∃ other, other ≠ literal :=
    ⟨literal ++ "a", fun h => by simpa using congrArg String.length h⟩
  -- the literal and another value are neighbours in both orders, and change places between them
  have hvalues : ∀ value, value ∈ [literal, other] ↔ value = literal ∨ value = other := by simp
  have hswapped : ∀ value, value ∈ [literal, other] ↔ value = other ∨ value = literal := by
    simp [or_comm]
  let entry : Entry := fun _ => [literal, other]
  have hsame : reading.Holds (.leading literal other) entry ↔
      reading.Holds (.leading other literal) entry := by
    refine holds_congr (fun _ bound => ?_) (fun _ bound => ?_) reading
    · rw [Collation.exists_le_leading_iff hvalues, Collation.exists_le_leading_iff hswapped,
        or_comm]
    · refine iff_of_true ⟨literal, by simp [entry], ?_⟩ ⟨other, by simp [entry], ?_⟩
      · exact Collation.leading_le literal other bound
      · exact Collation.leading_le other literal bound
  have hafter : (Collation.leading literal other).lt literal other := by
    rw [Collation.lt_iff_le_and_ne]
    exact ⟨Collation.leading_le literal other other, hother.symm⟩
  have hholds := (hstrict (.leading literal other) entry rfl).mpr ⟨other, by simp [entry], hafter⟩
  obtain ⟨value, hmem, hlt⟩ := (hstrict (.leading other literal) entry rfl).mp (hsame.mp hholds)
  rcases (hvalues value).mp hmem with rfl | rfl
  · exact hlt (Collation.le_refl _ _)
  · exact hlt (Collation.leading_le _ _ _)

end FilterReading

/-! ### What strict comparisons say -/

namespace Operator

variable {order : Collation} {entry : Entry} {name : String}

/-- A value that is at a bound or beyond it, where no value is the bound itself, is beyond it. -/
theorem exists_and_not_mem_iff {values : List String} {literal : String} {p q : String → Prop}
    (hpq : ∀ value, q value ↔ p value ∧ value ≠ literal) :
    (∃ value ∈ values, p value) ∧ (¬ ∃ value ∈ values, value = literal) ↔
      (∃ value ∈ values, q value) ∧ literal ∉ values := by
  simp only [exists_eq_right]
  refine and_congr_left fun hliteral => exists_congr fun value => and_congr_right fun hmem => ?_
  rw [hpq, and_iff_left]
  rintro rfl
  exact hliteral hmem

/-- **Greater**: some value comes after the literal, and none is the literal. -/
theorem holds_greater_iff (literal : String) :
    (greater.reading name literal).Holds order entry ↔
      (∃ value ∈ entry name, order.lt literal value) ∧ literal ∉ entry name := by
  refine (and_congr_right' (not_congr (holds_equal_iff literal))).trans ?_
  refine exists_and_not_mem_iff fun value => ?_
  rw [Collation.lt_iff_le_and_ne, ne_comm]

/-- **Less**: some value comes before the literal, and none is the literal. -/
theorem holds_less_iff (literal : String) :
    (less.reading name literal).Holds order entry ↔
      (∃ value ∈ entry name, order.lt value literal) ∧ literal ∉ entry name := by
  refine (and_congr_right' (not_congr (holds_equal_iff literal))).trans ?_
  exact exists_and_not_mem_iff fun value => Collation.lt_iff_le_and_ne

end Operator

namespace Registry

variable {registry : Registry} {name path backend : String} {complex : Bool} {space : Namespace}

/-- A comparison on a plain attribute of a clean name compiles to a text that says what is to be
understood of its operator. -/
theorem exists_selects_compare (h : registry.resolve path name = .ok (.plain backend complex space))
    (hclean : IsCleanName backend) {token : String} {op : Operator}
    (htoken : Operator.ofToken? token = some op) (literal : String) :
    ∃ text, registry.compile ⟨.rfc4515⟩ (.compare path token literal) name = .ok text ∧
      ∀ order entry, Selects order entry text ↔ (op.reading backend literal).Holds order entry := by
  obtain ⟨resource, hresource, hresolve⟩ := resolve_eq_ok_iff.mp h
  refine ⟨(op.toFilter backend (escape literal)).text, ?_, fun order entry => ?_⟩
  · exact compile_eq_ok_iff.mpr ⟨resource, _, hresource,
      Filter.compile_compare_eq_ok_iff.mpr ⟨op, _, htoken, hresolve, rfl⟩, rfl⟩
  · rw [DirectoryFilter.selects_text_iff (op.isClean_toFilter_escape hclean literal),
      op.reading_toFilter_escape]

/-- A resource type with two attributes of several values. The backend name of one of them holds an
equality sign. -/
def Sample.shelf : ResourceDeclaration where
  name := "shelf"
  schema := "urn:shelf"
  attributes := [
    { path := "mark", multiValued := true },
    { path := "note", storageName := some "a=b", multiValued := true } ]

/-- **A strict comparison misses values beside the literal.** Entries with two values, one of them
the literal and one strictly on the right side of it, are not selected. Neither are entries whose
values lie all strictly on the right side, where the backend name is read as another name. -/
theorem misses_beside_literal :
    ∃ registry, build [Sample.shelf] = .ok registry ∧
      registry.resolve "mark" "shelf" = .ok (.plain "mark" false .core) ∧
      registry.resolve "note" "shelf" = .ok (.plain "a=b" false .core) ∧
      registry.compile ⟨.rfc4515⟩ (.compare "mark" "gt" "b") "shelf" =
        .ok "&(mark>=b)(!(mark=b))" ∧
      registry.compile ⟨.rfc4515⟩ (.compare "mark" "lt" "b") "shelf" =
        .ok "&(mark<=b)(!(mark=b))" ∧
      registry.compile ⟨.rfc4515⟩ (.compare "note" "gt" "b") "shelf" =
        .ok "&(a=b>=b)(!(a=b=b))" ∧
      (∃ value ∈ ["b", "c"], Collation.byCharacters.lt "b" value) ∧
      ¬ Selects .byCharacters (fun _ => ["b", "c"]) "&(mark>=b)(!(mark=b))" ∧
      (∃ value ∈ ["a", "b"], Collation.byCharacters.lt value "b") ∧
      ¬ Selects .byCharacters (fun _ => ["a", "b"]) "&(mark<=b)(!(mark=b))" ∧
      (∃ value ∈ ["c", "d"], Collation.byCharacters.lt "b" value) ∧
      ¬ Selects .byCharacters (fun name => if name = "a=b" then ["c", "d"] else [])
        "&(a=b>=b)(!(a=b=b))" := by
  have hsample : ∃ registry, build [Sample.shelf] = .ok registry ∧
      registry.resolve "mark" "shelf" = .ok (.plain "mark" false .core) ∧
      registry.resolve "note" "shelf" = .ok (.plain "a=b" false .core) ∧
      registry.compile ⟨.rfc4515⟩ (.compare "mark" "gt" "b") "shelf" =
        .ok "&(mark>=b)(!(mark=b))" ∧
      registry.compile ⟨.rfc4515⟩ (.compare "mark" "lt" "b") "shelf" =
        .ok "&(mark<=b)(!(mark=b))" ∧
      registry.compile ⟨.rfc4515⟩ (.compare "note" "gt" "b") "shelf" =
        .ok "&(a=b>=b)(!(a=b=b))" := by
    apply exists_ok_of_decide
    decide +kernel
  obtain ⟨registry, hbuild, hmark, hnote, hgt, hlt, hodd⟩ := hsample
  have hclean : IsCleanName "mark" := by decide +kernel
  have hafter : Collation.byCharacters.lt "b" "c" := show ¬ "c" ≤ "b" by decide +kernel
  have hbefore : Collation.byCharacters.lt "a" "b" := show ¬ "b" ≤ "a" by decide +kernel
  refine ⟨registry, hbuild, hmark, hnote, hgt, hlt, hodd, ⟨"c", by simp, hafter⟩, ?_,
    ⟨"a", by simp, hbefore⟩, ?_, ⟨"c", by simp, hafter⟩, ?_⟩
  · obtain ⟨text, hcompile, hselects⟩ :=
      exists_selects_compare hmark hclean (Operator.ofToken?_token .greater) "b"
    obtain rfl := Except.ok.inj (hgt.symm.trans hcompile)
    rw [hselects, Operator.holds_greater_iff]
    simp
  · obtain ⟨text, hcompile, hselects⟩ :=
      exists_selects_compare hmark hclean (Operator.ofToken?_token .less) "b"
    obtain rfl := Except.ok.inj (hlt.symm.trans hcompile)
    rw [hselects, Operator.holds_less_iff]
    simp
  · -- the name ends at the first equality sign, so this text is that of a filter on another name
    let misread : DirectoryFilter := .and (.item "a" .equal "b>=b") (.not (.item "a" .equal "b=b"))
    have hmisread : misread.IsClean := by
      refine ⟨⟨?_, ?_⟩, ?_, ?_⟩ <;> decide +kernel
    rintro ⟨reading, hreads, hholds⟩
    obtain rfl := (DirectoryFilter.reads_text_iff hmisread reading).mp hreads
    obtain ⟨⟨value, hmem, -⟩, -⟩ := hholds
    cases hmem

/-- **The entries that the ordering operators select**, of any number of values and in any order of
them, on a plain attribute whose backend name has no character of the filter syntax: for `ge` and
`le` those that have a value on that side of the literal or at it, for `gt` and `lt` those that have
a value strictly on that side of the literal and do not have the literal itself among their
values. -/
theorem selects_ordering_iff
    (h : registry.resolve path name = .ok (.plain backend complex space))
    (hclean : IsCleanName backend) (literal : String) :
    ∃ gt lt ge le, registry.compile ⟨.rfc4515⟩ (.compare path "gt" literal) name = .ok gt ∧
      registry.compile ⟨.rfc4515⟩ (.compare path "lt" literal) name = .ok lt ∧
      registry.compile ⟨.rfc4515⟩ (.compare path "ge" literal) name = .ok ge ∧
      registry.compile ⟨.rfc4515⟩ (.compare path "le" literal) name = .ok le ∧
      ∀ (order : Collation) (entry : Entry),
        (Selects order entry gt ↔
          (∃ value ∈ entry backend, order.lt literal value) ∧ literal ∉ entry backend) ∧
        (Selects order entry lt ↔
          (∃ value ∈ entry backend, order.lt value literal) ∧ literal ∉ entry backend) ∧
        (Selects order entry ge ↔ ∃ value ∈ entry backend, order.le literal value) ∧
        (Selects order entry le ↔ ∃ value ∈ entry backend, order.le value literal) := by
  obtain ⟨gt, hgt, hselects_gt⟩ :=
    exists_selects_compare h hclean (Operator.ofToken?_token .greater) literal
  obtain ⟨lt, hlt, hselects_lt⟩ :=
    exists_selects_compare h hclean (Operator.ofToken?_token .less) literal
  obtain ⟨ge, hge, hselects_ge⟩ :=
    exists_selects_compare h hclean (Operator.ofToken?_token .greaterOrEqual) literal
  obtain ⟨le, hle, hselects_le⟩ :=
    exists_selects_compare h hclean (Operator.ofToken?_token .lessOrEqual) literal
  refine ⟨gt, lt, ge, le, hgt, hlt, hge, hle, fun order entry => ⟨?_, ?_, ?_, ?_⟩⟩
  · exact (hselects_gt order entry).trans (Operator.holds_greater_iff literal)
  · exact (hselects_lt order entry).trans (Operator.holds_less_iff literal)
  · exact hselects_ge order entry
  · exact hselects_le order entry

/-- The four ordering operators on an attribute of several values. -/
theorem selects_ordering_iff_shelf :
    ∃ registry gt lt ge le, build [Sample.shelf] = .ok registry ∧
      registry.resolve "mark" "shelf" = .ok (.plain "mark" false .core) ∧ IsCleanName "mark" ∧
      registry.compile ⟨.rfc4515⟩ (.compare "mark" "gt" "b*") "shelf" = .ok gt ∧
      registry.compile ⟨.rfc4515⟩ (.compare "mark" "lt" "b*") "shelf" = .ok lt ∧
      registry.compile ⟨.rfc4515⟩ (.compare "mark" "ge" "b*") "shelf" = .ok ge ∧
      registry.compile ⟨.rfc4515⟩ (.compare "mark" "le" "b*") "shelf" = .ok le ∧
      ∀ (order : Collation) (entry : Entry),
        (Selects order entry gt ↔
          (∃ value ∈ entry "mark", order.lt "b*" value) ∧ "b*" ∉ entry "mark") ∧
        (Selects order entry lt ↔
          (∃ value ∈ entry "mark", order.lt value "b*") ∧ "b*" ∉ entry "mark") ∧
        (Selects order entry ge ↔ ∃ value ∈ entry "mark", order.le "b*" value) ∧
        (Selects order entry le ↔ ∃ value ∈ entry "mark", order.le value "b*") := by
  have hsample : ∃ registry, build [Sample.shelf] = .ok registry ∧
      registry.resolve "mark" "shelf" = .ok (.plain "mark" false .core) := by
    apply exists_ok_of_decide
    decide +kernel
  obtain ⟨registry, hbuild, hmark⟩ := hsample
  have hclean : IsCleanName "mark" := by decide +kernel
  obtain ⟨gt, lt, ge, le, hselects⟩ := selects_ordering_iff hmark hclean "b*"
  exact ⟨registry, gt, lt, ge, le, hbuild, hmark, hclean, hselects⟩

end Registry

end ScimDirectory
