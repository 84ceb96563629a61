import ScimDirectory.Proofs.Filter.Agreement
import ScimDirectory.Proofs.Filter.Failure

/-!
# Literals escaped beforehand

To compile with the literals escaped is to escape every literal of the filter first
(`Filter.mapLiterals`) and to compile the result with its literals as they are. Nothing else is
touched: the compiler without escaping knows of no escapes, so that none can come to a backend name,
to a key, to a quote or to a star; and none is made twice, neither where a strict comparison embeds
its literal in two items nor where the pattern for a key is rendered once more.

Literals have no part in whether a filter compiles (`Filter.Related.agree_failures`). So the two
ways of escaping refuse the same filters for the same reasons, and on literals without characters of
the filter syntax there is nothing to tell them apart.

## Main results

* `Filter.compile_eq_mapLiterals`: a way of escaping does its work on the literals alone.
* `Filter.Related.agree_failures`: filters that differ in their literals only fail alike, each under
  a way of escaping of its own.
* `Registry.compile_rfc4515`: **compiling with escapes is compiling escaped literals as they are**.
-/

namespace ScimDirectory

/-- A literal without characters of the filter syntax is its own escaped form. -/
theorem escape_eq_self {literal : String}
    (h : ∀ c ∈ literal.toList, c ∉ ['\\', '*', '(', ')', '\x00']) : escape literal = literal := by
  have hplain : ∀ c ∈ literal.toList, isMeta c = false := by
    intro c hc
    simpa [isMeta, and_assoc] using h c hc
  rw [← String.toList_inj, toList_escape, flatMap_escapeChar_of_plain hplain]

/-! ### Leaves -/

/-- The value has no part in whether a target has a filter for an operator. -/
theorem Target.leaf?_eq_none_congr (op : Operator) (target : Target) (v w : String) :
    target.leaf? op v = none ↔ target.leaf? op w = none := by
  rw [leaf?_eq_none_iff, leaf?_eq_none_iff]

/-- Nor in the error of a leaf. -/
theorem Resource.agree_leafFilter (resource : Resource) (op : Operator) (path v w : String) :
    Agree Eq (fun _ _ => True) (resource.leafFilter op path v) (resource.leafFilter op path w) := by
  refine (Agree.refl Eq.refl Eq.refl (resource.resolve path)).bind ?_
  rintro target _ rfl
  have hnone := target.leaf?_eq_none_congr op v w
  cases hv : target.leaf? op v with
  | none =>
      rw [hnone.mp hv]
      exact .error rfl
  | some d =>
      cases hw : target.leaf? op w with
      | none =>
          rw [hnone.mpr hw] at hv
          cases hv
      | some d' => exact .ok trivial

namespace Filter

/-! ### Literals -/

/-- The filter with each of its literals rewritten. Paths, carriers and tokens stay. -/
def mapLiterals (rewrite : String → String) : Filter → Filter
  | present path => present path
  | compare path token literal => compare path token (rewrite literal)
  | grouping carrier operand => grouping carrier (operand.mapLiterals rewrite)
  | and left right => and (left.mapLiterals rewrite) (right.mapLiterals rewrite)
  | or left right => or (left.mapLiterals rewrite) (right.mapLiterals rewrite)
  | not operand => not (operand.mapLiterals rewrite)

/-- The literals of a filter, from the left. -/
def literals : Filter → List String
  | present _ => []
  | compare _ _ literal => [literal]
  | grouping _ operand | not operand => operand.literals
  | and left right | or left right => left.literals ++ right.literals

/-- A filter is not changed by what leaves all of its literals alone. -/
theorem mapLiterals_eq_self {rewrite : String → String} {filter : Filter}
    (h : ∀ literal ∈ filter.literals, rewrite literal = literal) :
    filter.mapLiterals rewrite = filter := by
  induction filter with
  | present path => rfl
  | compare path token literal => rw [mapLiterals, h literal (List.mem_singleton_self literal)]
  | grouping carrier operand ih => rw [mapLiterals, ih h]
  | and left right ihl ihr | or left right ihl ihr =>
      obtain ⟨hleft, hright⟩ := List.forall_mem_append.mp h
      rw [mapLiterals, ihl hleft, ihr hright]
  | not operand ih => rw [mapLiterals, ih h]

variable {resource : Resource}

/-- **A way of escaping does its work on the literals alone.** Induction on the filter; a grouping
replaces the scope, so that is generalised. -/
theorem compile_eq_mapLiterals (escaping : Escaping) (filter : Filter) (scope : Option String) :
    filter.compile resource escaping scope =
      (filter.mapLiterals escaping.apply).compile resource .preserve scope := by
  induction filter generalizing scope with
  | present path => rw [mapLiterals, compile_present _ "", compile_present _ ""]
  | compare path token literal =>
      rw [mapLiterals, compile_compare, compile_compare]
      rfl
  | grouping carrier operand ih => rw [mapLiterals, compile_grouping, compile_grouping, ih]
  | and left right ihl ihr => rw [mapLiterals, compile_and, compile_and, ihl, ihr]
  | or left right ihl ihr => rw [mapLiterals, compile_or, compile_or, ihl, ihr]
  | not operand ih => rw [mapLiterals, compile_not, compile_not, ih]

/-! ### Failures -/

/-- **Filters that differ in their literals only fail alike**, whatever the way of escaping of the
one and of the other. -/
theorem Related.agree_failures {f g : Filter} (h : Related Eq (fun _ _ => True) f g)
    (escaping escaping' : Escaping) (scope : Option String) :
    Agree Eq (fun _ _ => True) (f.compile resource escaping scope)
      (g.compile resource escaping' scope) := by
  have hleaf : ∀ op path {v w : String}, True →
      Agree Eq (fun _ _ => True) (resource.leafFilter op path v) (resource.leafFilter op path w) :=
    fun op path {v w} _ => resource.agree_leafFilter op path v w
  have hresults : DirectoryFilter.IsCongruence fun _ _ => True :=
    ⟨fun _ _ _ _ _ _ => trivial, fun _ _ _ _ _ _ => trivial, fun _ _ _ => trivial⟩
  exact h.agree_compile_of_eq (fun _ => trivial) (fun _ => trivial) hleaf hresults scope

end Filter

namespace Registry

/-- **Compiling with escapes is compiling escaped literals as they are**: for every registry,
resource type and filter, escaping in the compiler comes to the same text, or the same error, as
escaping the literals of the filter and compiling without. The compilers with and without escapes
refuse the same filters with the same errors, and they agree on every filter whose literals hold no
backslash, star, parenthesis or NUL. -/
theorem compile_rfc4515 (registry : Registry) (filter : Filter) (name : String) :
    registry.compile ⟨.rfc4515⟩ filter name =
        registry.compile ⟨.preserve⟩ (filter.mapLiterals escape) name ∧
      (∀ e, registry.compile ⟨.rfc4515⟩ filter name = .error e ↔
        registry.compile ⟨.preserve⟩ filter name = .error e) ∧
      ((∀ literal ∈ filter.literals, ∀ c ∈ literal.toList, c ∉ ['\\', '*', '(', ')', '\x00']) →
        registry.compile ⟨.rfc4515⟩ filter name = registry.compile ⟨.preserve⟩ filter name) := by
  have hescaped : registry.compile ⟨.rfc4515⟩ filter name =
      registry.compile ⟨.preserve⟩ (filter.mapLiterals escape) name := by
    refine bind_congr fun resource => ?_
    rw [Filter.compile_eq_mapLiterals]
    rfl
  have hfailures : Agree Eq (fun _ _ => True) (registry.compile ⟨.rfc4515⟩ filter name)
      (registry.compile ⟨.preserve⟩ filter name) := by
    refine (Agree.refl Eq.refl Eq.refl (registry.require name)).bind ?_
    rintro resource _ rfl
    have hfilter : Filter.Related Eq (fun _ _ => True) filter filter :=
      .refl Eq.refl (fun _ => trivial) filter
    exact (hfilter.agree_failures .rfc4515 .preserve none).bind fun _ _ _ => .ok trivial
  refine ⟨hescaped, fun e => hfailures.eq_error_iff, fun hplain => ?_⟩
  rw [hescaped, Filter.mapLiterals_eq_self fun literal hmem => escape_eq_self (hplain literal hmem)]

/-- Literals with characters of the filter syntax, embedded twice and inside the pattern for a key;
and a filter whose literals have none. -/
theorem compile_rfc4515_team :
    ∃ registry, build [Sample.team] = .ok registry ∧
      registry.compile ⟨.rfc4515⟩
          (.and (.compare "label" "gt" "a*\\") (.grouping "members" (.compare "value" "co" "(b)")))
          "team" =
        .ok "&(&(cn>=a\\2a\\5c)(!(cn=a\\2a\\5c)))(member=*\"value\":*\\28b\\29*)" ∧
      (∀ literal ∈ (Filter.compare "label" "lt" "a b").literals, ∀ c ∈ literal.toList,
        c ∉ ['\\', '*', '(', ')', '\x00']) ∧
      registry.compile ⟨.rfc4515⟩ (.compare "label" "lt" "a b") "team" =
        .ok "&(cn<=a b)(!(cn=a b))" := by
  have hsample : ∃ registry, build [Sample.team] = .ok registry ∧
      registry.compile ⟨.preserve⟩ (Filter.mapLiterals escape (.and (.compare "label" "gt" "a*\\")
          (.grouping "members" (.compare "value" "co" "(b)")))) "team" =
        .ok "&(&(cn>=a\\2a\\5c)(!(cn=a\\2a\\5c)))(member=*\"value\":*\\28b\\29*)" ∧
      registry.compile ⟨.preserve⟩ (.compare "label" "lt" "a b") "team" =
        .ok "&(cn<=a b)(!(cn=a b))" := by
    apply exists_ok_of_decide
    decide +kernel
  obtain ⟨registry, hbuild, hescaped, hverbatim⟩ := hsample
  have hplain : ∀ literal ∈ (Filter.compare "label" "lt" "a b").literals, ∀ c ∈ literal.toList,
      c ∉ ['\\', '*', '(', ')', '\x00'] := by
    simp [Filter.literals]
  refine ⟨registry, hbuild, ?_, hplain, ?_⟩
  · rw [(compile_rfc4515 registry _ "team").1, hescaped]
  · rw [(compile_rfc4515 registry _ "team").2.2 hplain, hverbatim]

end Registry

end ScimDirectory
