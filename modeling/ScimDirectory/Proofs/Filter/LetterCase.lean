import ScimDirectory.Proofs.Filter.Agreement
import ScimDirectory.Proofs.Schema.LetterCase

/-!
# Letter case in filters

Nothing but the literals of a filter keeps its letter case: the name of the resource type, the
paths, the carriers of groupings and the tokens of operators are all compared with the case of ASCII
letters set aside, and what a compiled filter is made of besides the literals comes from the
declarations. Two filters that differ in letter case outside their literals therefore compile to the
very same text. If they do not compile, they fail in the same way, and the errors differ in letter
case at most.

## Main results

* `scopedPath_alike`: alike paths inside groupings on alike carriers read alike.
* `Resource.leafFilter_alike`: alike leaves compile to the same filter, or fail with alike errors.
* `Registry.compile_agree_alike`: **the letter case of everything but literals is ignored**.
-/

namespace ScimDirectory

/-! ### Names -/

theorem Alike.dotted {p q n m : String} (hparent : Alike p q) (hname : Alike n m) :
    Alike (dotted p n) (dotted q m) := by
  rw [alike_iff_map, toList_dotted, toList_dotted, List.map_append, List.map_append,
    List.map_cons, List.map_cons, alike_iff_map.mp hparent, alike_iff_map.mp hname]

/-- **Alike paths read alike** inside groupings on alike carriers. -/
theorem scopedPath_alike {scope scope' : Option String} {p q : String}
    (hscope : Option.Rel Alike scope scope') (hpath : Alike p q) :
    Alike (scopedPath scope p) (scopedPath scope' q) := by
  cases hscope with
  | none => exact hpath
  | some hcarrier =>
      have hurn : isUrnQualified p.toList = isUrnQualified q.toList :=
        AlikeChars.isUrnQualified_eq (alike_iff_map.mp hpath)
      simp only [scopedPath, dot_mem_iff_of_alike hpath, hurn]
      split
      · exact hpath
      · exact hcarrier.dotted hpath

/-! ### Leaves -/

/-- **Alike leaves** on one value compile to the same filter, or fail with alike errors. -/
theorem Resource.leafFilter_alike (resource : Resource) (op : Operator) {p q : String}
    (h : Alike p q) (value : String) :
    Agree AlikeErrors Eq (resource.leafFilter op p value) (resource.leafFilter op q value) := by
  refine (resource.resolve_alike h).bind ?_
  rintro target _ rfl
  cases target.leaf? op value with
  | none => exact .error (.unsupportedOnFragment op h)
  | some d => exact .ok rfl

/-! ### Filters -/

/-- Filters that are alike in all but their literals, which are the same, compile to the same tree,
or fail with alike errors. -/
theorem Filter.Related.agree_compile_alike {f g : Filter} (h : Related Alike Eq f g)
    (resource : Resource) (escaping : Escaping) :
    Agree AlikeErrors Eq (f.compile resource escaping none) (g.compile resource escaping none) := by
  have hescape : ∀ {v w : String}, v = w → escaping.apply v = escaping.apply w := fun hliteral =>
    congrArg escaping.apply hliteral
  have hleaf : ∀ op {p q v w : String}, Alike p q → v = w →
      Agree AlikeErrors Eq (resource.leafFilter op p v) (resource.leafFilter op q w) := by
    rintro op p q v _ hpath rfl
    exact resource.leafFilter_alike op hpath v
  refine h.agree_compile scopedPath_alike ?_ hescape Eq.refl hleaf
    DirectoryFilter.isCongruence_eq .none
  intro s t htoken
  exact ⟨Operator.ofToken?_eq_of_alike htoken, .unknownOperator htoken⟩

namespace Registry

/-- Alike names find the same resource type, or none. -/
theorem require_alike (registry : Registry) {a b : String} (h : Alike a b) :
    Agree AlikeErrors Eq (registry.require a) (registry.require b) := by
  rw [require, require, resource?_eq_find?, resource?_eq_find?, Named.find?_congr h]
  cases Named.find? registry.resourceTypes b with
  | none => exact .error (.unknownResourceType h)
  | some resource => exact .ok rfl

/-- **Letter case is ignored outside literals**: for every registry and way of escaping, two filters
of one shape whose paths, carriers and tokens are alike and whose literals are the same, compiled
for alike names of a resource type, give the identical text, or fail with alike errors. -/
theorem compile_agree_alike {f g : Filter} (hfilter : Filter.Related Alike Eq f g) {a b : String}
    (hname : Alike a b) (registry : Registry) (config : CompilerConfig) :
    Agree AlikeErrors Eq (registry.compile config f a) (registry.compile config g b) := by
  refine (registry.require_alike hname).bind ?_
  rintro resource _ rfl
  refine (hfilter.agree_compile_alike resource config.escaping).bind ?_
  rintro d _ rfl
  exact .ok rfl

/-- A name, a carrier, a path and a token in capitals; the literal is `Ada` in both filters. -/
theorem compile_agree_alike_team :
    ∃ registry s, build [Sample.team] = .ok registry ∧
      registry.compile ⟨.rfc4515⟩ (.grouping "members" (.compare "value" "eq" "Ada")) "team" =
        .ok s ∧
      registry.compile ⟨.rfc4515⟩ (.grouping "Members" (.compare "VALUE" "Eq" "Ada")) "TEAM" =
        .ok s := by
  have hsample : ∃ registry, build [Sample.team] = .ok registry ∧
      (registry.compile ⟨.rfc4515⟩ (.grouping "members" (.compare "value" "eq" "Ada"))
        "team").isOk = true := by
    apply exists_ok_of_decide
    decide +kernel
  obtain ⟨registry, hbuild, hok⟩ := hsample
  have hfilter : Filter.Related Alike Eq (.grouping "members" (.compare "value" "eq" "Ada"))
      (.grouping "Members" (.compare "VALUE" "Eq" "Ada")) :=
    .grouping (alike_iff_map.mpr (by decide))
      (.compare (alike_iff_map.mpr (by decide)) (alike_iff_map.mpr (by decide)) rfl)
  have hname : Alike "team" "TEAM" := alike_iff_map.mpr (by decide)
  obtain ⟨s, _, hs, ht, rfl⟩ :=
    (compile_agree_alike hfilter hname registry ⟨.rfc4515⟩).exists_of_isOk hok
  exact ⟨registry, s, hbuild, hs, ht⟩

end Registry

end ScimDirectory
