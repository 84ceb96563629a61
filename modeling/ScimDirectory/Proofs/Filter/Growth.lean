import ScimDirectory.Proofs.Filter.Compilation
import ScimDirectory.Proofs.Schema.Growth

/-!
# Compilation and added declarations

Schemas are extended while filters on them are in use. A filter that compiles today compiles to the
same text after resource types, attributes, parts, extensions and extension fields were added,
wherever in the declarations they were inserted. A compiler looks at a resource type only through
the targets of the paths in the filter, as they read inside their groupings, and those stay where
they were as long as no such path begins with the URN of an added extension.

## Main results

* `Filter.compile_of_targets`: compilation depends on the targets of the paths in the filter only.
* `Registry.compile_of_growth`: **what compiled before compiles to the same text**.
-/

namespace ScimDirectory

namespace Filter

/-- The paths in the leaves of a filter, as they read inside their innermost groupings. -/
def scopedPaths (scope : Option String) : Filter → List String
  | present path => [scopedPath scope path]
  | compare path _ _ => [scopedPath scope path]
  | grouping carrier operand => operand.scopedPaths (some carrier)
  | and left right | or left right => left.scopedPaths scope ++ right.scopedPaths scope
  | not operand => operand.scopedPaths scope

variable {r s : Resource} {escaping : Escaping}

/-- Where every path of the first resource type leads to the same target in the second. -/
def KeepsTargets (r s : Resource) (paths : List String) : Prop :=
  ∀ path ∈ paths, ∀ target, r.resolve path = .ok target → s.resolve path = .ok target

theorem keepsTargets_append {paths more : List String} :
    KeepsTargets r s (paths ++ more) ↔ KeepsTargets r s paths ∧ KeepsTargets r s more := by
  simp only [KeepsTargets, List.mem_append, or_imp, forall_and]

/-- **A filter compiles to the same result** where its paths lead to the same targets. Induction on
the filter; the scope is generalised, because a grouping replaces it. -/
theorem compile_of_targets {filter : Filter} {scope : Option String} {d : DirectoryFilter}
    (h : KeepsTargets r s (filter.scopedPaths scope))
    (hcompile : filter.compile r escaping scope = .ok d) :
    filter.compile s escaping scope = .ok d := by
  induction filter generalizing scope d with
  | present path =>
      obtain ⟨target, hresolve, hleaf⟩ := (compile_present_eq_ok_iff "").mp hcompile
      have hkept := h _ (List.mem_singleton_self _) target hresolve
      exact (compile_present_eq_ok_iff "").mpr ⟨target, hkept, hleaf⟩
  | compare path token value =>
      obtain ⟨op, target, htoken, hresolve, hleaf⟩ := compile_compare_eq_ok_iff.mp hcompile
      have hkept := h _ (List.mem_singleton_self _) target hresolve
      exact compile_compare_eq_ok_iff.mpr ⟨op, target, htoken, hkept, hleaf⟩
  | grouping carrier operand ih =>
      rw [compile_grouping] at hcompile ⊢
      exact ih h hcompile
  | and left right ihl ihr =>
      obtain ⟨hleft, hright⟩ := keepsTargets_append.mp h
      obtain ⟨a, b, ha, hb, rfl⟩ := compile_and_eq_ok_iff.mp hcompile
      exact compile_and_eq_ok_iff.mpr ⟨a, b, ihl hleft ha, ihr hright hb, rfl⟩
  | or left right ihl ihr =>
      obtain ⟨hleft, hright⟩ := keepsTargets_append.mp h
      obtain ⟨a, b, ha, hb, rfl⟩ := compile_or_eq_ok_iff.mp hcompile
      exact compile_or_eq_ok_iff.mpr ⟨a, b, ihl hleft ha, ihr hright hb, rfl⟩
  | not operand ih =>
      obtain ⟨a, ha, rfl⟩ := compile_not_eq_ok_iff.mp hcompile
      exact compile_not_eq_ok_iff.mpr ⟨a, ih h ha, rfl⟩

end Filter

namespace Registry

variable {older newer : List ResourceDeclaration} {r s : Registry}

/-- A resource type that was declared before is registered as it has grown, and keeps the targets of
all paths that avoid the added extensions. -/
theorem exists_grown (h : List.SublistForall₂ ResourceDeclaration.GrowsTo older newer)
    (hr : build older = .ok r) (hs : build newer = .ok s) {name : String} {resource : Resource}
    (hresource : r.resource? name = some resource) :
    ∃ a ∈ older, ∃ b ∈ newer, Alike a.name name ∧ a.GrowsTo b ∧
      s.resource? name = some b.resource ∧
      ∀ paths, (∀ path ∈ paths, a.AvoidsAdded b path) →
        Filter.KeepsTargets resource b.resource paths := by
  rw [resource?_eq_of_build hr] at hresource
  obtain ⟨a, ha, rfl⟩ := Option.map_eq_some_iff.mp hresource
  have hmem := Named.mem_of_find? ha
  obtain ⟨b, hb, hgrows⟩ := Covered.of_sublistForall₂ h a hmem
  have halike : Alike b.name name := hgrows.name ▸ Named.alike_of_find? ha
  have hfind := (distinct_of_build hs).find?_eq_some_iff.mpr ⟨hb, halike⟩
  have hformed := isWellFormed_of_build hr hmem
  have hformed' := isWellFormed_of_build hs hb
  refine ⟨a, hmem, b, hb, Named.alike_of_find? ha, hgrows, ?_, ?_⟩
  · rw [resource?_eq_of_build hs, hfind, Option.map_some]
  · intro paths havoids path hpath target hresolve
    rw [a.resolve_resource hformed] at hresolve
    rw [b.resolve_resource hformed']
    exact hgrows.resolve_eq_ok hformed' (havoids path hpath) hresolve

/-- The resource type of a team, grown: there are further attributes and parts among the old ones, a
further field in its extension, and extensions whose URNs begin the old one or go on from it. -/
def Sample.teamGrown : ResourceDeclaration :=
  { Sample.team with
    attributes := [
      { path := "label", storageName := some "cn" },
      { path := "place", type := .complex },
      { path := "members", storageName := some "member", type := .complex },
      { path := "members.kind" },
      { path := "members.value" },
      { path := "place.town" },
      { path := "title", type := .complex },
      { path := "title.short", storageName := some "sn" } ]
    extensions := [
      { urn := "urn:te", name := "te", fields := [{ name := "level" }] },
      { urn := "urn:team:x", name := "x", fields := [{ name := "rank" }, { name := "level" }] },
      { urn := "urn:team:x:y", name := "y", fields := [{ name := "level" }] } ] }

theorem Sample.growsTo_teamGrown : Sample.team.GrowsTo Sample.teamGrown where
  name := rfl
  schema := rfl
  nameAttribute := rfl
  identifier := rfl
  attributes := by decide +kernel
  extensions := .cons_right (.cons ⟨rfl, by decide +kernel⟩ .nil)

/-- A filter with a grouping and with a path into an extension. -/
def Sample.levelFilter : Filter :=
  .and (.grouping "members" (.present "value")) (.compare "urn:team:x:level" "ne" "a")

/-- **What compiled before compiles to the same text**, whatever the way of escaping. The newer
declarations are the older ones with further resource types, attributes, parts, extensions and
extension fields inserted anywhere among them, and no path in the filter, as it reads inside its
groupings, begins with the URN of an extension that was added to its resource type. -/
theorem compile_of_growth (h : List.SublistForall₂ ResourceDeclaration.GrowsTo older newer)
    (hr : build older = .ok r) (hs : build newer = .ok s) {name : String} {filter : Filter}
    (havoids : ∀ a ∈ older, ∀ b ∈ newer, Alike a.name name → a.GrowsTo b →
      ∀ path ∈ filter.scopedPaths none, a.AvoidsAdded b path)
    {config : CompilerConfig} {text : String}
    (hcompile : r.compile config filter name = .ok text) :
    s.compile config filter name = .ok text := by
  obtain ⟨resource, d, hresource, hd, rfl⟩ := compile_eq_ok_iff.mp hcompile
  obtain ⟨a, ha, b, hb, halike, hgrows, hgrown, hkeeps⟩ := exists_grown h hr hs hresource
  have hpaths := hkeeps _ (havoids a ha b hb halike hgrows)
  exact compile_eq_ok_iff.mpr ⟨b.resource, d, hgrown, Filter.compile_of_targets hpaths hd, rfl⟩

/-- A filter on a small resource type, before and after it has grown among other resource types. -/
theorem compile_of_growth_team :
    List.SublistForall₂ ResourceDeclaration.GrowsTo [Sample.team] [Sample.crew, Sample.teamGrown] ∧
      ∃ r s, build [Sample.team] = .ok r ∧ build [Sample.crew, Sample.teamGrown] = .ok s ∧
        (∀ path ∈ Sample.levelFilter.scopedPaths none,
          Sample.team.AvoidsAdded Sample.teamGrown path) ∧
        r.compile {} Sample.levelFilter "team" =
          .ok "&(&(member=*)(member=*\"value\":\"*))(!(level=a))" ∧
        s.compile {} Sample.levelFilter "team" =
          .ok "&(&(member=*)(member=*\"value\":\"*))(!(level=a))" := by
  have hgrows : List.SublistForall₂ ResourceDeclaration.GrowsTo [Sample.team]
      [Sample.crew, Sample.teamGrown] :=
    .cons_right (.cons Sample.growsTo_teamGrown .nil)
  have hbuild : ∃ r, build [Sample.team] = .ok r ∧ r.compile {} Sample.levelFilter "team" =
      .ok "&(&(member=*)(member=*\"value\":\"*))(!(level=a))" := by
    apply exists_ok_of_decide
    decide +kernel
  have hbuild' : ∃ s, build [Sample.crew, Sample.teamGrown] = .ok s :=
    exists_ok_of_isOk (by decide +kernel)
  obtain ⟨r, hr, hcompile⟩ := hbuild
  obtain ⟨s, hs⟩ := hbuild'
  have havoids : ∀ path ∈ Sample.levelFilter.scopedPaths none,
      Sample.team.AvoidsAdded Sample.teamGrown path := by
    decide +kernel
  refine ⟨hgrows, r, s, hr, hs, havoids, hcompile, compile_of_growth hgrows hr hs ?_ hcompile⟩
  intro a ha b hb _ hab
  obtain rfl := List.mem_singleton.mp ha
  rcases List.mem_cons.mp hb with rfl | hb
  · exact absurd hab.name (by decide)
  · obtain rfl := List.mem_singleton.mp hb
    exact havoids

end Registry

end ScimDirectory
