import ScimDirectory.Proofs.Filter.Compilation
import ScimDirectory.Proofs.Schema.DeclarationOrder

/-!
# Compilation and the order of declarations

A compiler sees of a resource type only what its paths resolve to. Two resource types that resolve
every path to the same result, errors included, therefore compile every filter to the same result.
Together with the independence of resolution this makes the order of declarations irrelevant at all
of its levels: resource types, attributes, extensions, and the fields of an extension.

## Main results

* `Filter.compile_congr`: compilation depends on a resource type through resolution only.
* `Registry.compile_eq_of_rearranged`: **two registries of the same declarations in another order
  resolve every path and compile every filter alike**.
-/

namespace ScimDirectory

/-- **Compilation sees only what paths resolve to.** Induction on the filter; the scope is
generalised, because a grouping replaces it. -/
theorem Filter.compile_congr {r s : Resource} (h : ∀ path, r.resolve path = s.resolve path)
    (escaping : Escaping) (filter : Filter) (scope : Option String) :
    filter.compile r escaping scope = filter.compile s escaping scope := by
  have hleaf : ∀ op path value, r.leafFilter op path value = s.leafFilter op path value := by
    intro op path value
    rw [Resource.leafFilter, Resource.leafFilter, h]
  induction filter generalizing scope with
  | present path => rw [compile_present _ "", compile_present _ "", hleaf]
  | compare path token value => simp only [compile_compare, hleaf]
  | grouping carrier operand ih => rw [compile_grouping, compile_grouping, ih]
  | and left right ihl ihr => rw [compile_and, compile_and, ihl, ihr]
  | or left right ihl ihr => rw [compile_or, compile_or, ihl, ihr]
  | not operand ih => rw [compile_not, compile_not, ih]

namespace Registry

variable {declarations rearranged : List ResourceDeclaration} {r s : Registry}

/-- A resource type is found in both registries or in neither, and both resolve every path of it
to the same result. -/
theorem resource?_rel (h : Rearranged ResourceDeclaration.SameUpToOrder declarations rearranged)
    (hr : build declarations = .ok r) (hs : build rearranged = .ok s) (name : String) :
    Option.Rel (fun a b => ∀ path, a.resolve path = b.resolve path)
      (r.resource? name) (s.resource? name) := by
  have hfound := h.sameEntries.find?_rel (fun _ _ hab => hab.name_eq) (distinct_of_build hr)
    (distinct_of_build hs) name
  have hformed : ∀ a ∈ Named.find? declarations name, a.IsWellFormed := fun a ha =>
    isWellFormed_of_build hr (Named.mem_of_find? ha)
  have hformed' : ∀ b ∈ Named.find? rearranged name, b.IsWellFormed := fun b hb =>
    isWellFormed_of_build hs (Named.mem_of_find? hb)
  rw [resource?_eq_of_build hr, resource?_eq_of_build hs]
  generalize Named.find? declarations name = x, Named.find? rearranged name = y
    at hfound hformed hformed' ⊢
  cases hfound with
  | none => exact .none
  | @some a b hab =>
      refine .some fun path => ?_
      have ha := hformed a rfl
      have hb := hformed' b rfl
      rw [a.resolve_resource ha, b.resolve_resource hb, hab.resolve_eq ha hb]

/-- **The order of declarations does not matter.** Where two lists of declarations both build a
registry, and are the same up to the order of the resource types, of the attributes and the
extensions of each, and of the fields of each extension, every path of every resource type resolves
to the same result in both registries, and every filter compiles to the same result. -/
theorem compile_eq_of_rearranged
    (h : Rearranged ResourceDeclaration.SameUpToOrder declarations rearranged)
    (hr : build declarations = .ok r) (hs : build rearranged = .ok s) :
    (∀ path name, r.resolve path name = s.resolve path name) ∧
      ∀ config filter name, r.compile config filter name = s.compile config filter name := by
  have hrequire : ∀ name, Option.Rel (fun a b => ∀ path, a.resolve path = b.resolve path)
      (r.resource? name) (s.resource? name) := resource?_rel h hr hs
  constructor
  · intro path name
    have hname := hrequire name
    rw [Registry.resolve, Registry.resolve, require, require]
    generalize r.resource? name = x, s.resource? name = y at hname ⊢
    cases hname with
    | none => rfl
    | some hsame => exact hsame path
  · intro config filter name
    have hname := hrequire name
    rw [Registry.compile, Registry.compile, require, require]
    generalize r.resource? name = x, s.resource? name = y at hname ⊢
    cases hname with
    | none => rfl
    | @some a b hsame =>
        have hcompiled := Filter.compile_congr hsame config.escaping filter none
        exact congrArg (fun compiled => compiled >>= fun d => pure d.text) hcompiled

/-- Two small resource types, one with overlapping names and URNs, and the same ones in another
order throughout. -/
theorem compile_eq_of_rearranged_crew :
    Rearranged ResourceDeclaration.SameUpToOrder [Sample.team, Sample.crew]
        [Sample.crewRearranged, Sample.team] ∧
      ∃ r s, build [Sample.team, Sample.crew] = .ok r ∧
        build [Sample.crewRearranged, Sample.team] = .ok s ∧
        (∀ path name, r.resolve path name = s.resolve path name) ∧
        ∀ config filter name, r.compile config filter name = s.compile config filter name := by
  have hsame : Rearranged ResourceDeclaration.SameUpToOrder [Sample.team, Sample.crew]
      [Sample.crewRearranged, Sample.team] := by
    refine ⟨[Sample.crew, Sample.team], List.Perm.swap _ _ _, ?_⟩
    exact .cons Sample.sameUpToOrder_crew (.cons (.refl Sample.team) .nil)
  have hbuild : ∃ r, build [Sample.team, Sample.crew] = .ok r :=
    exists_ok_of_isOk (by decide +kernel)
  have hbuild' : ∃ s, build [Sample.crewRearranged, Sample.team] = .ok s :=
    exists_ok_of_isOk (by decide +kernel)
  obtain ⟨r, hr⟩ := hbuild
  obtain ⟨s, hs⟩ := hbuild'
  exact ⟨hsame, r, s, hr, hs, compile_eq_of_rearranged hsame hr hs⟩

end Registry

end ScimDirectory
