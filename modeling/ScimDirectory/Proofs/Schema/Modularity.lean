import ScimDirectory.Proofs.Schema.Assembly
import ScimDirectory.Proofs.Schema.Targets

/-!
# Declarations behind others

Whoever adds a resource type to a list of declarations wants to know what that does to the others,
and what the others do to it. The answer is a law about lists: a registry of more declarations is
the registry of the first ones, with the rest registered behind it (`Registry.build_append`). Of a
list that fails nothing behind the failure counts, and of a list that succeeds nothing is built
anew. The one thing that a declaration takes from those before it is whether its name is among
theirs, and that is asked before anything else; apart from that it is built, or refused, as if it
were declared alone.

## Main results

* `Registry.build_append`: a build goes on from what the declarations before have built.
* `Registry.build_concat_of_taken`, `Registry.build_concat_of_fresh`: one more declaration.
* `Registry.extends_of_build`: the registry of a longer list answers for the first resource types as
  theirs does.
* `Registry.build_modular`: **the build is modular in the list of declarations**.
-/

namespace ScimDirectory

section Register

variable {registered : List Resource} {declaration : ResourceDeclaration}

/-- A name that is taken is refused, whatever else is declared under it. -/
theorem register_of_taken (h : Named.has registered declaration.name = true) :
    register registered declaration =
      .error (.duplicate declaration.name declaration.name) := by
  rw [register, if_pos h]
  rfl

/-- Under a fresh name the resource type is built, or refused, without a look at the others. -/
theorem register_of_fresh (h : Named.has registered declaration.name = false) :
    register registered declaration = do return registered ++ [← declaration.build] := by
  rw [register, if_neg (Bool.eq_false_iff.mp h)]

end Register

namespace Registry

/-- The larger registry holds the resource types of the smaller one in front, and answers for them
as that does. -/
structure Extends (larger smaller : Registry) : Prop where
  resourceTypes : smaller.resourceTypes <+: larger.resourceTypes
  resource? : ∀ name resource, smaller.resource? name = some resource →
    larger.resource? name = some resource
  resolve : ∀ name resource, smaller.resource? name = some resource →
    ∀ path, larger.resolve path name = smaller.resolve path name

/-- **A build goes on** from what the declarations before have built. -/
theorem build_append (xs ys : List ResourceDeclaration) :
    build (xs ++ ys) = do
      let registry ← build xs
      return ⟨.ofList (← ys.foldlM register registry.resourceTypes)⟩ := by
  simp only [build, List.foldlM_append, bind_assoc, pure_bind, resourceTypes,
    Catalog.toList_ofList]

/-- A list that fails is not saved by what stands behind it. -/
theorem build_append_of_error {xs : List ResourceDeclaration} {e : BuildError}
    (h : build xs = .error e) (ys : List ResourceDeclaration) :
    build (xs ++ ys) = .error e := by
  rw [build_append, h]
  rfl

/-- A declaration alone builds its own resource type. -/
theorem build_singleton (declaration : ResourceDeclaration) :
    build [declaration] = do return ⟨.ofList [← declaration.build]⟩ := by
  simp [build, register, Named.has]

section Concat

variable {xs : List ResourceDeclaration} {registry : Registry} (h : build xs = .ok registry)
  {declaration : ResourceDeclaration}
include h

/-- The names taken in a registry are those declared for it. -/
theorem has_resourceTypes_iff {name : String} :
    Named.has registry.resourceTypes name = true ↔
      ∃ earlier ∈ xs, Alike earlier.name name := by
  rw [resourceTypes_of_build h, Named.has_map ResourceDeclaration.resource fun _ => rfl,
    Named.has_iff]
  rfl

theorem build_concat (declaration : ResourceDeclaration) :
    build (xs ++ [declaration]) = do
      return ⟨.ofList (← register registry.resourceTypes declaration)⟩ := by
  rw [build_append, h]
  simp only [List.foldlM_cons, List.foldlM_nil, bind_pure]
  rfl

/-- **One more declaration under a name that is taken** is refused for that. -/
theorem build_concat_of_taken (htaken : ∃ earlier ∈ xs, Alike earlier.name declaration.name) :
    build (xs ++ [declaration]) = .error (.duplicate declaration.name declaration.name) := by
  rw [build_concat h, register_of_taken ((has_resourceTypes_iff h).mpr htaken)]
  rfl

/-- **One more declaration under a fresh name** is built, or refused, as if it were alone. -/
theorem build_concat_of_fresh (hfresh : ∀ earlier ∈ xs, ¬ Alike earlier.name declaration.name) :
    build (xs ++ [declaration]) = do
      let alone ← build [declaration]
      return ⟨.ofList (registry.resourceTypes ++ alone.resourceTypes)⟩ := by
  have hhas : Named.has registry.resourceTypes declaration.name = false := by
    rw [Bool.eq_false_iff]
    exact fun htaken =>
      let ⟨earlier, hmem, halike⟩ := (has_resourceTypes_iff h).mp htaken
      hfresh earlier hmem halike
  rw [build_concat h, register_of_fresh hhas, build_singleton]
  simp only [bind_assoc, pure_bind, resourceTypes, Catalog.toList_ofList]

/-- **The registry of a longer list** answers for the first resource types as theirs does. -/
theorem extends_of_build {ys : List ResourceDeclaration} {larger : Registry}
    (hlarger : build (xs ++ ys) = .ok larger) : larger.Extends registry := by
  have hfound : ∀ name resource, registry.resource? name = some resource →
      larger.resource? name = some resource := by
    intro name resource hresource
    rw [resource?_eq_of_build h] at hresource
    obtain ⟨declaration, hfind, rfl⟩ := Option.map_eq_some_iff.mp hresource
    have hfirst : Named.find? (xs ++ ys) name = some declaration := by
      rw [Named.find?, List.find?_append, show List.find? _ xs = _ from hfind, Option.some_or]
    rw [resource?_eq_of_build hlarger, hfirst, Option.map_some]
  refine ⟨?_, hfound, ?_⟩
  · rw [resourceTypes_of_build h, resourceTypes_of_build hlarger, List.map_append]
    exact List.prefix_append _ _
  · intro name resource hresource path
    rw [Registry.resolve, Registry.resolve, require, require, hresource,
      hfound name resource hresource]

end Concat

/-- **The build is modular in the list of declarations.** Where some declarations build no registry,
neither do they with others behind them, for the same reason. Where they do, one more declaration is
refused if its name is among theirs, whatever it declares; if not, it is refused as it is when it is
declared alone, or else its resource type comes behind theirs. And every registry that goes on from
theirs answers for their resource types as theirs does. -/
theorem build_modular (xs : List ResourceDeclaration) :
    (∀ e, build xs = .error e → ∀ ys, build (xs ++ ys) = .error e) ∧
    ∀ registry, build xs = .ok registry →
      (∀ d : ResourceDeclaration, (∃ earlier ∈ xs, Alike earlier.name d.name) →
        build (xs ++ [d]) = .error (.duplicate d.name d.name)) ∧
      (∀ d : ResourceDeclaration, (∀ earlier ∈ xs, ¬ Alike earlier.name d.name) →
        (∀ e, build [d] = .error e → build (xs ++ [d]) = .error e) ∧
        ∀ alone, build [d] = .ok alone → ∃ resource larger, alone.resourceTypes = [resource] ∧
          build (xs ++ [d]) = .ok larger ∧
          larger.resourceTypes = registry.resourceTypes ++ [resource]) ∧
      ∀ ys larger, build (xs ++ ys) = .ok larger → larger.Extends registry := by
  refine ⟨fun e h => build_append_of_error h, fun registry h => ⟨fun d => build_concat_of_taken h,
    fun d hfresh => ⟨fun e hd => ?_, fun alone hd => ?_⟩, fun ys larger => extends_of_build h⟩⟩
  · rw [build_concat_of_fresh h hfresh, hd]
    rfl
  · have hlarger := build_concat_of_fresh h hfresh
    rw [hd] at hlarger
    refine ⟨d.resource, _, resourceTypes_of_build hd, hlarger, ?_⟩
    rw [resourceTypes, Catalog.toList_ofList, resourceTypes_of_build hd]
    rfl

/-- A resource type under any name that declares a part of an attribute, but not the attribute. -/
def Sample.orphan (name : String) : ResourceDeclaration where
  name := name
  schema := "urn:orphan"
  attributes := [{ path := "members.value" }]

/-- The malformed resource type under a name that is taken, under a fresh name, and in front; and a
well-formed one behind another. -/
theorem build_modular_team :
    ∃ registry larger, build [Sample.team] = .ok registry ∧
      build ([Sample.team] ++ [Sample.orphan "TEAM"]) = .error (.duplicate "TEAM" "TEAM") ∧
      build ([Sample.team] ++ [Sample.orphan "club"]) =
        .error (.missingParent "club" "members") ∧
      build ([Sample.orphan "club"] ++ [Sample.team]) =
        .error (.missingParent "club" "members") ∧
      build ([Sample.team] ++ [Sample.crew]) = .ok larger ∧
      larger.resourceTypes = registry.resourceTypes ++ [Sample.crew.resource] ∧
      larger.Extends registry := by
  have hteam : ∃ registry, build [Sample.team] = .ok registry :=
    exists_ok_of_isOk (by decide +kernel)
  have hcrew : ∃ alone, build [Sample.crew] = .ok alone := exists_ok_of_isOk (by decide +kernel)
  have hclub : build [Sample.orphan "club"] = .error (.missingParent "club" "members") := by
    refine eq_error_of_map (f := fun _ => ()) ?_
    decide +kernel
  obtain ⟨registry, hteam⟩ := hteam
  obtain ⟨alone, hcrew⟩ := hcrew
  obtain ⟨-, hsucceeds⟩ := build_modular [Sample.team]
  obtain ⟨htaken, hfresh, hextends⟩ := hsucceeds registry hteam
  obtain ⟨resource, larger, halone, hlarger, htypes⟩ :=
    (hfresh Sample.crew (by decide +kernel)).2 alone hcrew
  obtain rfl : Sample.crew.resource = resource := by
    rw [resourceTypes_of_build hcrew] at halone
    exact (List.cons.inj halone).1
  have hname : Alike Sample.team.name (Sample.orphan "TEAM").name :=
    alike_iff_map.mpr (by decide +kernel)
  refine ⟨registry, larger, hteam, ?_, ?_, ?_, hlarger, htypes,
    hextends [Sample.crew] larger hlarger⟩
  · exact htaken (Sample.orphan "TEAM") ⟨Sample.team, List.mem_singleton_self _, hname⟩
  · exact (hfresh (Sample.orphan "club") (by decide +kernel)).1 _ hclub
  · exact (build_modular [Sample.orphan "club"]).1 _ hclub [Sample.team]

end Registry

end ScimDirectory
