import ScimDirectory.Proofs.Discovery.Publication

/-!
# Schemas under their identifiers

A schema document is listed by `schemas` and served by `schema?` under its URN. Both go through the
resource types in their order, but in different ways: the listing is a traversal, the look-up a
search for the first owner of the URN and then a choice between its core schema and its extensions.
The two agree: what is served is the first listed document with that URN.

Within one resource type the extensions have different URNs. Between resource types URNs are not
compared: an extension may well be declared for several of them, and then only the document that is
listed first is served.

## Main results

* `Discovery.schema?_eq_find?`: look-up by URN is a search in the listing.
* `DiscoveryConfig.location_inj`: an address is that of one URN only.
* `Discovery.serves_listed`: **what is served for a listed document.**
* `Discovery.hides_shared_extension`: a listed document that is not served under its own identifier.
-/

namespace ScimDirectory

/-- A search for an entry that a partial function is defined on, and then the function, are one
search for its value. -/
theorem find?_bind_eq_findSome? {α β : Type} {p : α → Bool} {f : α → Option β}
    (h : ∀ x, p x = (f x).isSome) (xs : List α) : (xs.find? p).bind f = xs.findSome? f := by
  induction xs with
  | nil => rfl
  | cons x xs ih =>
      rw [List.find?_cons, List.findSome?_cons, h]
      cases hx : f x with
      | none => exact ih
      | some y => exact hx

/-- The address of a document determines its identifier. -/
theorem DiscoveryConfig.location_inj {config : DiscoveryConfig} {endpoint a b : String} :
    config.location endpoint a = config.location endpoint b ↔ a = b :=
  String.append_right_inj _

namespace Discovery

variable {discovery : Discovery}

/-! ### Look-up and listing -/

/-- The documents that are listed for one resource type. -/
def documentsOf (discovery : Discovery) (resource : Resource) : List SchemaDocument :=
  discovery.coreDocument resource :: resource.extensions.map discovery.extensionDocument

/-- The document that one resource type has for a URN, as its core schema if it can. -/
def documentOf? (discovery : Discovery) (urn : String) (resource : Resource) :
    Option SchemaDocument :=
  if Alike resource.schema urn then some (discovery.coreDocument resource)
  else (resource.extension? urn).map discovery.extensionDocument

/-- A resource type has a document for the URNs that it owns. -/
theorem owns_eq_isSome (resource : Resource) (urn : String) :
    resource.owns urn = (discovery.documentOf? urn resource).isSome := by
  rw [Resource.owns, documentOf?]
  by_cases h : Alike resource.schema urn
  · rw [if_pos h, decide_eq_true h]
    rfl
  · rw [if_neg h, decide_eq_false h, Option.isSome_map, Bool.false_or]

/-- The document that one resource type has for a URN is the first one in its listing. -/
theorem find?_documentsOf (resource : Resource) (urn : String) :
    (discovery.documentsOf resource).find? (fun document => Alike document.id urn) =
      discovery.documentOf? urn resource := by
  rw [documentsOf, documentOf?]
  by_cases h : Alike resource.schema urn
  · rw [if_pos h, List.find?_cons_of_pos (by exact decide_eq_true h)]
  · rw [if_neg h, List.find?_cons_of_neg (by exact decide_eq_true_iff.not.mpr h), List.find?_map]
    rfl

/-- **Look-up by URN is a search in the listing** of all schemas. -/
theorem schema?_eq_find? (discovery : Discovery) (urn : String) :
    discovery.schema? urn = discovery.schemas.find? fun document => Alike document.id urn := by
  calc discovery.schema? urn
      = (discovery.registry.ownerOf? urn).bind (discovery.documentOf? urn) := by
        rw [schema?]
        refine congrArg (Option.bind _) (funext fun resource => ?_)
        rw [documentOf?]
        split
        · rfl
        · cases resource.extension? urn <;> rfl
    _ = discovery.registry.resourceTypes.findSome? (discovery.documentOf? urn) :=
        find?_bind_eq_findSome? (fun resource => owns_eq_isSome resource urn) _
    _ = discovery.registry.resourceTypes.findSome? fun resource =>
          (discovery.documentsOf resource).find? fun document => Alike document.id urn := by
        simp only [find?_documentsOf]
    _ = discovery.schemas.find? fun document => Alike document.id urn :=
        List.find?_flatMap.symm

/-- A listed document is served under its identifier, if no earlier one has the same identifier. -/
theorem schema?_of_first {before after : List SchemaDocument} {document : SchemaDocument}
    (hlisted : discovery.schemas = before ++ document :: after)
    (hfirst : ∀ earlier ∈ before, ¬ Alike earlier.id document.id) :
    discovery.schema? document.id = some document := by
  rw [schema?_eq_find?, List.find?_eq_some_iff_append]
  refine ⟨decide_eq_true Alike.rfl, before, after, hlisted, fun earlier hearlier => ?_⟩
  rw [Bool.not_eq_true', decide_eq_false_iff_not]
  exact hfirst earlier hearlier

/-- Under the identifier of a listed document some listed document is served. -/
theorem exists_served {document : SchemaDocument} (h : document ∈ discovery.schemas) :
    ∃ served ∈ discovery.schemas,
      discovery.schema? document.id = some served ∧ Alike served.id document.id := by
  have hfound : (discovery.schema? document.id).isSome = true := by
    rw [schema?_eq_find?, List.find?_isSome]
    exact ⟨document, h, decide_eq_true Alike.rfl⟩
  obtain ⟨served, hserved⟩ := Option.isSome_iff_exists.mp hfound
  refine ⟨served, ?_, hserved, ?_⟩ <;> rw [schema?_eq_find?] at hserved
  · exact List.mem_of_find?_eq_some hserved
  · exact of_decide_eq_true (List.find?_some hserved :)

/-! ### Identifiers and addresses -/

/-- Every listed document says of itself what belongs to its identifier. -/
theorem metadata_of_mem {document : SchemaDocument} (h : document ∈ discovery.schemas) :
    document.metadata = discovery.schemaMeta document.id := by
  obtain ⟨resource, -, hdocument⟩ := List.mem_flatMap.mp h
  rcases List.mem_cons.mp hdocument with rfl | hextension
  · rfl
  · obtain ⟨extension, -, rfl⟩ := List.mem_map.mp hextension
    rfl

/-- The extensions of one registered resource type have different URNs. -/
theorem distinct_extensions_of_build {declarations : List ResourceDeclaration}
    (h : Registry.build declarations = .ok discovery.registry) {resource : Resource}
    (hmem : resource ∈ discovery.registry.resourceTypes) : Named.Distinct resource.extensions := by
  rw [Registry.resourceTypes_of_build h] at hmem
  obtain ⟨declaration, hdeclaration, rfl⟩ := List.mem_map.mp hmem
  exact List.pairwise_map.mpr
    (Registry.isWellFormed_of_build h hdeclaration).distinct_extensions

end Discovery

/-! ### What is served for a listed document -/

/-- The extension of `Sample.team`. -/
def Sample.teamLevel : ExtensionDeclaration where
  urn := "urn:team:x"
  name := "x"
  fields := [{ name := "level" }]

/-- Another extension under the same URN. -/
def Sample.clubRank : ExtensionDeclaration where
  urn := "urn:team:x"
  name := "z"
  fields := [{ name := "rank" }]

/-- A resource type that shares the URN of an extension with `Sample.team`. -/
def Sample.club : ResourceDeclaration where
  name := "club"
  schema := "urn:club"
  attributes := [{ path := "label" }]
  extensions := [Sample.clubRank]

/-- The schemas of two resource types that share the URN of an extension. -/
theorem Sample.exists_schemas_club :
    ∃ registry, Registry.build [Sample.team, Sample.club] = .ok registry ∧
      (Discovery.mk registry {}).schemas =
        [Sample.team.coreDocument {}, Sample.teamLevel.document {},
          Sample.club.coreDocument {}, Sample.clubRank.document {}] := by
  have hsample : ∃ registry, Registry.build [Sample.team, Sample.club] = .ok registry :=
    exists_ok_of_isOk (by decide +kernel)
  obtain ⟨registry, hbuild⟩ := hsample
  exact ⟨registry, hbuild, Registry.schemas_of_build hbuild {}⟩

namespace Discovery

/-- **A listed document that is not served under its own identifier**: two resource types declare
different extensions under one URN, so that two documents are listed under one identifier and one
address. The first of them is served. -/
theorem hides_shared_extension :
    ∃ registry, Registry.build [Sample.team, Sample.club] = .ok registry ∧
      ∃ a ∈ (Discovery.mk registry {}).schemas, ∃ b ∈ (Discovery.mk registry {}).schemas,
        a.id = b.id ∧ a.metadata = b.metadata ∧
          (Discovery.mk registry {}).schema? b.id = some a ∧
          (Discovery.mk registry {}).schema? b.id ≠ some b := by
  obtain ⟨registry, hbuild, hschemas⟩ := Sample.exists_schemas_club
  have hlisted : (Discovery.mk registry {}).schemas =
      [Sample.team.coreDocument {}] ++ Sample.teamLevel.document {} ::
        [Sample.club.coreDocument {}, Sample.clubRank.document {}] := hschemas
  have hserved : (Discovery.mk registry {}).schema? (Sample.clubRank.document {}).id =
      some (Sample.teamLevel.document {}) :=
    schema?_of_first hlisted (by decide +kernel)
  have hdifferent : (Sample.teamLevel.document {}).name ≠ (Sample.clubRank.document {}).name := by
    decide
  refine ⟨registry, hbuild, Sample.teamLevel.document {}, ?_, Sample.clubRank.document {}, ?_,
    rfl, rfl, hserved, ?_⟩
  · simp [hschemas]
  · simp [hschemas]
  · rw [hserved]
    exact fun heq => hdifferent (congrArg SchemaDocument.name (Option.some.inj heq))

/-- **What is served for a listed document.** A document is served under its identifier unless an
earlier one in the listing has the same identifier, and some listed document with that identifier is
served in any case. The extensions of one resource type do not share identifiers, and what shares
its address with another document shares its identifier. -/
theorem serves_listed (discovery : Discovery) {declarations : List ResourceDeclaration}
    (h : Registry.build declarations = .ok discovery.registry) :
    (∀ before document after, discovery.schemas = before ++ document :: after →
        (∀ earlier ∈ before, ¬ Alike earlier.id document.id) →
        discovery.schema? document.id = some document) ∧
      (∀ document ∈ discovery.schemas, ∃ served ∈ discovery.schemas,
        discovery.schema? document.id = some served ∧ Alike served.id document.id) ∧
      (∀ resource ∈ discovery.registry.resourceTypes,
        (resource.extensions.map discovery.extensionDocument).Pairwise
          fun a b => ¬ Alike a.id b.id) ∧
      ∀ a ∈ discovery.schemas, ∀ b ∈ discovery.schemas,
        a.metadata.location = b.metadata.location → a.id = b.id := by
  refine ⟨fun _ _ _ => schema?_of_first, fun _ => exists_served, ?_, ?_⟩
  · intro resource hresource
    exact List.pairwise_map.mpr (distinct_extensions_of_build h hresource)
  · intro a ha b hb hlocation
    rw [metadata_of_mem ha, metadata_of_mem hb] at hlocation
    exact DiscoveryConfig.location_inj.mp hlocation

/-- Of two resource types that share the URN of an extension, the core schema of the second one is
served under its own identifier. -/
theorem serves_listed_club :
    ∃ registry, Registry.build [Sample.team, Sample.club] = .ok registry ∧
      Sample.club.coreDocument {} ∈ (Discovery.mk registry {}).schemas ∧
      (Discovery.mk registry {}).schema? "urn:club" = some (Sample.club.coreDocument {}) := by
  obtain ⟨registry, hbuild, hschemas⟩ := Sample.exists_schemas_club
  obtain ⟨hserves, -⟩ := serves_listed (Discovery.mk registry {}) hbuild
  refine ⟨registry, hbuild, by simp [hschemas], ?_⟩
  exact hserves [Sample.team.coreDocument {}, Sample.teamLevel.document {}] _ _ hschemas
    (by decide +kernel)

end Discovery

end ScimDirectory
