import ScimDirectory.Proofs.Discovery.Identity
import ScimDirectory.Proofs.Schema.Invariant

/-!
# Single documents are found in the listings

A client may read all documents or ask for a single one, by name or by URN, and learns the same
either way. A name belongs to one resource type at most, as the registry refuses a second one; a URN
may belong to several schemas, and then the one that is listed first counts. Nothing that a document
of a resource type refers to is missing: each URN in it is that of a listed schema.

## Main results

* `Discovery.filter_resourceTypes`: look-up by name finds the only document of that name.
* `Discovery.lookup_eq_search`: **look-ups are searches in the listings**, and what documents refer
  to is found.
-/

namespace ScimDirectory

namespace Discovery

variable {discovery : Discovery}

/-- **Look-up by name finds the only document of that name**, if there is one. -/
theorem filter_resourceTypes {declarations : List ResourceDeclaration}
    (h : Registry.build declarations = .ok discovery.registry) (name : String) :
    (discovery.resourceTypes.filter fun document => Alike document.name name) =
      (discovery.resourceType? name).toList := by
  have hdistinct := Registry.distinct_resourceTypes_of_build h
  calc (discovery.resourceTypes.filter fun document => Alike document.name name)
      = (discovery.registry.resourceTypes.filter fun resource => Alike resource.name name).map
          discovery.resourceTypeDocument := List.filter_map
    _ = (Named.find? discovery.registry.resourceTypes name).toList.map
          discovery.resourceTypeDocument := congrArg _ (hdistinct.filter_eq name)
    _ = (discovery.resourceType? name).toList := by
        rw [resourceType?, Registry.resource?_eq_find?, Option.toList_map]

/-- The schemas of a registered resource type are listed. -/
theorem mem_schemas {resource : Resource} (hmem : resource ∈ discovery.registry.resourceTypes)
    {document : SchemaDocument} (hdocument : document ∈ discovery.documentsOf resource) :
    document ∈ discovery.schemas :=
  List.mem_flatMap.mpr ⟨resource, hmem, hdocument⟩

/-- **What the document of a resource type refers to is listed**: a schema for each URN in it. -/
theorem exists_listed {document : ResourceTypeDocument} (h : document ∈ discovery.resourceTypes)
    {urn : String}
    (hurn : urn ∈ document.schema :: document.extensions.map ExtensionReference.schema) :
    ∃ listed ∈ discovery.schemas, listed.id = urn := by
  obtain ⟨resource, hresource, rfl⟩ := List.mem_map.mp h
  rcases List.mem_cons.mp hurn with rfl | hurn
  · exact ⟨_, mem_schemas hresource List.mem_cons_self, rfl⟩
  · obtain ⟨_, hreference, rfl⟩ := List.mem_map.mp hurn
    obtain ⟨extension, hextension, rfl⟩ := List.mem_map.mp hreference
    have hlisted : discovery.extensionDocument extension ∈ discovery.documentsOf resource :=
      List.mem_cons_of_mem _ (List.mem_map_of_mem hextension)
    exact ⟨_, mem_schemas hresource hlisted, rfl⟩

/-- **Look-ups are searches in the listings.** Under a URN the first listed schema with that
identifier is served, whichever resource type it belongs to and be it a core schema or an
extension, and nothing if there is none. Under a name the document of a resource type is served
that is the only one of its name, and nothing if there is none. A listed schema is served under each
URN that the document of a resource type holds. -/
theorem lookup_eq_search (discovery : Discovery) {declarations : List ResourceDeclaration}
    (h : Registry.build declarations = .ok discovery.registry) :
    (∀ urn, discovery.schema? urn =
        discovery.schemas.find? fun document => Alike document.id urn) ∧
      (∀ name, (discovery.resourceTypes.filter fun document => Alike document.name name) =
        (discovery.resourceType? name).toList) ∧
      ∀ document ∈ discovery.resourceTypes,
        ∀ urn ∈ document.schema :: document.extensions.map ExtensionReference.schema,
          ∃ served ∈ discovery.schemas,
            discovery.schema? urn = some served ∧ Alike served.id urn := by
  refine ⟨discovery.schema?_eq_find?, filter_resourceTypes h, fun document hdocument urn hurn => ?_⟩
  obtain ⟨listed, hlisted, rfl⟩ := exists_listed hdocument hurn
  exact exists_served hlisted

/-- Two resource types share the URN of an extension. What is served under it is the extension of
the first, whatever the letter case; the names of both are theirs alone. -/
theorem lookup_eq_search_club :
    ∃ registry, Registry.build [Sample.team, Sample.club] = .ok registry ∧
      (Discovery.mk registry {}).schema? "URN:Team:X" = some (Sample.teamLevel.document {}) ∧
      (Discovery.mk registry {}).resourceType? "club" = some (Sample.club.typeDocument {}) ∧
      (Discovery.mk registry {}).resourceType? "clubs" = none := by
  obtain ⟨registry, hbuild, hschemas⟩ := Sample.exists_schemas_club
  have htypes := Registry.resourceTypeDocuments_of_build hbuild {}
  obtain ⟨hschema, htype, -⟩ := lookup_eq_search (Discovery.mk registry {}) hbuild
  have hother : ¬ Alike (Sample.team.coreDocument {}).id "URN:Team:X" :=
    alike_iff_map.not.mpr (by decide +kernel)
  have hshared : Alike (Sample.teamLevel.document {}).id "URN:Team:X" :=
    alike_iff_map.mpr (by decide +kernel)
  refine ⟨registry, hbuild, ?_, ?_, ?_⟩
  · rw [hschema, hschemas, List.find?_cons_of_neg (by exact decide_eq_true_iff.not.mpr hother),
      List.find?_cons_of_pos (by exact decide_eq_true hshared)]
  · rw [← Option.toList_eq_singleton_iff, ← htype, htypes]
    decide +kernel
  · rw [← Option.toList_eq_nil_iff, ← htype, htypes]
    decide +kernel

end Discovery

end ScimDirectory
