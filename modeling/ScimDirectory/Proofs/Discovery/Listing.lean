import ScimDirectory.Discovery.Document
import ScimDirectory.Proofs.Schema.Invariant

/-!
# What is listed is what can be filtered on

A client learns from the document of a core schema which paths it may use in a filter. The document
is rendered from the tree of attributes; a path is resolved by cutting it at its dots, with the name
attribute set apart and parts looked up in complex attributes only. For a path without a schema URN
the two agree on every text, however many dots or empty segments it has: it resolves if and only if
it is the name of an entry, or the name of an entry, a dot and the name of one of its parts. The
fields of extensions are not reached that way.

The invariant of a resource type carries this: a name is neither empty nor dotted, so that a listed
path is cut where the entries are; only complex attributes have parts, so that every part is listed;
and the name attribute, for which resolution asks no entry, has one.

## Main results

* `Resource.locate?_of_isUnqualified`: a path without a URN belongs to the core schema.
* `Resource.IsRegular.exists_coreTarget?_iff`: a path within the core schema has a target exactly
  when the tree has an entry for it.
* `Registry.resolve_iff_lists`: **unqualified paths resolve exactly when they are listed.**
-/

namespace ScimDirectory

/-! ### Listed paths -/

/-- The document has an entry under the path, or a part of an entry under both of their names with a
dot between them, letter case aside. -/
def SchemaDocument.Lists (document : SchemaDocument) (path : String) : Prop :=
  ∃ a ∈ document.attributes,
    Alike path a.name ∨ ∃ parts ∈ a.parts, ∃ part ∈ parts, Alike path (dotted a.name part.name)

/-- The core schema has an attribute for a path, or a part of one. -/
def Resource.HasEntry (resource : Resource) : AttributePath → Prop
  | .simple name => ∃ a ∈ resource.attributes.toList, Alike a.name name
  | .part parent name =>
      ∃ a ∈ resource.attributes.toList, Alike a.name parent ∧ ∃ part ∈ a.parts, Alike part.name name

/-- Whatever is alike to the name of an entry is neither empty nor dotted. -/
theorem Field.IsRegular.of_alike {field : Field} (h : field.IsRegular) {name : String}
    (halike : Alike name field.name) : name.isEmpty = false ∧ '.' ∉ name.toList := by
  refine ⟨?_, dot_not_mem_of_alike halike h.flat⟩
  rw [String.isEmpty_eq_false_iff]
  rintro rfl
  have hnil : field.name.toList.map Char.toLower = [] := (alike_iff_map.mp halike).symm
  exact h.name (String.toList_eq_nil_iff.mp (List.map_eq_nil_iff.mp hnil))

section Lists

variable {resource : Resource} {path : String}

/-- The document of a core schema lists the attributes and all their parts. -/
theorem Resource.IsRegular.lists_coreDocument_iff (h : resource.IsRegular) {discovery : Discovery} :
    (discovery.coreDocument resource).Lists path ↔
      ∃ a ∈ resource.attributes.toList,
        Alike path a.name ∨ ∃ part ∈ a.parts, Alike path (dotted a.name part.name) := by
  simp only [SchemaDocument.Lists, Discovery.coreDocument, List.mem_map, exists_exists_and_eq_and]
  refine exists_congr fun a => and_congr_right fun ha => or_congr_right ?_
  constructor
  · rintro ⟨parts, hparts, entry, hentry, halike⟩
    rw [Attribute.toSchemaAttribute, Field.toSchemaAttribute] at hparts
    split at hparts
    · obtain rfl := Option.some.inj hparts
      obtain ⟨part, hpart, rfl⟩ := List.mem_map.mp hentry
      exact ⟨part, hpart, halike⟩
    · cases hparts
  · rintro ⟨part, hpart, halike⟩
    have hcomplex := (h.attributes a ha).complex (List.ne_nil_of_mem hpart)
    exact ⟨a.parts.map Field.toPart, if_pos hcomplex, part.toPart, List.mem_map_of_mem hpart,
      halike⟩

/-- **A listed path is read as that of its entry**, and no other path is. -/
theorem Resource.IsRegular.lists_iff_hasEntry (h : resource.IsRegular) :
    (∃ a ∈ resource.attributes.toList,
        Alike path a.name ∨ ∃ part ∈ a.parts, Alike path (dotted a.name part.name)) ↔
      ∃ attributePath, AttributePath.ofChars? path.toList = some attributePath ∧
        attributePath.hasEmptySegment = false ∧ resource.HasEntry attributePath := by
  constructor
  · rintro ⟨a, ha, halike | ⟨part, hpart, halike⟩⟩
    · obtain ⟨hempty, hdot⟩ := (h.attributes a ha).field.of_alike halike
      exact ⟨.simple path, AttributePath.ofChars?_eq_simple_iff.mpr ⟨hdot, rfl⟩, hempty, a, ha,
        halike.symm⟩
    · obtain ⟨parent, name, rfl, hfirst, hsecond⟩ := exists_dotted_of_alike halike
      obtain ⟨hparent, hdot⟩ := (h.attributes a ha).field.of_alike hfirst
      obtain ⟨hname, hdot'⟩ := ((h.attributes a ha).parts part hpart).of_alike hsecond
      refine ⟨.part parent name, AttributePath.ofChars?_eq_part_iff.mpr ⟨⟨hdot, hdot'⟩, rfl⟩, ?_,
        a, ha, hfirst.symm, part, hpart, hsecond.symm⟩
      rw [AttributePath.hasEmptySegment, hparent, hname, Bool.or_self]
  · rintro ⟨attributePath, hpath, -, hentry⟩
    cases attributePath with
    | simple name =>
        obtain ⟨-, rfl⟩ := AttributePath.ofChars?_eq_simple_iff.mp hpath
        obtain ⟨a, ha, halike⟩ := hentry
        exact ⟨a, ha, .inl halike.symm⟩
    | part parent name =>
        obtain ⟨⟨hdot, -⟩, rfl⟩ := AttributePath.ofChars?_eq_part_iff.mp hpath
        obtain ⟨a, ha, hfirst, part, hpart, hsecond⟩ := hentry
        refine ⟨a, ha, .inr ⟨part, hpart, ?_⟩⟩
        rw [alike_dotted_iff hdot (h.attributes a ha).field.flat]
        exact ⟨hfirst.symm, hsecond.symm⟩

end Lists

/-! ### Targets of unqualified paths -/

/-- The path begins neither with `urn:` nor with a URN of the resource type and a colon. -/
def Resource.IsUnqualified (resource : Resource) (path : String) : Prop :=
  ¬ Alike (String.ofList (path.toList.take 4)) "urn:" ∧
    ∀ urn ∈ resource.schema :: resource.extensions.map Extension.urn, ¬ Qualifies urn path.toList

instance (resource : Resource) (path : String) : Decidable (resource.IsUnqualified path) :=
  inferInstanceAs (Decidable (_ ∧ _))

/-- A path belongs to no schema by its URN where no URN qualifies it. -/
theorem longestQualified?_eq_none_iff {path : List Char} {schemas : List (String × Namespace)} :
    longestQualified? path schemas = none ↔ ∀ schema ∈ schemas, ¬ Qualifies schema.1 path := by
  induction schemas with
  | nil => simp [longestQualified?]
  | cons schema more ih =>
      rw [longestQualified?, List.forall_mem_cons, ← ih, afterUrn?_eq]
      by_cases hqualifies : Qualifies schema.1 path
      · rw [if_pos hqualifies]
        cases longestQualified? path more with
        | none => simp [hqualifies]
        | some best => simp [hqualifies, ite_eq_iff]
      · simp [hqualifies]

namespace Resource

variable {resource : Resource} {path : String}

/-- **A path without a URN belongs to the core schema.** -/
theorem locate?_of_isUnqualified (h : resource.IsUnqualified path) :
    resource.locate? path.toList = some (.core, path.toList) := by
  obtain ⟨hscheme, hurns⟩ := h
  have hnone : longestQualified? path.toList resource.namespaces = none := by
    refine longestQualified?_eq_none_iff.mpr fun schema hschema => hurns schema.1 ?_
    rw [namespaces, List.mem_cons, List.mem_map] at hschema
    rcases hschema with rfl | ⟨extension, hextension, rfl⟩
    · exact List.mem_cons_self
    · exact List.mem_cons_of_mem _ (List.mem_map_of_mem hextension)
  rw [← isUrnQualified_iff] at hscheme
  rw [locate?, hnone, if_neg hscheme]

/-- The name of the name attribute has an entry. -/
theorem IsRegular.hasEntry_of_isNative (h : resource.IsRegular) {name : String}
    (hnative : resource.isNative name = true) : resource.HasEntry (.simple name) := by
  obtain ⟨n, hn, halike⟩ := (Option.any_eq_true ..).mp hnative
  obtain ⟨a, ha, hname, -⟩ := h.nameAttribute n hn
  exact ⟨a, ha, hname.trans (of_decide_eq_true halike)⟩

/-- **An entry is all that a target within the core schema takes.** The name attribute has one, and
the carrier of a part is complex. -/
theorem IsRegular.exists_coreTarget?_iff (h : resource.IsRegular) {attributePath : AttributePath} :
    (∃ target, resource.coreTarget? attributePath = some target) ↔
      resource.HasEntry attributePath := by
  have hfind : ∀ {name : String} {a : Attribute}, resource.attribute? name = some a ↔
      a ∈ resource.attributes.toList ∧ Alike a.name name := fun {name a} => by
    rw [attribute?_eq_find?]
    exact h.distinct.find?_eq_some_iff
  cases attributePath with
  | simple name =>
      rw [coreTarget?_simple]
      constructor
      · rintro ⟨target, htarget⟩
        split at htarget
        -- the name attribute leads to the identifier without a look-up
        · next hnative => exact h.hasEntry_of_isNative hnative
        · obtain ⟨a, ha, -⟩ := Option.map_eq_some_iff.mp htarget
          exact ⟨a, hfind.mp ha⟩
      · rintro ⟨a, ha⟩
        rw [hfind.mpr ha, Option.map_some, ← apply_ite some]
        exact ⟨_, rfl⟩
  | part parent name =>
      rw [coreTarget?_part]
      constructor
      · rintro ⟨target, htarget⟩
        obtain ⟨a, ha, hpart⟩ := Option.bind_eq_some_iff.mp htarget
        obtain ⟨hmem, halike⟩ := hfind.mp ha
        split at hpart
        · obtain ⟨part, hfound, -⟩ := Option.map_eq_some_iff.mp hpart
          exact ⟨a, hmem, halike, part, Named.mem_of_find? hfound, Named.alike_of_find? hfound⟩
        · cases hpart
      · rintro ⟨a, hmem, halike, part, hpart, hname⟩
        have hfound : a.part? name = some part :=
          (h.attributes a hmem).distinct.find?_eq_some_iff.mpr ⟨hpart, hname⟩
        have hcomplex : a.isComplex = true :=
          (h.attributes a hmem).complex (List.ne_nil_of_mem hpart)
        rw [hfind.mpr ⟨hmem, halike⟩, Option.bind_some, hcomplex, Bool.or_true, if_pos rfl, hfound]
        exact ⟨_, rfl⟩

/-- A target within the core schema is not one within an extension. -/
theorem space_of_coreTarget? {attributePath : AttributePath} {target : Target}
    (h : resource.coreTarget? attributePath = some target) : target.space = .core := by
  cases attributePath with
  | simple name =>
      rw [coreTarget?_simple] at h
      split at h
      · obtain rfl := Option.some.inj h
        rfl
      · obtain ⟨a, -, rfl⟩ := Option.map_eq_some_iff.mp h
        rfl
  | part parent name =>
      rw [coreTarget?_part] at h
      obtain ⟨carrier, -, h⟩ := Option.bind_eq_some_iff.mp h
      split at h
      · obtain ⟨part, -, rfl⟩ := Option.map_eq_some_iff.mp h
        split <;> rfl
      · cases h

/-- A target within an extension is in the schema of its URN. -/
theorem space_of_extensionTarget? {urn : String} {attributePath : AttributePath} {target : Target}
    (h : resource.extensionTarget? urn attributePath = some target) :
    target.space = .extension urn := by
  cases attributePath with
  | simple name =>
      rw [extensionTarget?_simple] at h
      obtain ⟨extension, -, h⟩ := Option.bind_eq_some_iff.mp h
      obtain ⟨field, -, rfl⟩ := Option.map_eq_some_iff.mp h
      rfl
  | part parent name => cases h

/-- What a path without a URN resolves to is what it leads to within the core schema. -/
theorem resolve_eq_ok_iff_of_isUnqualified (h : resource.IsUnqualified path) {target : Target} :
    resource.resolve path = .ok target ↔
      ∃ attributePath, AttributePath.ofChars? path.toList = some attributePath ∧
        attributePath.hasEmptySegment = false ∧
        resource.coreTarget? attributePath = some target := by
  rw [resolve_eq_ok_iff, locate?_of_isUnqualified h]
  constructor
  · rintro ⟨_, _, attributePath, ⟨⟩, hpath, hempty, htarget⟩
    exact ⟨attributePath, hpath, hempty, htarget⟩
  · rintro ⟨attributePath, hpath, hempty, htarget⟩
    exact ⟨.core, path.toList, attributePath, rfl, hpath, hempty, htarget⟩

end Resource

namespace Registry

/-- **Unqualified paths resolve exactly when they are listed.** In every registry that was built, a
path that begins neither with `urn:` nor with a URN of the resource type and a colon resolves if and
only if the document of the core schema has an entry or a part under it. It then leads into the core
schema, and never to what a field of an extension leads to. -/
theorem resolve_iff_lists {declarations : List ResourceDeclaration} {registry : Registry}
    (h : build declarations = .ok registry) {resource : Resource}
    (hmem : resource ∈ registry.resourceTypes) {name path : String}
    (hname : Alike resource.name name) (hpath : resource.IsUnqualified path)
    (config : DiscoveryConfig) :
    ((∃ target, registry.resolve path name = .ok target) ↔
        ((Discovery.mk registry config).coreDocument resource).Lists path) ∧
      ∀ target, registry.resolve path name = .ok target → target.space = .core ∧
        ∀ urn attributePath, resource.extensionTarget? urn attributePath ≠ some target := by
  have hregular := resource_isRegular_of_build h hmem
  have hresolve : ∀ target, registry.resolve path name = .ok target ↔
      resource.resolve path = .ok target := fun target => by
    rw [resolve_eq_ok_iff, resource?_eq_some_of_mem h hmem hname]
    exact ⟨fun ⟨_, heq, htarget⟩ => Option.some.inj heq ▸ htarget, fun htarget => ⟨_, rfl, htarget⟩⟩
  simp only [hresolve, Resource.resolve_eq_ok_iff_of_isUnqualified hpath]
  constructor
  · rw [hregular.lists_coreDocument_iff, hregular.lists_iff_hasEntry]
    simp only [← hregular.exists_coreTarget?_iff]
    constructor
    · rintro ⟨target, attributePath, hread, hempty, htarget⟩
      exact ⟨attributePath, hread, hempty, target, htarget⟩
    · rintro ⟨attributePath, hread, hempty, target, htarget⟩
      exact ⟨target, attributePath, hread, hempty, htarget⟩
  · rintro target ⟨attributePath, -, -, htarget⟩
    have hspace := Resource.space_of_coreTarget? htarget
    refine ⟨hspace, fun urn other hother => ?_⟩
    rw [Resource.space_of_extensionTarget? hother] at hspace
    cases hspace

/-- A part of the sample is listed and resolves; what its extension has is not listed. -/
theorem resolve_iff_lists_team :
    ∃ registry resource target, build [Sample.team] = .ok registry ∧
      resource ∈ registry.resourceTypes ∧ resource.IsUnqualified "members.value" ∧
      registry.resolve "members.value" "team" = .ok target ∧ target.space = .core ∧
      ((Discovery.mk registry {}).coreDocument resource).Lists "members.value" ∧
      ¬ ((Discovery.mk registry {}).coreDocument resource).Lists "level" := by
  have hsample : ∃ registry, build [Sample.team] = .ok registry ∧
      (∃ resource ∈ registry.resourceTypes, resource.name = "team" ∧
        resource.IsUnqualified "members.value" ∧ resource.IsUnqualified "level") ∧
      registry.resolve "members.value" "team" = .ok (.fragment "member" "value") ∧
      registry.resolve "level" "team" = .error (.unknownAttribute "level" "team") := by
    apply exists_ok_of_decide
    decide +kernel
  obtain ⟨registry, hbuild, ⟨resource, hmem, hname, hpart, hfield⟩, hresolve, hunknown⟩ := hsample
  have halike : Alike resource.name "team" := hname ▸ Alike.rfl
  obtain ⟨hlisted, hcore⟩ := resolve_iff_lists hbuild hmem halike hpart {}
  obtain ⟨hunlisted, -⟩ := resolve_iff_lists hbuild hmem halike hfield {}
  refine ⟨registry, resource, _, hbuild, hmem, hpart, hresolve, (hcore _ hresolve).1,
    hlisted.mp ⟨_, hresolve⟩, fun hlists => ?_⟩
  obtain ⟨target, htarget⟩ := hunlisted.mpr hlists
  rw [hunknown] at htarget
  cases htarget

end Registry

end ScimDirectory
