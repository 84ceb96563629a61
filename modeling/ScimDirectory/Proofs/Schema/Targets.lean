import ScimDirectory.Proofs.Checked
import ScimDirectory.Schema.Resolve

/-!
# Where a path can lead

A path that resolves leads to a backend name that some declaration of the resource gave:
the identifier, or the storage name of an attribute, of a part or of an extension field. The key
inside the text of a carrier is such a storage name, too. Whatever holds of all these names
(`Resource.backendNames`) therefore holds of every target.

## Main results

* `Resource.resolve_eq_ok_iff`: the three stages of a successful resolution.
* `Resource.mem_backendNames_of_resolve`: **targets are made of backend names**.
-/

namespace ScimDirectory

/-- A small resource type to try things on: a plain attribute, a complex one with a part, a name
attribute with a part, and an extension. -/
def Sample.team : ResourceDeclaration where
  name := "team"
  schema := "urn:team"
  nameAttribute := some "title"
  attributes := [
    { path := "label", storageName := some "cn" },
    { path := "members", storageName := some "member", type := .complex },
    { path := "members.value" },
    { path := "title", type := .complex },
    { path := "title.short", storageName := some "sn" } ]
  extensions := [{ urn := "urn:team:x", name := "x", fields := [{ name := "level" }] }]

/-- A resource type whose names and URNs run into each other: an attribute is named like a path that
the core schema qualifies, another like a path under an unknown URN, and the URN of one extension
begins that of the other. -/
def Sample.crew : ResourceDeclaration where
  name := "crew"
  schema := "urn:crew"
  attributes := [
    { path := "label", storageName := some "cn" },
    { path := "urn:crew:label" },
    { path := "urn:label" } ]
  extensions := [
    { urn := "urn:x", name := "x", fields := [{ name := "level" }, { name := "y:level" }] },
    { urn := "urn:x:y", name := "y", fields := [{ name := "level", storageName := some "rank" }] } ]

namespace Resource

/-- Every name under which the backend stores something of the resource. -/
def backendNames (resource : Resource) : List String :=
  resource.identifier ::
    (resource.attributes.toList.flatMap fun a => a.storageName :: a.parts.map Field.storageName) ++
    resource.extensions.flatMap fun extension => extension.fields.map Field.storageName

theorem identifier_mem_backendNames (resource : Resource) :
    resource.identifier ∈ resource.backendNames := by
  simp [backendNames]

theorem storageName_mem_backendNames {resource : Resource} {a : Attribute}
    (h : a ∈ resource.attributes.toList) : a.storageName ∈ resource.backendNames := by
  simp only [backendNames, List.mem_append, List.mem_cons, List.mem_flatMap]
  exact .inl (.inr ⟨a, h, .inl rfl⟩)

theorem partName_mem_backendNames {resource : Resource} {a : Attribute} {part : Field}
    (ha : a ∈ resource.attributes.toList) (hpart : part ∈ a.parts) :
    part.storageName ∈ resource.backendNames := by
  simp only [backendNames, List.mem_append, List.mem_cons, List.mem_flatMap]
  exact .inl (.inr ⟨a, ha, .inr (List.mem_map_of_mem hpart)⟩)

theorem fieldName_mem_backendNames {resource : Resource} {extension : Extension} {field : Field}
    (he : extension ∈ resource.extensions) (hfield : field ∈ extension.fields) :
    field.storageName ∈ resource.backendNames := by
  simp only [backendNames, List.mem_append, List.mem_flatMap]
  exact .inr ⟨extension, he, List.mem_map_of_mem hfield⟩

/-- What is found under a name is one of the attributes. -/
theorem mem_of_attribute? {resource : Resource} {name : String} {a : Attribute}
    (h : resource.attribute? name = some a) : a ∈ resource.attributes.toList := by
  rw [attribute?_eq_find?] at h
  exact Named.mem_of_find? h

/-- **Stages of a successful resolution**: the path belongs to a schema, has at most two segments
there, none of them empty, and these lead to the target. -/
theorem resolve_eq_ok_iff {resource : Resource} {path : String} {target : Target} :
    resource.resolve path = .ok target ↔
      ∃ space rest attributePath, resource.locate? path.toList = some (space, rest) ∧
        AttributePath.ofChars? rest = some attributePath ∧
        attributePath.hasEmptySegment = false ∧
        resource.targetIn? space attributePath = some target := by
  rw [resolve]
  constructor
  · intro h
    split at h
    · cases h
    · next space rest hlocate =>
        split at h
        · cases h
        · next attributePath hpath =>
            split at h
            · cases h
            · next hempty =>
                split at h
                · cases h
                · next found htarget =>
                    obtain rfl := Except.ok.inj h
                    exact ⟨space, rest, attributePath, hlocate, hpath, by simpa using hempty,
                      htarget⟩
  · rintro ⟨space, rest, attributePath, hlocate, hpath, hempty, htarget⟩
    simp only [hlocate, hpath, hempty, htarget]
    rfl

/-- The name is that of the name attribute, whose parts are stored natively. -/
def isNative (resource : Resource) (name : String) : Bool :=
  resource.nameAttribute.any fun n => Alike n name

/-- The target of a simple path: the identifier for the name attribute, else what the attribute of
that name is stored under. -/
theorem coreTarget?_simple (resource : Resource) (name : String) :
    resource.coreTarget? (.simple name) =
      if resource.isNative name then some (.plain resource.identifier false .core)
      else (resource.attribute? name).map fun a => .plain a.storageName a.isComplex .core :=
  rfl

/-- The target of a path to a part: what the part of the name attribute is stored under, else the
carrier and the key of the part. -/
theorem coreTarget?_part (resource : Resource) (parent name : String) :
    resource.coreTarget? (.part parent name) =
      (resource.attribute? parent).bind fun carrier =>
        if resource.isNative parent || carrier.isComplex then
          (carrier.part? name).map fun part =>
            if resource.isNative parent then .plain part.storageName part.isComplex .core
            else .fragment carrier.storageName part.storageName
        else none := by
  have hnative : (resource.nameAttribute.any fun n => decide (Alike n parent)) =
      resource.isNative parent := rfl
  simp only [coreTarget?, hnative, bind]
  cases resource.attribute? parent with
  | none => rfl
  | some carrier =>
      rw [Option.bind_some, Option.bind_some]
      cases resource.isNative parent <;> cases carrier.isComplex <;> cases carrier.part? name <;>
        rfl

/-- The target of a simple path within an extension is what its field is stored under. -/
theorem extensionTarget?_simple (resource : Resource) (urn name : String) :
    resource.extensionTarget? urn (.simple name) =
      (resource.extension? urn).bind fun extension =>
        (extension.field? name).map fun field =>
          .plain field.storageName false (.extension urn) := by
  simp only [extensionTarget?, bind]
  cases resource.extension? urn with
  | none => rfl
  | some extension => cases h : extension.field? name <;> simp [h]

/-- A target of the core schema is made of backend names. -/
theorem mem_backendNames_of_coreTarget? {resource : Resource} {path : AttributePath}
    {target : Target} (h : resource.coreTarget? path = some target) :
    target.backendName ∈ resource.backendNames ∧
      ∀ key ∈ target.key?, key ∈ resource.backendNames := by
  cases path with
  | simple name =>
      rw [coreTarget?_simple] at h
      split at h
      · obtain rfl := Option.some.inj h
        exact ⟨resource.identifier_mem_backendNames, by simp [Target.key?]⟩
      · obtain ⟨a, ha, rfl⟩ := Option.map_eq_some_iff.mp h
        exact ⟨storageName_mem_backendNames (mem_of_attribute? ha), by simp [Target.key?]⟩
  | part parent name =>
      rw [coreTarget?_part] at h
      obtain ⟨carrier, hcarrier, h⟩ := Option.bind_eq_some_iff.mp h
      split at h
      · obtain ⟨part, hpart, rfl⟩ := Option.map_eq_some_iff.mp h
        have hmem := mem_of_attribute? hcarrier
        have hname := partName_mem_backendNames hmem (Named.mem_of_find? hpart)
        split
        · exact ⟨hname, by simp [Target.key?]⟩
        · exact ⟨storageName_mem_backendNames hmem, by simpa [Target.key?] using hname⟩
      · cases h

/-- A target of an extension is the backend name of one of its fields. -/
theorem mem_backendNames_of_extensionTarget? {resource : Resource} {urn : String}
    {path : AttributePath} {target : Target}
    (h : resource.extensionTarget? urn path = some target) :
    target.backendName ∈ resource.backendNames ∧
      ∀ key ∈ target.key?, key ∈ resource.backendNames := by
  cases path with
  | simple name =>
      rw [extensionTarget?_simple] at h
      obtain ⟨extension, hextension, h⟩ := Option.bind_eq_some_iff.mp h
      obtain ⟨field, hfield, rfl⟩ := Option.map_eq_some_iff.mp h
      exact ⟨fieldName_mem_backendNames (Named.mem_of_find? hextension)
        (Named.mem_of_find? hfield), by simp [Target.key?]⟩
  | part parent name => cases h

/-- **Targets are made of backend names**: whatever a path resolves to, the name to filter on and
the key, where there is one, were given by the declaration of the resource. -/
theorem mem_backendNames_of_resolve {resource : Resource} {path : String} {target : Target}
    (h : resource.resolve path = .ok target) :
    target.backendName ∈ resource.backendNames ∧
      ∀ key ∈ target.key?, key ∈ resource.backendNames := by
  obtain ⟨space, rest, attributePath, -, -, -, htarget⟩ := resolve_eq_ok_iff.mp h
  cases space with
  | core => exact mem_backendNames_of_coreTarget? htarget
  | extension urn => exact mem_backendNames_of_extensionTarget? htarget

end Resource

namespace Registry

/-- What is found under a name is one of the resource types. -/
theorem mem_of_resource? {registry : Registry} {name : String} {resource : Resource}
    (h : registry.resource? name = some resource) : resource ∈ registry.resourceTypes := by
  rw [resource?_eq_find?] at h
  exact Named.mem_of_find? h

/-- A resource type is found under its name, or the path is refused. -/
theorem require_eq_ok_iff {registry : Registry} {name : String} {resource : Resource} :
    registry.require name = .ok resource ↔ registry.resource? name = some resource := by
  rw [require]
  cases registry.resource? name <;> simp [pure, Except.pure, throw, throwThe, MonadExceptOf.throw]

/-- A path resolves for a resource type that is found under its name. -/
theorem resolve_eq_ok_iff {registry : Registry} {path name : String} {target : Target} :
    registry.resolve path name = .ok target ↔
      ∃ resource, registry.resource? name = some resource ∧ resource.resolve path = .ok target := by
  simp only [Registry.resolve, bind_eq_ok_iff, require_eq_ok_iff]

end Registry

end ScimDirectory
