import ScimDirectory.Declaration.Standard
import ScimDirectory.Schema.Build

/-!
# The registry

The schemas of all resource types, found by name and by the URNs that they own. A registry is built
once, from a list of declarations; one malformed declaration fails the whole build.
-/

namespace ScimDirectory

/-- The schemas of all resource types in the order of their registration. -/
structure Registry where
  resources : Catalog Resource

/-- Register one declaration behind the resources registered before. -/
def register (registered : List Resource) (declaration : ResourceDeclaration) :
    Except BuildError (List Resource) := do
  if Named.has registered declaration.name then
    throw (.duplicate declaration.name declaration.name)
  return registered ++ [← declaration.build]

namespace Registry

/-- **Build the registry** of a list of declarations. -/
def build (declarations : List ResourceDeclaration) : Except BuildError Registry := do
  return ⟨.ofList (← declarations.foldlM register [])⟩

/-- The registry of the standard resource types. -/
def standard : Except BuildError Registry :=
  build Standard.declarations

/-- The resource types in the order of their registration. -/
def resourceTypes (registry : Registry) : List Resource :=
  registry.resources.toList

/-- The resource type that is found under `name`. -/
def resource? (registry : Registry) (name : String) : Option Resource :=
  registry.resources.find? name

/-- The first resource type that owns a URN, as its core schema or as an extension. -/
def ownerOf? (registry : Registry) (urn : String) : Option Resource :=
  registry.resourceTypes.find? fun resource => resource.owns urn

/-- Look-up by name is a search through the resource types in their order. -/
theorem resource?_eq_find? (registry : Registry) (name : String) :
    registry.resource? name = Named.find? registry.resourceTypes name :=
  registry.resources.find?_eq name

end Registry

end ScimDirectory
