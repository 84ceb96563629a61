import ScimDirectory.Declaration.Basic

/-!
# Resource schemas

What the registry hands out once it is built. A field is a named leaf with its backend name; an
attribute is a field that may have parts; a resource gathers the attributes of its core schema and
its extensions. Parts are fields, so nothing is nested deeper than one level.
-/

namespace ScimDirectory

/-- A leaf of a schema: an extension field, or a part of a complex attribute. -/
structure Field where
  /-- The name used in filters. -/
  name : String
  /-- The name the backend stores the values under. -/
  storageName : String
  type : AttributeType
  multiValued : Bool
  description : String
deriving DecidableEq, Repr, Inhabited

instance : Named Field := ⟨Field.name⟩

namespace Field

/-- The field is declared complex. -/
def isComplex (field : Field) : Bool :=
  field.type = .complex

/-- The backend stores the field under another name. -/
def isAliased (field : Field) : Bool :=
  field.name ≠ field.storageName

end Field

/-- An attribute of a core schema, with its parts in the order of their declaration. -/
structure Attribute extends Field where
  parts : List Field := []
deriving DecidableEq, Repr, Inhabited

instance : Named Attribute := ⟨fun a => a.name⟩

namespace Attribute

/-- The part of an attribute that is found under `name`. -/
def part? (a : Attribute) (name : String) : Option Field :=
  Named.find? a.parts name

end Attribute

/-- An extension: fields of its own under a URN. -/
structure Extension where
  urn : String
  name : String
  description : String
  fields : List Field
deriving DecidableEq, Repr, Inhabited

instance : Named Extension := ⟨Extension.urn⟩

namespace Extension

/-- The field of an extension that is found under `name`. -/
def field? (extension : Extension) (name : String) : Option Field :=
  Named.find? extension.fields name

end Extension

/-- The schema of one resource type. -/
structure Resource where
  /-- The resource type, such as `User`. -/
  name : String
  /-- The URN of the core schema. -/
  schema : String
  description : String
  endpoint : String
  /-- The complex attribute whose parts are stored as backend attributes of their own. -/
  nameAttribute : Option String
  /-- The backend attribute that holds the identifier. -/
  identifier : String
  /-- The attributes of the core schema. -/
  attributes : Catalog Attribute
  extensions : List Extension

instance : Named Resource := ⟨Resource.name⟩

namespace Resource

/-- The attribute of the core schema that is found under `name`. -/
def attribute? (resource : Resource) (name : String) : Option Attribute :=
  resource.attributes.find? name

/-- The extension with the given URN. -/
def extension? (resource : Resource) (urn : String) : Option Extension :=
  Named.find? resource.extensions urn

/-- The URN is that of the core schema or of an extension of the resource. -/
def owns (resource : Resource) (urn : String) : Bool :=
  Alike resource.schema urn || (resource.extension? urn).isSome

/-- Attribute look-up is a search through the attributes in their order. -/
theorem attribute?_eq_find? (resource : Resource) (name : String) :
    resource.attribute? name = Named.find? resource.attributes.toList name :=
  resource.attributes.find?_eq name

end Resource

end ScimDirectory
