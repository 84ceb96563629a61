import ScimDirectory.Catalog

/-!
# Declarations

What a schema author writes: each resource type lists its attributes flat, by path, and its
extensions with their fields. A declaration may be malformed; building the registry decides.
-/

namespace ScimDirectory

/-- The data types of attributes. -/
inductive AttributeType where
  | string
  | boolean
  | decimal
  | integer
  | dateTime
  | binary
  | reference
  | complex
deriving DecidableEq, Repr, Inhabited

namespace AttributeType

/-- All data types, in the order in which they are listed to users. -/
def all : List AttributeType :=
  [string, boolean, decimal, integer, dateTime, binary, reference, complex]

/-- The name of a data type in schema documents. -/
def name : AttributeType → String
  | string => "string"
  | boolean => "boolean"
  | decimal => "decimal"
  | integer => "integer"
  | dateTime => "dateTime"
  | binary => "binary"
  | reference => "reference"
  | complex => "complex"

/-- The data type of that name. -/
def ofName? (name : String) : Option AttributeType :=
  all.find? fun type => type.name = name

/-- A data type is known by its name. -/
theorem ofName?_name (type : AttributeType) : ofName? type.name = some type := by
  cases type <;> decide +kernel

end AttributeType

/-- One attribute of a resource declaration. -/
structure AttributeDeclaration where
  /-- The path of the attribute; a part of a complex attribute comes after that attribute. -/
  path : String
  /-- The backend name, where it differs from the last segment of the path. -/
  storageName : Option String := none
  type : AttributeType := .string
  multiValued : Bool := false
  description : String := ""
deriving DecidableEq, Repr, Inhabited

/-- One field of an extension declaration. -/
structure FieldDeclaration where
  name : String
  /-- The backend name, where it differs from the name. -/
  storageName : Option String := none
  type : AttributeType := .string
  multiValued : Bool := false
  description : String := ""
deriving DecidableEq, Repr, Inhabited

/-- A schema extension: further fields for a resource type, under a URN of their own. -/
structure ExtensionDeclaration where
  urn : String
  name : String
  description : String := ""
  fields : List FieldDeclaration
deriving DecidableEq, Repr, Inhabited

/-- The backend attribute of the identifier where a declaration does not name one. -/
def defaultIdentifier : String :=
  "inum"

/-- One resource type with its attributes and extensions. -/
structure ResourceDeclaration where
  /-- The resource type, such as `User`. -/
  name : String
  /-- The URN of the core schema. -/
  schema : String
  description : String := ""
  /-- The path of the resources relative to the service. -/
  endpoint : String := ""
  /-- The complex attribute whose parts are stored as backend attributes of their own. -/
  nameAttribute : Option String := none
  /-- The backend attribute that holds the identifier. -/
  identifier : String := defaultIdentifier
  attributes : List AttributeDeclaration
  extensions : List ExtensionDeclaration := []
deriving DecidableEq, Repr, Inhabited

instance : Named ResourceDeclaration := ⟨ResourceDeclaration.name⟩
instance : Named ExtensionDeclaration := ⟨ExtensionDeclaration.urn⟩
instance : Named FieldDeclaration := ⟨FieldDeclaration.name⟩
instance : Named AttributeDeclaration := ⟨AttributeDeclaration.path⟩

end ScimDirectory
