import ScimDirectory.Path
import ScimDirectory.Schema.Basic
import ScimDirectory.Text.Blank

/-!
# Building resource schemas

A declaration is checked while its schema is built: entry by entry, in the order in which they are
written, so that the first fault found is the one reported. Each entry is checked against those
that were placed before it.
-/

namespace ScimDirectory

/-- Why a list of declarations builds no registry. -/
inductive BuildError where
  /-- A path, or the name attribute, names a complex attribute that was not declared before. -/
  | missingParent (resource segment : String)
  /-- A name was declared before in the same namespace. -/
  | duplicate (owner name : String)
  /-- An entry would be stored under no name at all. -/
  | emptyStorageName (resource name : String)
  /-- A path leads through an attribute that is not complex. -/
  | parentNotComplex (resource path parent : String)
  /-- A path has more than two segments. -/
  | tooDeep (resource path : String)
  /-- A field of an extension has a dotted name. -/
  | nestedExtensionField (urn name : String)
deriving DecidableEq, Repr

namespace BuildError

/-- The text shown for a build error. -/
def message : BuildError → String
  | missingParent resource segment =>
      s!"Resource type '{resource}' has no parent attribute '{segment}'"
  | duplicate owner name => s!"Duplicate declaration of '{name}' in '{owner}'"
  | emptyStorageName resource name =>
      s!"Attribute '{name}' of '{resource}' has an empty storage name"
  | parentNotComplex resource path parent =>
      s!"Attribute '{path}' of '{resource}' is nested under non-complex '{parent}'"
  | tooDeep resource path =>
      s!"Attribute '{path}' of '{resource}' exceeds the supported depth of two segments"
  | nestedExtensionField urn name => s!"Extension '{urn}' declares nested field '{name}'"

end BuildError

namespace AttributeDeclaration

/-- The field that a declaration describes, called `leaf`. -/
def toField (declaration : AttributeDeclaration) (leaf : String) : Field where
  name := leaf
  storageName := declaration.storageName.getD leaf
  type := declaration.type
  multiValued := declaration.multiValued
  description := declaration.description

end AttributeDeclaration

namespace FieldDeclaration

/-- The field that a declaration describes. -/
def toField (declaration : FieldDeclaration) : Field where
  name := declaration.name
  storageName := declaration.storageName.getD declaration.name
  type := declaration.type
  multiValued := declaration.multiValued
  description := declaration.description

end FieldDeclaration

namespace Field

/-- The field has a name and would be stored under one. -/
def isStorable (field : Field) : Bool :=
  !field.name.isEmpty && !isBlank field.storageName

end Field

/-- Place one declared attribute behind those placed before: a simple path among the attributes
themselves, a path to a part among the parts of its parent. -/
def placeAttribute (resource : String) (placed : List Attribute)
    (declaration : AttributeDeclaration) : Except BuildError (List Attribute) :=
  match AttributePath.ofChars? declaration.path.toList with
  | none => throw (.tooDeep resource declaration.path)
  | some (.simple name) => do
      let field := declaration.toField name
      if Named.has placed name then throw (.duplicate resource declaration.path)
      if !field.isStorable then throw (.emptyStorageName resource declaration.path)
      return placed ++ [{ field with }]
  | some (.part parent name) => do
      let field := declaration.toField name
      let some carrier := Named.find? placed parent | throw (.missingParent resource parent)
      if !carrier.isComplex then
        throw (.parentNotComplex resource declaration.path carrier.name)
      if Named.has carrier.parts name then throw (.duplicate resource declaration.path)
      if !field.isStorable then throw (.emptyStorageName resource declaration.path)
      return placed.map fun a =>
        if Alike a.name parent then { a with parts := a.parts ++ [field] } else a

/-- Place one declared field behind those placed before. -/
def placeField (resource urn : String) (placed : List Field) (declaration : FieldDeclaration) :
    Except BuildError (List Field) := do
  if '.' ∈ declaration.name.toList then throw (.nestedExtensionField urn declaration.name)
  if Named.has placed declaration.name then throw (.duplicate urn declaration.name)
  if !declaration.toField.isStorable then throw (.emptyStorageName resource declaration.name)
  return placed ++ [declaration.toField]

/-- Place one declared extension behind those placed before. -/
def placeExtension (resource : String) (placed : List Extension)
    (declaration : ExtensionDeclaration) : Except BuildError (List Extension) := do
  if Named.has placed declaration.urn then throw (.duplicate resource declaration.urn)
  let fields ← declaration.fields.foldlM (placeField resource declaration.urn) []
  return placed ++ [{ declaration with fields }]

namespace ResourceDeclaration

/-- The name attribute, where there is one, is among the complex attributes. -/
def checkNameAttribute (declaration : ResourceDeclaration) (attributes : List Attribute) :
    Except BuildError Unit :=
  match declaration.nameAttribute with
  | none => return
  | some name =>
      if attributes.any fun a => Alike a.name name && a.isComplex then return
      else throw (.missingParent declaration.name name)

/-- **Build the schema of one resource type**: its attributes, then its name attribute and its
identifier, then its extensions. -/
def build (declaration : ResourceDeclaration) : Except BuildError Resource := do
  let attributes ← declaration.attributes.foldlM (placeAttribute declaration.name) []
  declaration.checkNameAttribute attributes
  if isBlank declaration.identifier then throw (.emptyStorageName declaration.name "id")
  let extensions ← declaration.extensions.foldlM (placeExtension declaration.name) []
  return { declaration with attributes := .ofList attributes, extensions }

end ResourceDeclaration

end ScimDirectory
