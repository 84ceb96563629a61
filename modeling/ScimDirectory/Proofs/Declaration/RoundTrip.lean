import ScimDirectory.Declaration.Json
import ScimDirectory.Proofs.Json.Decoding

/-!
# Declarations survive their JSON form

What is written for a declaration is read back as that declaration: every field is written, an
absent text as `null`, and a default only comes in where a member is missing. A document that holds
an array is read as a list of declarations first; one that holds an object cannot be read so, and is
read as a single declaration.

A field of an extension lies four levels below its resource type, which itself may lie in an array.
Five levels are far from the depth at which reading is given up.

## Main results

* `ResourceDeclaration.decode_toJson`: decoding undoes writing.
* `ResourceDeclaration.isPlain_toJson`: what is written can be read.
* `loadDeclarations_text`: **a written document loads**, as a list or as a single declaration.
-/

namespace ScimDirectory

open Decoder Record

/-! ### Decoding undoes writing -/

/-- An absent text is written as `null`. -/
theorem Decoder.optional_ofOption (value : Option String) :
    optional text (.ofJson (.ofOption value)) = .ok value := by
  cases value with
  | none => rfl
  | some value => rfl

theorem AttributeType.decode_toJson (type : AttributeType) (room : Nat) :
    AttributeType.decode room (.ofJson type.toJson) = .ok type :=
  named_ofJson type.ofName?_name room _

/-- What is written for an attribute or an extension field: they differ in the key of the path or
the name only. -/
def entryJson (key name : String) (storageName : Option String) (type : AttributeType)
    (multiValued : Bool) (description : String) : Json :=
  .object [
    (key, .string name),
    ("storageName", .ofOption storageName),
    ("type", type.toJson),
    ("multiValued", .bool multiValued),
    ("description", .string description)]

/-- The record of an attribute or an extension field reads what is written for one. -/
theorem decoder_entryJson {α : Type}
    (make : String → Option String → AttributeType → Bool → String → α) (record key : String)
    (hkey : key ∉ ["storageName", "type", "multiValued", "description"]) {room : Nat}
    (hroom : room ≠ 0) (name : String) (storageName : Option String) (type : AttributeType)
    (multiValued : Bool) (description : String) :
    decoder record
      (make
        <$> required key text
        <*> defaulted "storageName" none (optional text)
        <*> defaulted "type" .string (AttributeType.decode (room - 1))
        <*> defaulted "multiValued" false flag
        <*> defaulted "description" "" text)
      room (.ofJson (entryJson key name storageName type multiValued description)) =
      .ok (make name storageName type multiValued description) := by
  refine decoder_ofJson _ hroom (fun _ h => h) (by simpa using hkey) fun hnodup => ?_
  refine ((((Reads.map _ ?_).seq ?_).seq ?_).seq ?_).seq ?_
  · exact .member hnodup (.string name) (by simp) rfl
  · exact .member hnodup (.ofOption storageName) (by simp) (optional_ofOption _)
  · exact .member hnodup type.toJson (by simp) (type.decode_toJson _)
  · exact .member hnodup (.bool multiValued) (by simp) rfl
  · exact .member hnodup (.string description) (by simp) rfl

theorem AttributeDeclaration.decode_toJson {room : Nat} (hroom : room ≠ 0)
    (declaration : AttributeDeclaration) :
    decode room (.ofJson declaration.toJson) = .ok declaration :=
  decoder_entryJson mk _ "path" (by simp) hroom _ _ _ _ _

theorem FieldDeclaration.decode_toJson {room : Nat} (hroom : room ≠ 0)
    (declaration : FieldDeclaration) :
    decode room (.ofJson declaration.toJson) = .ok declaration :=
  decoder_entryJson mk _ "name" (by simp) hroom _ _ _ _ _

/-- The fields of an extension lie two levels deeper. -/
theorem ExtensionDeclaration.decode_toJson {room : Nat} (hroom : 3 ≤ room)
    (declaration : ExtensionDeclaration) :
    decode room (.ofJson declaration.toJson) = .ok declaration := by
  have hfields := list_ofJson (by omega : room - 1 ≠ 0) fun field =>
    FieldDeclaration.decode_toJson (by omega : room - 2 ≠ 0) field
  rw [decode, toJson]
  refine decoder_ofJson _ (by omega) (fun _ h => h) (by simp) fun hnodup => ?_
  obtain ⟨urn, name, description, fields⟩ := declaration
  refine (((Reads.map _ ?_).seq ?_).seq ?_).seq ?_
  · exact .member hnodup (.string urn) (by simp) rfl
  · exact .member hnodup (.string name) (by simp) rfl
  · exact .member hnodup (.string description) (by simp) rfl
  · exact .member hnodup (.array (fields.map FieldDeclaration.toJson)) (by simp) (hfields fields)

/-- The attributes and the extensions of a resource type lie two levels deeper. -/
theorem ResourceDeclaration.decode_toJson {room : Nat} (hroom : 5 ≤ room)
    (declaration : ResourceDeclaration) :
    decode room (.ofJson declaration.toJson) = .ok declaration := by
  have hattributes := list_ofJson (by omega : room - 1 ≠ 0) fun a =>
    AttributeDeclaration.decode_toJson (by omega : room - 2 ≠ 0) a
  have hextensions := list_ofJson (by omega : room - 1 ≠ 0) fun extension =>
    ExtensionDeclaration.decode_toJson (by omega : 3 ≤ room - 2) extension
  rw [decode, toJson]
  refine decoder_ofJson _ (by omega) (fun _ h => h) (by simp) fun hnodup => ?_
  obtain ⟨name, schema, description, endpoint, nameAttribute, identifier, attributes, extensions⟩ :=
    declaration
  refine (((((((Reads.map _ ?_).seq ?_).seq ?_).seq ?_).seq ?_).seq ?_).seq ?_).seq ?_
  · exact .member hnodup (.string name) (by simp) rfl
  · exact .member hnodup (.string schema) (by simp) rfl
  · exact .member hnodup (.string description) (by simp) rfl
  · exact .member hnodup (.string endpoint) (by simp) rfl
  · exact .member hnodup (.ofOption nameAttribute) (by simp) (optional_ofOption _)
  · exact .member hnodup (.string identifier) (by simp) rfl
  · exact .member hnodup (.array (attributes.map AttributeDeclaration.toJson)) (by simp)
      (hattributes attributes)
  · exact .member hnodup (.array (extensions.map ExtensionDeclaration.toJson)) (by simp)
      (hextensions extensions)

/-! ### What is written can be read -/

theorem Json.isPlain_ofOption (room : Nat) (value : Option String) :
    (ofOption value).isPlain room = true := by
  cases value with
  | none => rfl
  | some value => rfl

theorem isPlain_entryJson {room : Nat} (hroom : room ≠ 0) (key name : String)
    (storageName : Option String) (type : AttributeType) (multiValued : Bool)
    (description : String) :
    (entryJson key name storageName type multiValued description).isPlain room = true := by
  simp [entryJson, AttributeType.toJson, Json.isPlain, Json.membersPlain, Json.isPlain_ofOption,
    hroom]

theorem AttributeDeclaration.isPlain_toJson {room : Nat} (hroom : room ≠ 0)
    (declaration : AttributeDeclaration) : declaration.toJson.isPlain room = true :=
  isPlain_entryJson hroom "path" _ _ _ _ _

theorem FieldDeclaration.isPlain_toJson {room : Nat} (hroom : room ≠ 0)
    (declaration : FieldDeclaration) : declaration.toJson.isPlain room = true :=
  isPlain_entryJson hroom "name" _ _ _ _ _

theorem ExtensionDeclaration.isPlain_toJson {room : Nat} (hroom : 3 ≤ room)
    (declaration : ExtensionDeclaration) : declaration.toJson.isPlain room = true := by
  have hfields : Json.itemsPlain (room - 1 - 1)
      (declaration.fields.map FieldDeclaration.toJson) = true :=
    Json.itemsPlain_map (fun field => field.isPlain_toJson (by omega)) _
  have hroom' : room ≠ 0 ∧ room - 1 ≠ 0 := by omega
  simp [toJson, Json.isPlain, Json.membersPlain, hfields, hroom']

theorem ResourceDeclaration.isPlain_toJson {room : Nat} (hroom : 5 ≤ room)
    (declaration : ResourceDeclaration) : declaration.toJson.isPlain room = true := by
  have hattributes : Json.itemsPlain (room - 1 - 1)
      (declaration.attributes.map AttributeDeclaration.toJson) = true :=
    Json.itemsPlain_map (fun a => a.isPlain_toJson (by omega)) _
  have hextensions : Json.itemsPlain (room - 1 - 1)
      (declaration.extensions.map ExtensionDeclaration.toJson) = true :=
    Json.itemsPlain_map (fun extension => extension.isPlain_toJson (by omega)) _
  have hroom' : room ≠ 0 ∧ room - 1 ≠ 0 := by omega
  simp [toJson, Json.isPlain, Json.membersPlain, Json.isPlain_ofOption, hattributes, hextensions,
    hroom']

/-! ### Documents -/

/-- The document of a list of declarations. -/
def declarationsJson (declarations : List ResourceDeclaration) : Json :=
  .array (declarations.map ResourceDeclaration.toJson)

theorem isPlain_declarationsJson (declarations : List ResourceDeclaration) :
    (declarationsJson declarations).isPlain maxDepth = true := by
  have hitems : Json.itemsPlain (maxDepth - 1)
      (declarations.map ResourceDeclaration.toJson) = true :=
    Json.itemsPlain_map (fun declaration => declaration.isPlain_toJson (by decide)) _
  rw [declarationsJson, Json.isPlain, hitems]
  rfl

/-- An array of declarations is read as a list. -/
theorem declarationsOf?_array (declarations : List ResourceDeclaration) :
    declarationsOf? (.ofJson (declarationsJson declarations)) = some declarations := by
  have hlist := list_ofJson (by decide : maxDepth ≠ 0) (fun declaration =>
    ResourceDeclaration.decode_toJson (by decide : 5 ≤ maxDepth - 1) declaration) declarations
  rw [declarationsOf?, declarationsJson, hlist]

/-- An object is no list, and is read as a single declaration. -/
theorem declarationsOf?_object (declaration : ResourceDeclaration) :
    declarationsOf? (.ofJson declaration.toJson) = some [declaration] := by
  have hlist : ∃ fault, list maxDepth (ResourceDeclaration.decode (maxDepth - 1))
      (.ofJson declaration.toJson) = .error fault := ⟨_, rfl⟩
  obtain ⟨fault, hlist⟩ := hlist
  rw [declarationsOf?, hlist]
  simp only [declaration.decode_toJson (by decide : 5 ≤ maxDepth)]

/-- **The text of a plain value loads** as the declarations that the value holds. -/
theorem loadDeclarations_of_plain {value : Json} (hplain : value.isPlain maxDepth = true)
    {declarations : List ResourceDeclaration}
    (h : declarationsOf? (.ofJson value) = some declarations) :
    loadDeclarations value.text = .ok declarations := by
  rw [loadDeclarations, Json.read_text hplain]
  simp only [Json.isSound_ofJson value hplain, h]
  rfl

/-- **A written document loads as what was written**: a list of declarations from an array, and a
single one from an object. So what any document loads as can be written and loaded again, and
is the same. -/
theorem loadDeclarations_text :
    (∀ declarations, loadDeclarations (declarationsJson declarations).text = .ok declarations) ∧
      (∀ declaration : ResourceDeclaration,
        loadDeclarations declaration.toJson.text = .ok [declaration]) ∧
      ∀ text, (loadDeclarations text >>= fun declarations =>
        loadDeclarations (declarationsJson declarations).text) = loadDeclarations text := by
  have harray : ∀ declarations,
      loadDeclarations (declarationsJson declarations).text = .ok declarations :=
    fun declarations => loadDeclarations_of_plain (isPlain_declarationsJson declarations)
      (declarationsOf?_array declarations)
  refine ⟨harray, fun declaration => ?_, fun text => ?_⟩
  · exact loadDeclarations_of_plain (declaration.isPlain_toJson (by decide))
      (declarationsOf?_object declaration)
  · cases loadDeclarations text with
    | error e => rfl
    | ok declarations => exact harray declarations

end ScimDirectory
