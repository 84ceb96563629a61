import ScimDirectory.Proofs.Discovery.Publication
import ScimDirectory.Discovery.Json
import ScimDirectory.Proofs.Json.Decoding

/-!
# Discovery documents survive their JSON form

A client that decodes what it is sent has the document that was rendered. Two members may be left
out. An empty list of extensions is, so that a missing list is read as an empty one. The parts of an
attribute are left out where the attribute lists none; a complex attribute without parts lists them
all the same, as an empty list, and must not come back as one that lists none.

Attributes are nested through their parts, and their decoder goes down with the room that is left.
It undoes the writer for every attribute that fits into the room (`SchemaAttribute.Fits`), by
induction on that room. What is rendered of a registry is nested twice at most.

## Main definitions

* `SchemaAttribute.Fits`: how deep an attribute may be nested.

## Main results

* `ResourceTypeDocument.decode_toJson`, `SchemaAttribute.decode_toJson`,
  `SchemaDocument.decode_toJson`: decoding undoes writing.
* `Discovery.fits_of_mem`: the attributes of listed schemas fit into little room.
* `Discovery.decodeText_listed`: **every listed document is decoded from its text.**
-/

namespace ScimDirectory

open Decoder Record

/-! ### Resource type documents -/

theorem Meta.decode_toJson {room : Nat} (hroom : room ≠ 0) (metadata : Meta) :
    decode room (.ofJson metadata.toJson) = .ok metadata :=
  decoder_pair _ mk (by decide) hroom rfl rfl

theorem ExtensionReference.decode_toJson {room : Nat} (hroom : room ≠ 0)
    (reference : ExtensionReference) :
    decode room (.ofJson reference.toJson) = .ok reference :=
  decoder_pair _ mk (by decide) hroom rfl rfl

/-- The document of a resource type decodes; the list of extensions is empty where none is
written. -/
theorem ResourceTypeDocument.decode_toJson {room : Nat} (hroom : 3 ≤ room)
    (document : ResourceTypeDocument) :
    decode room (.ofJson document.toJson) = .ok document := by
  have hschemas := list_ofJson (by omega : room - 1 ≠ 0) text_ofJson
  have hreferences := list_ofJson (by omega : room - 1 ≠ 0) fun reference =>
    ExtensionReference.decode_toJson (by omega : room - 2 ≠ 0) reference
  obtain ⟨schemas, id, name, description, endpoint, schema, extensions, metadata⟩ := document
  rw [decode, toJson]
  refine decoder_ofJson _ (by omega) ?_ ?_ fun hnodup => ?_
  · cases extensions <;> simp
  · cases extensions <;> simp
  refine (((((((Reads.map _ ?_).seq ?_).seq ?_).seq ?_).seq ?_).seq ?_).seq ?_).seq ?_
  · exact .member hnodup (.array (schemas.map .string)) (by simp) (hschemas schemas)
  · exact .member hnodup (.string id) (by simp) rfl
  · exact .member hnodup (.string name) (by simp) rfl
  · exact .member hnodup (.string description) (by simp) rfl
  · exact .member hnodup (.string endpoint) (by simp) rfl
  · exact .member hnodup (.string schema) (by simp) rfl
  · cases extensions with
    | nil => exact .absent (by simp) [] _
    | cons reference more =>
        exact .member hnodup (.array ((reference :: more).map ExtensionReference.toJson)) (by simp)
          (hreferences (reference :: more))
  · exact .member hnodup metadata.toJson (by simp) (metadata.decode_toJson (by omega))

/-! ### Attributes -/

namespace SchemaAttribute

/-- The attribute is nested no deeper than `room` allows. Its parts lie two levels deeper. -/
def Fits : (room : Nat) → SchemaAttribute → Prop
  | 0, _ => False
  | 1, a => a.parts = none
  | room + 2, a => ∀ parts ∈ a.parts, ∀ part ∈ parts, part.Fits room

theorem listToJson_eq_map (attributes : List SchemaAttribute) :
    listToJson attributes = attributes.map toJson := by
  induction attributes with
  | nil => rfl
  | cons a more ih => rw [listToJson, ih, List.map_cons]

/-- What is written for an attribute, with the parts as the last member, if any are listed. -/
theorem toJson_eq (a : SchemaAttribute) :
    a.toJson = .object ([
      ("name", .string a.name),
      ("type", .string a.type),
      ("multiValued", .bool a.multiValued),
      ("description", .string a.description)] ++
      a.parts.toList.map fun parts => ("subAttributes", .array (parts.map toJson))) := by
  obtain ⟨name, type, multiValued, description, parts⟩ := a
  cases parts <;> simp [toJson, listToJson_eq_map]

/-- An attribute decodes if its parts do; there are none where none are written. -/
theorem decoder_toJson {room : Nat} (hroom : room ≠ 0) {a : SchemaAttribute}
    {decodeParts : Decoder (List SchemaAttribute)}
    (hparts : ∀ parts ∈ a.parts, decodeParts (.ofJson (.array (parts.map toJson))) = .ok parts) :
    decoder "SchemaAttribute" (record decodeParts) room (.ofJson a.toJson) = .ok a := by
  obtain ⟨name, type, multiValued, description, parts⟩ := a
  rw [toJson_eq]
  refine decoder_ofJson _ hroom ?_ ?_ fun hnodup => ?_
  · cases parts <;> simp [record]
  · cases parts <;> simp
  refine ((((Reads.map _ ?_).seq ?_).seq ?_).seq ?_).seq ?_
  · exact .member hnodup (.string name) (by simp) rfl
  · exact .member hnodup (.string type) (by simp) rfl
  · exact .member hnodup (.bool multiValued) (by simp) rfl
  · exact .member hnodup (.string description) (by simp) rfl
  · cases parts with
    | none => exact .absent (by simp) none _
    | some parts =>
        have hdecode : optional decodeParts (.ofJson (.array (parts.map toJson))) =
            .ok (some parts) := congrArg (some <$> ·) (hparts parts rfl)
        exact .member hnodup (.array (parts.map toJson)) (by simp) hdecode

/-- **An attribute decodes**, with all parts that there is room for. -/
theorem decode_toJson : ∀ {room : Nat} {a : SchemaAttribute}, a.Fits room →
    decode room (.ofJson a.toJson) = .ok a
  | 1, a, h => by
      rw [decode]
      · refine decoder_toJson Nat.one_ne_zero fun parts hparts => ?_
        rw [show a.parts = none from h] at hparts
        cases hparts
      · rintro room ⟨⟩
  | room + 2, a, h => by
      rw [decode]
      refine decoder_toJson (Nat.succ_ne_zero _) fun parts hparts => ?_
      exact list_ofJson_of_mem (Nat.succ_ne_zero _) fun part hpart =>
        decode_toJson (h parts hparts part hpart)

/-- What is written for an attribute can be read. -/
theorem isPlain_toJson : ∀ {room : Nat} {a : SchemaAttribute}, a.Fits room →
    a.toJson.isPlain room = true
  | 1, a, h => by
      have hparts : a.parts = none := h
      simp [toJson_eq, Json.isPlain, Json.membersPlain, hparts]
  | room + 2, a, h => by
      cases hparts : a.parts with
      | none => simp [toJson_eq, Json.isPlain, Json.membersPlain, hparts]
      | some parts =>
          have hplain : Json.itemsPlain room (parts.map toJson) = true :=
            Json.itemsPlain_map_of_mem fun part hpart => isPlain_toJson (h parts hparts part hpart)
          simp [toJson_eq, Json.isPlain, Json.membersPlain, hparts, hplain]

end SchemaAttribute

/-! ### Schema documents -/

/-- **The document of a schema decodes** if its attributes fit. -/
theorem SchemaDocument.decode_toJson {room : Nat} (hroom : 2 ≤ room) {document : SchemaDocument}
    (hfits : ∀ a ∈ document.attributes, a.Fits (room - 2)) :
    decode room (.ofJson document.toJson) = .ok document := by
  have hschemas := list_ofJson (by omega : room - 1 ≠ 0) text_ofJson
  have hattributes := list_ofJson_of_mem (by omega : room - 1 ≠ 0) fun a ha =>
    SchemaAttribute.decode_toJson (hfits a ha)
  obtain ⟨schemas, id, name, description, attributes, metadata⟩ := document
  rw [decode, toJson]
  refine decoder_ofJson _ (by omega) (fun _ h => h) (by simp) fun hnodup => ?_
  refine (((((Reads.map _ ?_).seq ?_).seq ?_).seq ?_).seq ?_).seq ?_
  · exact .member hnodup (.array (schemas.map .string)) (by simp) (hschemas schemas)
  · exact .member hnodup (.string id) (by simp) rfl
  · exact .member hnodup (.string name) (by simp) rfl
  · exact .member hnodup (.string description) (by simp) rfl
  · exact .member hnodup (.array (attributes.map SchemaAttribute.toJson)) (by simp) hattributes
  · exact .member hnodup metadata.toJson (by simp) (metadata.decode_toJson (by omega))

/-! ### What is left out -/

/-- The names of the members of an object. -/
def Json.keys : Json → List String
  | .object members => members.map Prod.fst
  | _ => []

/-- An empty list of extensions is left out, and no other is. -/
theorem ResourceTypeDocument.extensions_mem_keys_iff (document : ResourceTypeDocument) :
    "schemaExtensions" ∈ document.toJson.keys ↔ document.extensions ≠ [] := by
  cases h : document.extensions <;> simp [toJson, Json.keys, h]

/-- The parts of an attribute are left out if it lists none; an empty list is not. -/
theorem SchemaAttribute.parts_mem_keys_iff (a : SchemaAttribute) :
    "subAttributes" ∈ a.toJson.keys ↔ a.parts ≠ none := by
  cases h : a.parts <;> simp [toJson_eq, Json.keys, h]

/-! ### What is written can be read -/

theorem Meta.isPlain_toJson {room : Nat} (hroom : room ≠ 0) (metadata : Meta) :
    metadata.toJson.isPlain room = true := by
  simp [toJson, Json.isPlain, Json.membersPlain, hroom]

theorem ExtensionReference.isPlain_toJson {room : Nat} (hroom : room ≠ 0)
    (reference : ExtensionReference) : reference.toJson.isPlain room = true := by
  simp [toJson, Json.isPlain, Json.membersPlain, hroom]

theorem Json.itemsPlain_strings (room : Nat) (values : List String) :
    itemsPlain room (values.map .string) = true :=
  itemsPlain_map (fun _ => rfl) values

theorem ResourceTypeDocument.isPlain_toJson {room : Nat} (hroom : 3 ≤ room)
    (document : ResourceTypeDocument) : document.toJson.isPlain room = true := by
  have hextensions : Json.itemsPlain (room - 1 - 1)
      (document.extensions.map ExtensionReference.toJson) = true :=
    Json.itemsPlain_map (fun reference => reference.isPlain_toJson (by omega)) _
  have hmeta := document.metadata.isPlain_toJson (by omega : room - 1 ≠ 0)
  have hroom' : room ≠ 0 ∧ room - 1 ≠ 0 := by omega
  rw [toJson]
  split <;>
    simp [Json.isPlain, Json.membersPlain, Json.itemsPlain_strings, hextensions, hmeta, hroom']

theorem SchemaDocument.isPlain_toJson {room : Nat} (hroom : 2 ≤ room) {document : SchemaDocument}
    (hfits : ∀ a ∈ document.attributes, a.Fits (room - 2)) :
    document.toJson.isPlain room = true := by
  have hattributes : Json.itemsPlain (room - 1 - 1)
      (document.attributes.map SchemaAttribute.toJson) = true :=
    Json.itemsPlain_map_of_mem fun a ha => SchemaAttribute.isPlain_toJson (hfits a ha)
  have hmeta := document.metadata.isPlain_toJson (by omega : room - 1 ≠ 0)
  have hroom' : room ≠ 0 ∧ room - 1 ≠ 0 := by omega
  simp [toJson, Json.isPlain, Json.membersPlain, Json.itemsPlain_strings, hattributes, hmeta,
    hroom']

/-- **The text of a plain value decodes** as the value does. -/
theorem decodeText_of_plain {α : Type} {decode : Decoder α} {value : Json} {x : α} {room : Nat}
    (hplain : value.isPlain room = true) (h : decode (.ofJson value) = .ok x) :
    decodeText decode value.text = .ok x := by
  rw [decodeText, Json.read_text hplain]
  simp only [h]
  rfl

/-! ### Listed documents -/

/-- A part of an attribute has no parts of its own, whether it lists them or not. -/
theorem Field.fits_toPart (field : Field) (room : Nat) : field.toPart.Fits (room + 2) := by
  intro parts hparts part hpart
  have hempty : parts = [] := by
    rw [toPart, toSchemaAttribute, Option.mem_def] at hparts
    split at hparts
    · exact (Option.some.inj hparts).symm
    · cases hparts
  subst hempty
  cases hpart

/-- An attribute of a core schema is nested no deeper than its parts. -/
theorem Attribute.fits_toSchemaAttribute (a : Attribute) (room : Nat) :
    a.toSchemaAttribute.Fits (room + 4) := by
  intro parts hparts part hpart
  rw [toSchemaAttribute, Field.toSchemaAttribute, Option.mem_def] at hparts
  split at hparts
  · obtain rfl := Option.some.inj hparts
    obtain ⟨field, -, rfl⟩ := List.mem_map.mp hpart
    exact field.fits_toPart room
  · cases hparts

namespace Discovery

variable {discovery : Discovery}

/-- **The attributes of listed schemas fit** where there is room for four levels. -/
theorem fits_of_mem {document : SchemaDocument} (h : document ∈ discovery.schemas)
    {a : SchemaAttribute} (ha : a ∈ document.attributes) (room : Nat) : a.Fits (room + 4) := by
  obtain ⟨resource, -, hdocument⟩ := List.mem_flatMap.mp h
  rcases List.mem_cons.mp hdocument with rfl | hextension
  · obtain ⟨a, -, rfl⟩ := List.mem_map.mp ha
    exact a.fits_toSchemaAttribute room
  · obtain ⟨extension, -, rfl⟩ := List.mem_map.mp hextension
    obtain ⟨field, -, rfl⟩ := List.mem_map.mp ha
    rintro parts ⟨⟩

/-- **Every listed document is decoded from its text.** This holds of any registry and any
configuration, whatever their texts contain. A list of extensions is a member of what is written
unless it is empty; a list of parts is, empty or not, unless the attribute lists none. -/
theorem decodeText_listed (discovery : Discovery) :
    (∀ document ∈ discovery.resourceTypes,
        decodeText (ResourceTypeDocument.decode maxDepth) document.toJson.text = .ok document) ∧
      (∀ document ∈ discovery.schemas,
        decodeText (SchemaDocument.decode maxDepth) document.toJson.text = .ok document) ∧
      (∀ document : ResourceTypeDocument,
        "schemaExtensions" ∈ document.toJson.keys ↔ document.extensions ≠ []) ∧
      ∀ a : SchemaAttribute, "subAttributes" ∈ a.toJson.keys ↔ a.parts ≠ none := by
  refine ⟨fun document _ => ?_, fun document hdocument => ?_,
    ResourceTypeDocument.extensions_mem_keys_iff, SchemaAttribute.parts_mem_keys_iff⟩
  · exact decodeText_of_plain (document.isPlain_toJson (by decide : 3 ≤ maxDepth))
      (document.decode_toJson (by decide))
  · have hfits : ∀ a ∈ document.attributes, a.Fits (maxDepth - 2) := fun a ha =>
      fits_of_mem hdocument ha 121
    exact decodeText_of_plain (SchemaDocument.isPlain_toJson (by decide) hfits)
      (SchemaDocument.decode_toJson (by decide) hfits)

end Discovery

/-- A resource type without extensions, with a complex attribute that has a complex part and one
that has no parts, and a description that has to be escaped. -/
def Sample.depot : ResourceDeclaration where
  name := "depot"
  schema := "urn:depot"
  description := "a \"depot\"\n\\"
  attributes := [
    { path := "box", type := .complex },
    { path := "box.lid", type := .complex },
    { path := "shelf", type := .complex } ]

/-- A service whose address has to be escaped. -/
def Sample.quotedService : DiscoveryConfig where
  baseUrl := "\t//"
  version := "\"v2\""

/-- What is not listed and what is listed as empty are told apart behind the text. -/
theorem Discovery.decodeText_listed_depot :
    ∃ registry, Registry.build [Sample.depot] = .ok registry ∧
      (∃ document ∈ (Discovery.mk registry Sample.quotedService).resourceTypes,
        document.extensions = [] ∧
          decodeText (ResourceTypeDocument.decode maxDepth) document.toJson.text = .ok document) ∧
      ∃ document ∈ (Discovery.mk registry Sample.quotedService).schemas,
        (document.attributes.map fun a => a.parts.map fun parts => parts.map (·.name)) =
            [some ["lid"], some []] ∧
          decodeText (SchemaDocument.decode maxDepth) document.toJson.text = .ok document := by
  have hsample : ∃ registry, Registry.build [Sample.depot] = .ok registry :=
    exists_ok_of_isOk (by decide +kernel)
  obtain ⟨registry, hbuild⟩ := hsample
  obtain ⟨htypes, hschemas, -⟩ :=
    Discovery.decodeText_listed (Discovery.mk registry Sample.quotedService)
  rw [Registry.resourceTypeDocuments_of_build hbuild] at htypes
  rw [Registry.schemas_of_build hbuild] at hschemas
  refine ⟨registry, hbuild, ?_, ?_⟩
  · rw [Registry.resourceTypeDocuments_of_build hbuild]
    exact ⟨_, List.mem_cons_self, rfl, htypes _ List.mem_cons_self⟩
  · rw [Registry.schemas_of_build hbuild]
    exact ⟨_, List.mem_cons_self, by decide +kernel, hschemas _ List.mem_cons_self⟩

end ScimDirectory
