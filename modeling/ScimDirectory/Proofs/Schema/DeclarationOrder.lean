import ScimDirectory.Proofs.Rearrangement
import ScimDirectory.Proofs.Schema.DeclaredResolution

/-!
# Resolution and the order of declarations

A declaration lists attributes, extensions and extension fields in some order, and resolution
searches these lists from the front. The order shows in a registry only where two entries compete:
by one name, or, among the extensions, by URNs of one length that a path begins with. A declaration
that can be built has no such entries. Names are distinct; and two URNs of one length that begin
the same path are alike, which those of two extensions are not. Where one extension URN is a prefix
of another, or of the URN of the core schema, it is the length that decides and not the place.

The core schema may have the URN of an extension. It takes no part in the reordering: it stands
first in both declarations.

## Main results

* `ResourceDeclaration.schemaOf?_rel`: a path belongs to the same schema under both declarations.
* `ResourceDeclaration.resolve_eq`: **a path resolves to the same result under both**.
-/

namespace ScimDirectory

/-- The same extension, with its fields in another order. -/
structure ExtensionDeclaration.SameUpToOrder (a b : ExtensionDeclaration) : Prop where
  rest : { a with fields := b.fields } = b
  fields : a.fields.Perm b.fields

/-- The same resource type, with its attributes and extensions in another order, and the fields of
each extension as well. -/
structure ResourceDeclaration.SameUpToOrder (a b : ResourceDeclaration) : Prop where
  rest : { a with attributes := b.attributes, extensions := b.extensions } = b
  attributes : a.attributes.Perm b.attributes
  extensions : Rearranged ExtensionDeclaration.SameUpToOrder a.extensions b.extensions

/-! ### Extensions -/

namespace ExtensionDeclaration.SameUpToOrder

variable {a b : ExtensionDeclaration}

theorem reverse_fields (a : ExtensionDeclaration) :
    a.SameUpToOrder { a with fields := a.fields.reverse } :=
  ⟨rfl, a.fields.reverse_perm.symm⟩

theorem urn_eq (h : a.SameUpToOrder b) : a.urn = b.urn := by
  rw [← h.rest]

/-- Within an extension the order of the fields does not matter. -/
theorem target?_eq (h : a.SameUpToOrder b) (hdistinct : Named.Distinct a.fields)
    (segments : List String) : a.target? segments = b.target? segments := by
  match segments with
  | [] => rfl
  | [name] =>
      simp only [ExtensionDeclaration.target?, hdistinct.find?_eq_of_perm h.fields, h.urn_eq]
  | _ :: _ :: _ => rfl

end ExtensionDeclaration.SameUpToOrder

/-! ### Schemas by their URNs -/

/-- Two URNs of one length that begin the same path are alike. -/
theorem Qualifies.alike_of_length_eq {path : List Char} {urn urn' : String}
    (h : Qualifies urn path) (h' : Qualifies urn' path) (hlength : urn.length = urn'.length) :
    Alike urn urn' := by
  have hfront := h.1
  rw [hlength] at hfront
  exact hfront.symm.trans h'.1

/-- Two schemas by their URNs that stand for one another under two declarations. -/
structure SameSchema (x y : String × Option ExtensionDeclaration) : Prop where
  urn_eq : x.1 = y.1
  schema : Option.Rel ExtensionDeclaration.SameUpToOrder x.2 y.2

namespace ResourceDeclaration

variable {a b declaration : ResourceDeclaration}

/-- The extensions whose URNs a path begins with, by their URNs. -/
def qualifying (declaration : ResourceDeclaration) (path : List Char) :
    List (String × Option ExtensionDeclaration) :=
  (declaration.extensions.map fun extension => (extension.urn, some extension)).filter
    fun schema => Qualifies schema.1 path

/-- The core schema is preferred to an extension unless the URN of that is longer. -/
theorem schemaOf?_eq (declaration : ResourceDeclaration) (path : List Char) :
    declaration.schemaOf? path =
      if Qualifies declaration.schema path then
        match (declaration.qualifying path).argmax fun schema => schema.1.length with
        | none => some (declaration.schema, none)
        | some best =>
            if declaration.schema.length < best.1.length then some best
            else some (declaration.schema, none)
      else (declaration.qualifying path).argmax fun schema => schema.1.length := by
  rw [schemaOf?, schemas, qualifying]
  split
  · next h =>
      rw [List.filter_cons_of_pos (by simpa using h), List.argmax_cons]
      split <;> next heq => rw [heq]
  · next h => rw [List.filter_cons_of_neg (by simpa using h)]

/-- No two extensions that a path begins with have URNs of one length. -/
theorem eq_of_qualifying (h : declaration.IsWellFormed) {path : List Char} :
    ∀ x ∈ declaration.qualifying path, ∀ y ∈ declaration.qualifying path,
      x.1.length = y.1.length → x = y := by
  intro x hx y hy hlength
  obtain ⟨hmem, hqualifies⟩ := List.mem_filter.mp hx
  obtain ⟨hmem', hqualifies'⟩ := List.mem_filter.mp hy
  obtain ⟨extension, hextension, rfl⟩ := List.mem_map.mp hmem
  obtain ⟨extension', hextension', rfl⟩ := List.mem_map.mp hmem'
  have halike : Alike extension.urn extension'.urn :=
    Qualifies.alike_of_length_eq (of_decide_eq_true hqualifies) (of_decide_eq_true hqualifies')
      hlength
  rw [h.distinct_extensions.eq_of_alike hextension hextension' halike]

/-- **The schema of a path under two declarations**: if the extensions whose URNs it begins with
have counterparts in either of them, and so have the core schemas, its schema has one as well. -/
theorem schemaOf?_rel_of_qualifying
    {Same : String × Option ExtensionDeclaration → String × Option ExtensionDeclaration → Prop}
    (hurn : ∀ x y, Same x y → x.1 = y.1) (hcore : Same (a.schema, none) (b.schema, none))
    (hb : b.IsWellFormed) {path : List Char}
    (hqualifying : SameEntries Same (a.qualifying path) (b.qualifying path)) :
    Option.Rel Same (a.schemaOf? path) (b.schemaOf? path) := by
  have hschema : a.schema = b.schema := hurn _ _ hcore
  have hlongest : Option.Rel Same
      ((a.qualifying path).argmax fun schema => schema.1.length)
      ((b.qualifying path).argmax fun schema => schema.1.length) :=
    hqualifying.argmax_rel (fun x y hxy => congrArg String.length (hurn x y hxy))
      (eq_of_qualifying hb)
  rw [schemaOf?_eq, schemaOf?_eq, hschema]
  rw [hschema] at hcore
  split
  · generalize ((a.qualifying path).argmax fun schema => schema.1.length) = x,
      ((b.qualifying path).argmax fun schema => schema.1.length) = y at hlongest ⊢
    cases hlongest with
    | none => exact .some hcore
    | @some x y hxy =>
        simp only [hurn x y hxy]
        split
        · exact .some hxy
        · exact .some hcore
  · exact hlongest

namespace SameUpToOrder

theorem refl (a : ResourceDeclaration) : a.SameUpToOrder a where
  rest := rfl
  attributes := List.Perm.refl _
  extensions := ⟨a.extensions, List.Perm.refl _,
    List.forall₂_same.mpr fun _ _ => ⟨rfl, List.Perm.refl _⟩⟩

theorem name_eq (h : a.SameUpToOrder b) : a.name = b.name := by
  rw [← h.rest]

theorem schema_eq (h : a.SameUpToOrder b) : a.schema = b.schema := by
  rw [← h.rest]

theorem nameAttribute_eq (h : a.SameUpToOrder b) : a.nameAttribute = b.nameAttribute := by
  rw [← h.rest]

theorem identifier_eq (h : a.SameUpToOrder b) : a.identifier = b.identifier := by
  rw [← h.rest]

/-- The extensions that a path begins with are the same ones. -/
theorem qualifying (h : a.SameUpToOrder b) (path : List Char) :
    SameEntries SameSchema (a.qualifying path) (b.qualifying path) := by
  have hmap := h.extensions.sameEntries.map
    (f := fun extension => (extension.urn, some extension))
    (g := fun extension => (extension.urn, some extension))
    fun x y hxy => SameSchema.mk hxy.urn_eq (.some hxy)
  refine hmap.filter fun x y hxy => ?_
  rw [hxy.urn_eq]

/-- **A path belongs to the same schema** under both declarations, or to none under either. -/
theorem schemaOf?_rel (h : a.SameUpToOrder b) (hb : b.IsWellFormed) (path : List Char) :
    Option.Rel SameSchema (a.schemaOf? path) (b.schemaOf? path) :=
  schemaOf?_rel_of_qualifying (fun _ _ hxy => hxy.urn_eq) ⟨h.schema_eq, .none⟩ hb
    (h.qualifying path)

/-! ### Resolution -/

/-- Within the core schema the order of the attributes does not matter. -/
theorem coreTarget?_eq (h : a.SameUpToOrder b) (ha : a.IsWellFormed) (segments : List String) :
    a.coreTarget? segments = b.coreTarget? segments := by
  have hfind := (distinct_attributes ha.attributes).find?_eq_of_perm h.attributes
  have hnative : a.isNative = b.isNative := by
    funext name
    rw [isNative, isNative, h.nameAttribute_eq]
  match segments with
  | [] => rfl
  | [name] => simp only [coreTarget?, hfind, hnative, h.identifier_eq]
  | [parent, name] => simp only [coreTarget?, hfind, hnative]
  | _ :: _ :: _ :: _ => rfl

/-- What a path has behind a URN resolves to the same result in both declarations. -/
theorem resolveIn_eq (h : a.SameUpToOrder b) (ha : a.IsWellFormed)
    {schema schema' : Option ExtensionDeclaration}
    (hmem : ∀ extension ∈ schema, extension ∈ a.extensions)
    (hschema : Option.Rel ExtensionDeclaration.SameUpToOrder schema schema') (path : String)
    (rest : List Char) : a.resolveIn path schema rest = b.resolveIn path schema' rest := by
  have htarget : ∀ segments, a.targetIn? segments schema = b.targetIn? segments schema' := by
    intro segments
    cases hschema with
    | none => exact h.coreTarget?_eq ha segments
    | some hsame => exact hsame.target?_eq (ha.distinct_fields (hmem _ rfl)) segments
  simp only [resolveIn, htarget, h.name_eq]

/-- **A path resolves to the same result** under both declarations: the same target, or the same
error. -/
theorem resolve_eq (h : a.SameUpToOrder b) (ha : a.IsWellFormed) (hb : b.IsWellFormed)
    (path : String) : a.resolve path = b.resolve path := by
  have hrel := h.schemaOf?_rel hb path.toList
  have hmem : ∀ urn schema, a.schemaOf? path.toList = some (urn, schema) →
      ∀ extension ∈ schema, extension ∈ a.extensions :=
    fun _ _ hfound => mem_extensions_of_schemaOf? hfound
  rw [resolve, resolve]
  generalize a.schemaOf? path.toList = x, b.schemaOf? path.toList = y at hrel hmem ⊢
  cases hrel with
  | none =>
      simp only [h.name_eq, h.resolveIn_eq ha (by rintro _ ⟨⟩) .none]
  | @some x y hxy =>
      obtain ⟨urn, schema⟩ := x
      obtain ⟨urn', schema'⟩ := y
      obtain rfl : urn = urn' := hxy.urn_eq
      exact h.resolveIn_eq ha (hmem urn schema rfl) hxy.schema path _

end SameUpToOrder

end ResourceDeclaration

/-- The resource type with overlapping names and URNs, written from back to front. -/
def Sample.crewRearranged : ResourceDeclaration :=
  { Sample.crew with
    attributes := Sample.crew.attributes.reverse
    extensions := Sample.crew.extensions.reverse.map fun extension =>
      { extension with fields := extension.fields.reverse } }

theorem Sample.sameUpToOrder_crew : Sample.crew.SameUpToOrder Sample.crewRearranged where
  rest := rfl
  attributes := Sample.crew.attributes.reverse_perm.symm
  extensions := by
    refine ⟨Sample.crew.extensions.reverse, Sample.crew.extensions.reverse_perm.symm, ?_⟩
    rw [crewRearranged, List.forall₂_map_right_iff]
    exact List.forall₂_same.mpr fun extension _ => .reverse_fields extension

end ScimDirectory
