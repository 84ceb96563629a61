import ScimDirectory.Proofs.Schema.DeclarationOrder

/-!
# Resolution and added declarations

A schema grows: attributes, parts, extensions and extension fields are inserted among those that
were declared before, anywhere in their lists. What resolved before the change resolves to the same
target after it. The entries that a path leads to are still declared, and under distinct names
nothing that was added can be found in their place.

The schema that a path belongs to is another matter. The longest URN decides, and a new extension
may have a longer one than the schema that the path was read for, or turn what was the name of an
attribute into a URN. So a path must not begin with the URN of an added extension
(`ResourceDeclaration.AvoidsAdded`). Then each URN that it does begin with was declared before. New
URNs may begin old ones, or the other way round.

The converse does not hold, and nothing is claimed for paths that did not resolve: they may name
what was added.

## Main results

* `ResourceDeclaration.GrowsTo.schemaOf?_rel`: a path belongs to the same schema as before.
* `ResourceDeclaration.GrowsTo.resolve_eq_ok`: **what resolved before resolves to the same target**.
-/

namespace ScimDirectory

/-- The second declaration is that of the **same extension with further fields** among those of the
first. -/
structure ExtensionDeclaration.GrowsTo (a b : ExtensionDeclaration) : Prop where
  urn : a.urn = b.urn
  fields : a.fields.Sublist b.fields

/-- The second declaration is that of the **same resource type with further attributes**, parts and
extensions among those of the first, and further fields in its extensions. -/
structure ResourceDeclaration.GrowsTo (a b : ResourceDeclaration) : Prop where
  name : a.name = b.name
  schema : a.schema = b.schema
  nameAttribute : a.nameAttribute = b.nameAttribute
  identifier : a.identifier = b.identifier
  attributes : a.attributes.Sublist b.attributes
  extensions : List.SublistForall₂ ExtensionDeclaration.GrowsTo a.extensions b.extensions

/-- The path does not begin with the URN and the colon of an extension that was added. -/
def ResourceDeclaration.AvoidsAdded (a b : ResourceDeclaration) (path : String) : Prop :=
  ∀ extension ∈ b.extensions, (∀ kept ∈ a.extensions, kept.urn ≠ extension.urn) →
    ¬ Qualifies extension.urn path.toList

instance (a b : ResourceDeclaration) (path : String) : Decidable (a.AvoidsAdded b path) :=
  inferInstanceAs (Decidable (∀ extension ∈ b.extensions, _))

/-! ### Extensions -/

namespace ExtensionDeclaration.GrowsTo

variable {a b : ExtensionDeclaration}

theorem refl (a : ExtensionDeclaration) : a.GrowsTo a :=
  ⟨rfl, List.Sublist.refl a.fields⟩

/-- A field that was found is found among the further ones. -/
theorem target?_eq_some (h : a.GrowsTo b) (hdistinct : Named.Distinct b.fields)
    {segments : List String} {target : Target} (ha : a.target? segments = some target) :
    b.target? segments = some target := by
  match segments with
  | [] | _ :: _ :: _ => cases ha
  | [name] =>
      obtain ⟨field, hfield, rfl⟩ := Option.map_eq_some_iff.mp ha
      rw [ExtensionDeclaration.target?, hdistinct.find?_of_subset h.fields.subset hfield, h.urn]
      rfl

end ExtensionDeclaration.GrowsTo

/-- Two schemas by their URNs, the second being the first one with further fields. -/
structure GrownSchema (x y : String × Option ExtensionDeclaration) : Prop where
  urn_eq : x.1 = y.1
  schema : Option.Rel ExtensionDeclaration.GrowsTo x.2 y.2

namespace ResourceDeclaration.GrowsTo

variable {a b : ResourceDeclaration}

theorem refl (a : ResourceDeclaration) : a.GrowsTo a where
  name := rfl
  schema := rfl
  nameAttribute := rfl
  identifier := rfl
  attributes := List.Sublist.refl a.attributes
  extensions := List.sublistForall₂_iff.mpr ⟨a.extensions,
    List.forall₂_same.mpr fun extension _ => .refl extension, List.Sublist.refl a.extensions⟩

/-! ### The schema of a path -/

/-- An extension with the URN of one that was declared before is that one, grown. -/
theorem exists_kept (h : a.GrowsTo b) (hb : b.IsWellFormed) {kept extension : ExtensionDeclaration}
    (hkept : kept ∈ a.extensions) (hmem : extension ∈ b.extensions)
    (hurn : kept.urn = extension.urn) : kept.GrowsTo extension := by
  obtain ⟨grown, hgrown, hgrows⟩ := Covered.of_sublistForall₂ h.extensions kept hkept
  have halike : Alike grown.urn extension.urn := by
    rw [← hgrows.urn, hurn]
  rwa [hb.distinct_extensions.eq_of_alike hgrown hmem halike] at hgrows

/-- The extensions whose URNs a path begins with are those from before. -/
theorem qualifying (h : a.GrowsTo b) (hb : b.IsWellFormed) {path : String}
    (havoids : a.AvoidsAdded b path) :
    SameEntries GrownSchema (a.qualifying path.toList) (b.qualifying path.toList) where
  there := by
    have hmap := (Covered.of_sublistForall₂ h.extensions).map
      (f := fun extension => (extension.urn, some extension))
      (g := fun extension => (extension.urn, some extension))
      fun x y hxy => GrownSchema.mk hxy.urn (.some hxy)
    refine hmap.filter fun x y hxy => ?_
    rw [hxy.urn_eq]
  back := by
    intro y hy
    obtain ⟨hmap, hqualifies⟩ := List.mem_filter.mp hy
    obtain ⟨extension, hmem, rfl⟩ := List.mem_map.mp hmap
    have hold : ∃ kept ∈ a.extensions, kept.urn = extension.urn := by
      by_contra hadded
      push Not at hadded
      exact havoids extension hmem hadded (of_decide_eq_true hqualifies)
    obtain ⟨kept, hkept, hurn⟩ := hold
    refine ⟨(kept.urn, some kept), List.mem_filter.mpr ⟨List.mem_map_of_mem hkept, ?_⟩,
      hurn, .some (h.exists_kept hb hkept hmem hurn)⟩
    rw [hurn]
    exact hqualifies

/-- **A path belongs to the same schema** as before, or still to none by its URN. -/
theorem schemaOf?_rel (h : a.GrowsTo b) (hb : b.IsWellFormed) {path : String}
    (havoids : a.AvoidsAdded b path) :
    Option.Rel GrownSchema (a.schemaOf? path.toList) (b.schemaOf? path.toList) :=
  schemaOf?_rel_of_qualifying (fun _ _ hxy => hxy.urn_eq) ⟨h.schema, .none⟩ hb
    (h.qualifying hb havoids)

/-! ### Resolution -/

/-- What was found in the core schema is found there among the further attributes. -/
theorem coreTarget?_eq_some (h : a.GrowsTo b) (hb : b.IsWellFormed) {segments : List String}
    {target : Target} (ha : a.coreTarget? segments = some target) :
    b.coreTarget? segments = some target := by
  have hnative : a.isNative = b.isNative := by
    funext name
    rw [isNative, isNative, h.nameAttribute]
  have hfind : ∀ {name declared}, Named.find? a.attributes name = some declared →
      Named.find? b.attributes name = some declared :=
    (distinct_attributes hb.attributes).find?_of_subset h.attributes.subset
  rcases segments with - | ⟨parent, - | ⟨name, - | ⟨_, _⟩⟩⟩
  · cases ha
  · simp only [coreTarget?, hnative, h.identifier] at ha ⊢
    by_cases hn : b.isNative parent = true
    · rwa [if_pos hn] at ha ⊢
    · rw [if_neg hn] at ha ⊢
      obtain ⟨declared, hdeclared, rfl⟩ := Option.map_eq_some_iff.mp ha
      rw [hfind hdeclared, Option.map_some]
  · simp only [coreTarget?, hnative] at ha ⊢
    obtain ⟨part, hpart, htarget⟩ := Option.bind_eq_some_iff.mp ha
    rw [hfind hpart, Option.bind_some]
    by_cases hn : b.isNative parent = true
    · rwa [if_pos hn] at htarget ⊢
    · rw [if_neg hn] at htarget ⊢
      obtain ⟨carrier, hcarrier, rfl⟩ := Option.map_eq_some_iff.mp htarget
      rw [hfind hcarrier, Option.map_some]
  · cases ha

/-- What a path has behind a URN resolves to the target that it resolved to. -/
theorem resolveIn_grown (h : a.GrowsTo b) (hb : b.IsWellFormed)
    {schema schema' : Option ExtensionDeclaration}
    (hmem : ∀ extension ∈ schema', extension ∈ b.extensions)
    (hschema : Option.Rel ExtensionDeclaration.GrowsTo schema schema') {path : String}
    {rest : List Char} {target : Target} (ha : a.resolveIn path schema rest = .ok target) :
    b.resolveIn path schema' rest = .ok target := by
  have htarget : ∀ {segments target}, a.targetIn? segments schema = some target →
      b.targetIn? segments schema' = some target := by
    intro segments target
    cases hschema with
    | none => exact h.coreTarget?_eq_some hb
    | some hgrows => exact hgrows.target?_eq_some (hb.distinct_fields (hmem _ rfl))
  obtain ⟨hdepth, hempty, hfound⟩ := resolveIn_eq_ok_iff.mp ha
  exact resolveIn_eq_ok_iff.mpr ⟨hdepth, hempty, htarget hfound⟩

/-- **What resolved before resolves to the same target**, unless the path begins with the URN of an
added extension. -/
theorem resolve_eq_ok (h : a.GrowsTo b) (hb : b.IsWellFormed) {path : String}
    (havoids : a.AvoidsAdded b path) {target : Target} (ha : a.resolve path = .ok target) :
    b.resolve path = .ok target := by
  have hrel := h.schemaOf?_rel hb havoids
  have hmem : ∀ urn schema, b.schemaOf? path.toList = some (urn, schema) →
      ∀ extension ∈ schema, extension ∈ b.extensions :=
    fun _ _ hfound => mem_extensions_of_schemaOf? hfound
  rw [resolve] at ha ⊢
  generalize a.schemaOf? path.toList = x, b.schemaOf? path.toList = y at hrel hmem ha ⊢
  cases hrel with
  | none =>
      obtain ⟨hurn, ha⟩ := refusal_eq_ok_iff.mp ha
      exact refusal_eq_ok_iff.mpr ⟨hurn, h.resolveIn_grown hb (by rintro _ ⟨⟩) .none ha⟩
  | @some x y hxy =>
      obtain ⟨urn, schema⟩ := x
      obtain ⟨urn', schema'⟩ := y
      obtain rfl : urn = urn' := hxy.urn_eq
      exact h.resolveIn_grown hb (hmem urn schema' rfl) hxy.schema ha

end ResourceDeclaration.GrowsTo

end ScimDirectory
