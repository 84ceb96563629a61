import ScimDirectory.Proofs.Checked
import ScimDirectory.Proofs.Path
import ScimDirectory.Schema.Registry

/-!
# What the registry is assembled from

The schema of a resource is built entry by entry, but what comes out can be said of the whole list
of declarations at once: the attributes are those with simple paths, and the parts of each are those
whose paths lead through its name (`attributesOf`). This module gives that closed form for
attributes, extension fields, extensions, resource types and the registry, and with it the
condition under which each entry is placed behind those before it.

## Main results

* `find?_attributesOf`, `find?_partsOf`: a look-up in the assembled tree is a look-up by path in the
  flat list of declarations.
* `placeAttribute_eq_ok_iff`: **placing one attribute**: when it succeeds, and that it keeps the
  closed form.
* `ResourceDeclaration.build_eq_ok_iff`, `Registry.build_eq_ok_iff`: **when a schema and a registry
  are built, and what they hold**.
-/

namespace ScimDirectory

/-! ### Searches by name -/

namespace Named

variable {α β : Type} [Named α] [Named β]

/-- Names that are alike find the same entry. -/
theorem find?_congr {entries : List α} {a b : String} (h : Alike a b) :
    find? entries a = find? entries b := by
  simp only [find?, Alike, show fold a = fold b from h]

theorem has_eq_false_iff {entries : List α} {name : String} :
    has entries name = false ↔ ∀ entry ∈ entries, ¬ Alike (nameOf entry) name := by
  simp [has]

/-- A search sees only the names of the entries. -/
theorem find?_map (f : α → β) (hf : ∀ entry, nameOf (f entry) = nameOf entry) (entries : List α)
    (name : String) : find? (entries.map f) name = (find? entries name).map f := by
  rw [find?, List.find?_map, find?]
  refine congrArg (Option.map f) (congrArg (List.find? · entries) (funext fun entry => ?_))
  rw [Function.comp_apply, hf]

theorem has_map (f : α → β) (hf : ∀ entry, nameOf (f entry) = nameOf entry) (entries : List α)
    (name : String) : has (entries.map f) name = has entries name := by
  rw [← find?_isSome, find?_map f hf, Option.isSome_map, find?_isSome]

/-- No entry of a list of results has the name, if none of the list has it. -/
theorem has_map_eq_false_iff (f : α → β) (hf : ∀ entry, nameOf (f entry) = nameOf entry)
    {entries : List α} {name : String} :
    has (entries.map f) name = false ↔ ∀ entry ∈ entries, ¬ Alike (nameOf entry) name := by
  rw [has_map f hf, has_eq_false_iff]

/-- Entries have distinct names if each is admitted only with a new one. -/
theorem distinct_of_throughout {Admits : List α → α → Prop} {entries : List α}
    (h : Throughout Admits entries)
    (hfresh : ∀ done entry, Admits done entry →
      ∀ earlier ∈ done, ¬ Alike (nameOf earlier) (nameOf entry)) : Distinct entries := by
  refine throughout_forall_iff_pairwise.mp ?_
  intro done entry rest heq
  exact hfresh done entry (h done entry rest heq)

end Named

/-! ### Attributes and parts of a flat list -/

namespace AttributeDeclaration

/-- The path has one segment. -/
def isSimple (declaration : AttributeDeclaration) : Bool :=
  '.' ∉ declaration.path.toList

/-- The last segment of the path. -/
def leaf (declaration : AttributeDeclaration) : String :=
  String.ofList ((declaration.path.toList.splitOn '.').getLastD [])

/-- The field that is declared, under the last segment of its path. -/
def field (declaration : AttributeDeclaration) : Field :=
  declaration.toField declaration.leaf

/-- The declared part of the attribute `parent`, if the path leads through that. -/
def partOf? (parent : String) (declaration : AttributeDeclaration) : Option Field :=
  match AttributePath.ofChars? declaration.path.toList with
  | some (.part p name) => if Alike p parent then some (declaration.toField name) else none
  | _ => none

end AttributeDeclaration

/-- The parts that are declared for the attribute `parent`. -/
def partsOf (declarations : List AttributeDeclaration) (parent : String) : List Field :=
  declarations.filterMap (AttributeDeclaration.partOf? parent)

/-- The attribute that a declaration with a simple path stands for among the others. -/
def attributeOf (declarations : List AttributeDeclaration) (declaration : AttributeDeclaration) :
    Attribute where
  toField := declaration.field
  parts := partsOf declarations declaration.path

/-- **The attributes of a flat list of declarations.** -/
def attributesOf (declarations : List AttributeDeclaration) : List Attribute :=
  (declarations.filter AttributeDeclaration.isSimple).map (attributeOf declarations)

namespace AttributeDeclaration

variable {declaration : AttributeDeclaration}

/-- A path without dots is its own last segment. -/
theorem leaf_of_simple (h : '.' ∉ declaration.path.toList) :
    declaration.leaf = declaration.path := by
  rw [leaf, List.splitOn_eq_singleton h]
  exact String.ofList_toList

/-- The last segment of a path to a part is the name of the part. -/
theorem leaf_of_dotted {parent name : String} (hparent : '.' ∉ parent.toList)
    (hname : '.' ∉ name.toList) (h : declaration.path = dotted parent name) :
    declaration.leaf = name := by
  rw [leaf, h, toList_dotted, List.splitOn_append_cons_self_of_not_mem hparent,
    List.splitOn_eq_singleton hname]
  exact String.ofList_toList

/-- The parts of an attribute are those declared under paths that lead through its name. -/
theorem partOf?_eq_some_iff {parent : String} {field : Field} :
    declaration.partOf? parent = some field ↔
      ∃ p name, ('.' ∉ p.toList ∧ '.' ∉ name.toList) ∧ declaration.path = dotted p name ∧
        Alike p parent ∧ declaration.toField name = field := by
  rw [partOf?]
  constructor
  · intro h
    split at h
    · next p name hpath =>
        obtain ⟨hdots, htext⟩ := AttributePath.ofChars?_eq_part_iff.mp hpath
        split at h
        · next halike => exact ⟨p, name, hdots, htext, halike, Option.some.inj h⟩
        · cases h
    · cases h
  · rintro ⟨p, name, hdots, htext, halike, rfl⟩
    rw [AttributePath.ofChars?_eq_part_iff.mpr ⟨hdots, htext⟩]
    exact if_pos halike

/-- A declaration under a path alike to a dotted one stands for a part of that name. -/
theorem partOf?_of_alike {parent name : String} (hparent : '.' ∉ parent.toList)
    (hname : '.' ∉ name.toList) (h : Alike declaration.path (dotted parent name)) :
    declaration.partOf? parent = some declaration.field ∧ Alike declaration.leaf name := by
  obtain ⟨p, n, htext, hp, hn⟩ := exists_dotted_of_alike h
  have hpdot := dot_not_mem_of_alike hp hparent
  have hndot := dot_not_mem_of_alike hn hname
  have hleaf := leaf_of_dotted hpdot hndot htext
  refine ⟨partOf?_eq_some_iff.mpr ⟨p, n, ⟨hpdot, hndot⟩, htext, hp, ?_⟩, hleaf ▸ hn⟩
  rw [field, hleaf]

end AttributeDeclaration

/-- **An attribute is found by its path** in the flat list. -/
theorem find?_attributesOf {declarations : List AttributeDeclaration} {name : String}
    (hname : '.' ∉ name.toList) :
    Named.find? (attributesOf declarations) name =
      (Named.find? declarations name).map (attributeOf declarations) := by
  have hsame : ∀ d : AttributeDeclaration,
      (d.isSimple = true ∧ decide (Alike (attributeOf declarations d).name name) = true) ↔
        Alike d.path name := by
    intro d
    rw [AttributeDeclaration.isSimple, decide_eq_true_iff, decide_eq_true_iff]
    constructor
    · rintro ⟨hdot, halike⟩
      rwa [← AttributeDeclaration.leaf_of_simple hdot]
    · intro halike
      have hdot := dot_not_mem_of_alike halike hname
      refine ⟨hdot, ?_⟩
      rwa [← AttributeDeclaration.leaf_of_simple hdot] at halike
  rw [Named.find?, attributesOf, List.find?_map, List.find?_filter, Named.find?]
  refine congrArg (Option.map _) (congrArg (List.find? · declarations) (funext fun d => ?_))
  exact decide_eq_decide.mpr (hsame d)

/-- **A part is found by the dotted path** in the flat list. -/
theorem find?_partsOf {declarations : List AttributeDeclaration} {parent name : String}
    (hparent : '.' ∉ parent.toList) (hname : '.' ∉ name.toList) :
    Named.find? (partsOf declarations parent) name =
      (Named.find? declarations (dotted parent name)).map AttributeDeclaration.field := by
  have hsame : ∀ d : AttributeDeclaration,
      ((d.partOf? parent).any fun field => decide (Alike (Named.nameOf field) name)) =
        decide (Alike d.path (dotted parent name)) := by
    intro d
    by_cases halike : Alike d.path (dotted parent name)
    · obtain ⟨hpart, hleaf⟩ := AttributeDeclaration.partOf?_of_alike hparent hname halike
      rw [hpart, decide_eq_true halike]
      exact decide_eq_true hleaf
    · rw [decide_eq_false halike]
      cases hpart : d.partOf? parent with
      | none => rfl
      | some field =>
          obtain ⟨p, n, ⟨hp, hn⟩, htext, hparents, rfl⟩ :=
            AttributeDeclaration.partOf?_eq_some_iff.mp hpart
          refine decide_eq_false fun hnames => halike ?_
          rw [htext, alike_dotted_iff hp hparent]
          exact ⟨hparents, hnames⟩
  rw [Named.find?, partsOf, List.find?_filterMap, funext hsame]
  change (Named.find? declarations (dotted parent name)).bind _ = _
  cases hfind : Named.find? declarations (dotted parent name) with
  | none => rfl
  | some d =>
      exact (AttributeDeclaration.partOf?_of_alike hparent hname (Named.alike_of_find? hfind)).1

/-- The parts of an attribute are found by the dotted path, whatever the letter case of the name
that the attribute was found under. -/
theorem find?_parts_attributeOf {declarations : List AttributeDeclaration}
    {carrier : AttributeDeclaration} {parent name : String} (hparent : '.' ∉ parent.toList)
    (hname : '.' ∉ name.toList) (hcarrier : Alike carrier.path parent) :
    Named.find? (attributeOf declarations carrier).parts name =
      (Named.find? declarations (dotted parent name)).map AttributeDeclaration.field := by
  have hdot := dot_not_mem_of_alike hcarrier hparent
  have hdotted : Alike (dotted carrier.path name) (dotted parent name) :=
    (alike_dotted_iff hdot hparent).mpr ⟨hcarrier, Alike.rfl⟩
  rw [attributeOf, find?_partsOf hdot hname, Named.find?_congr hdotted]

theorem has_attributesOf {declarations : List AttributeDeclaration} {name : String}
    (hname : '.' ∉ name.toList) :
    Named.has (attributesOf declarations) name = Named.has declarations name := by
  rw [← Named.find?_isSome, find?_attributesOf hname, Option.isSome_map, Named.find?_isSome]

/-! ### Placing an attribute -/

/-- The declaration can be placed behind those in `done`: its path has one or two segments, its
field can be stored, its path was not declared before, and a part comes after its complex parent. -/
def AttributeDeclaration.IsAdmitted (done : List AttributeDeclaration)
    (declaration : AttributeDeclaration) : Prop :=
  ∃ path, AttributePath.ofChars? declaration.path.toList = some path ∧
    (∀ earlier ∈ done, ¬ Alike earlier.path declaration.path) ∧
    declaration.field.isStorable = true ∧
    ∀ parent name, path = .part parent name →
      ∃ earlier ∈ done, Alike earlier.path parent ∧ earlier.type = .complex

section Placing

variable {resource : String} {done : List AttributeDeclaration}
  {declaration : AttributeDeclaration} {placed : List Attribute}

/-- Declarations that were placed have distinct paths. -/
theorem distinct_attributes (h : Throughout AttributeDeclaration.IsAdmitted done) :
    Named.Distinct done := by
  refine Named.distinct_of_throughout h ?_
  rintro front entry ⟨_, -, hfresh, -⟩
  exact hfresh

/-- A part that was placed has its parent among the declarations placed before. -/
theorem has_parent_of_partOf? (h : Throughout AttributeDeclaration.IsAdmitted done)
    {earlier : AttributeDeclaration} (hmem : earlier ∈ done) {parent : String} {field : Field}
    (hpart : earlier.partOf? parent = some field) :
    ∃ carrier ∈ done, Alike carrier.path parent ∧ carrier.type = .complex := by
  obtain ⟨p, n, hdots, htext, halike, -⟩ := AttributeDeclaration.partOf?_eq_some_iff.mp hpart
  obtain ⟨front, back, rfl, path, hpath, -, -, hparent⟩ := h.exists_admits hmem
  rw [AttributePath.ofChars?_eq_part_iff.mpr ⟨hdots, htext⟩] at hpath
  obtain ⟨carrier, hcarrier, hname, htype⟩ := hparent p n (Option.some.inj hpath).symm
  exact ⟨carrier, List.mem_append_left _ hcarrier, hname.trans halike, htype⟩

theorem partsOf_concat (parent : String) :
    partsOf (done ++ [declaration]) parent =
      partsOf done parent ++ (declaration.partOf? parent).toList := by
  rw [partsOf, partsOf, List.filterMap_append]
  cases h : declaration.partOf? parent <;> simp [h]

/-- A new simple path adds an attribute without parts. -/
theorem attributesOf_concat_simple (hdot : '.' ∉ declaration.path.toList)
    (hfresh : Named.has done declaration.path = false)
    (h : Throughout AttributeDeclaration.IsAdmitted done) :
    attributesOf (done ++ [declaration]) =
      attributesOf done ++ [⟨declaration.field, []⟩] := by
  have hnone : ∀ parent, declaration.partOf? parent = none := by
    intro parent
    rw [Option.eq_none_iff_forall_ne_some]
    intro field hpart
    obtain ⟨p, n, -, htext, -⟩ := AttributeDeclaration.partOf?_eq_some_iff.mp hpart
    rw [htext, toList_dotted] at hdot
    exact hdot (List.mem_append_right _ List.mem_cons_self)
  have hsame : attributeOf (done ++ [declaration]) = attributeOf done := by
    funext d
    rw [attributeOf, partsOf_concat, hnone, Option.toList_none, List.append_nil, attributeOf]
  have hparts : partsOf done declaration.path = [] := by
    rw [partsOf, List.filterMap_eq_nil_iff]
    intro earlier hmem
    rw [Option.eq_none_iff_forall_ne_some]
    intro field hpart
    obtain ⟨carrier, hcarrier, halike, -⟩ := has_parent_of_partOf? h hmem hpart
    have hhas := Named.has_iff.mpr ⟨carrier, hcarrier, halike⟩
    rw [hfresh] at hhas
    cases hhas
  have hsimple : declaration.isSimple = true := decide_eq_true hdot
  rw [attributesOf, List.filter_append, List.map_append, hsame, attributesOf,
    List.filter_singleton, hsimple, cond_true, List.map_singleton, attributeOf, hparts]

/-- A new path to a part adds a part to its parent. -/
theorem attributesOf_concat_part {parent name : String} (hparent : '.' ∉ parent.toList)
    (hname : '.' ∉ name.toList) (htext : declaration.path = dotted parent name) :
    attributesOf (done ++ [declaration]) =
      (attributesOf done).map fun a =>
        if Alike a.name parent then { a with parts := a.parts ++ [declaration.field] } else a := by
  have hsimple : declaration.isSimple = false := by
    refine decide_eq_false fun hdot => hdot ?_
    rw [htext, toList_dotted]
    exact List.mem_append_right _ List.mem_cons_self
  rw [attributesOf, List.filter_append, List.filter_singleton, hsimple, cond_false,
    List.append_nil, attributesOf, List.map_map]
  refine List.map_congr_left fun d hd => ?_
  have hdot : '.' ∉ d.path.toList := of_decide_eq_true (List.mem_filter.mp hd).2
  have hattr : (attributeOf done d).name = d.path := AttributeDeclaration.leaf_of_simple hdot
  rw [Function.comp_apply, hattr, attributeOf, partsOf_concat]
  by_cases halike : Alike d.path parent
  · have hpart : declaration.partOf? d.path = some declaration.field := by
      refine AttributeDeclaration.partOf?_eq_some_iff.mpr
        ⟨parent, name, ⟨hparent, hname⟩, htext, halike.symm, ?_⟩
      rw [AttributeDeclaration.field, AttributeDeclaration.leaf_of_dotted hparent hname htext]
    rw [if_pos halike, hpart]
    rfl
  · have hpart : declaration.partOf? d.path = none := by
      rw [Option.eq_none_iff_forall_ne_some]
      intro field hsome
      obtain ⟨p, n, ⟨hp, -⟩, htext', halike', -⟩ :=
        AttributeDeclaration.partOf?_eq_some_iff.mp hsome
      have hboth : Alike (dotted p n) (dotted parent name) := htext' ▸ htext ▸ Alike.rfl
      exact halike (halike'.symm.trans ((alike_dotted_iff hp hparent).mp hboth).1)
    rw [if_neg halike, hpart, Option.toList_none, List.append_nil, attributeOf]

/-- A simple path is admitted when it is new and its field can be stored. -/
theorem isAdmitted_simple_iff (hdot : '.' ∉ declaration.path.toList) :
    declaration.IsAdmitted done ↔
      Named.has done declaration.path = false ∧ declaration.field.isStorable = true := by
  have hpath := AttributePath.ofChars?_eq_simple_iff.mpr ⟨hdot, rfl⟩
  rw [Named.has_eq_false_iff]
  constructor
  · rintro ⟨_, -, hfresh, hstorable, -⟩
    exact ⟨hfresh, hstorable⟩
  · rintro ⟨hfresh, hstorable⟩
    refine ⟨.simple declaration.path, hpath, hfresh, hstorable, ?_⟩
    rintro _ _ ⟨⟩

/-- A path to a part is admitted when, besides, its parent is among the complex attributes. -/
theorem isAdmitted_part_iff {parent name : String} (hparent : '.' ∉ parent.toList)
    (hname : '.' ∉ name.toList) (htext : declaration.path = dotted parent name) :
    declaration.IsAdmitted done ↔
      (∃ earlier ∈ done, Alike earlier.path parent ∧ earlier.type = .complex) ∧
        Named.has done declaration.path = false ∧ declaration.field.isStorable = true := by
  have hpath := AttributePath.ofChars?_eq_part_iff.mpr ⟨⟨hparent, hname⟩, htext⟩
  rw [Named.has_eq_false_iff]
  constructor
  · rintro ⟨path, hsome, hfresh, hstorable, hcarrier⟩
    rw [hpath] at hsome
    exact ⟨hcarrier parent name (Option.some.inj hsome).symm, hfresh, hstorable⟩
  · rintro ⟨hcarrier, hfresh, hstorable⟩
    refine ⟨.part parent name, hpath, hfresh, hstorable, ?_⟩
    rintro _ _ ⟨⟩
    exact hcarrier

/-- The carrier that a path to a part needs is found in the assembled tree. -/
theorem exists_carrier_iff {parent : String} (hparent : '.' ∉ parent.toList)
    (h : Throughout AttributeDeclaration.IsAdmitted done) :
    (∃ carrier, Named.find? (attributesOf done) parent = some carrier ∧
        carrier.isComplex = true) ↔
      ∃ earlier ∈ done, Alike earlier.path parent ∧ earlier.type = .complex := by
  rw [find?_attributesOf hparent]
  constructor
  · rintro ⟨carrier, hfind, hcomplex⟩
    obtain ⟨earlier, hearlier, rfl⟩ := Option.map_eq_some_iff.mp hfind
    exact ⟨earlier, Named.mem_of_find? hearlier, Named.alike_of_find? hearlier,
      of_decide_eq_true hcomplex⟩
  · rintro ⟨earlier, hmem, halike, htype⟩
    have hfind := (distinct_attributes h).find?_eq_some_iff.mpr ⟨hmem, halike⟩
    exact ⟨_, Option.map_eq_some_iff.mpr ⟨earlier, hfind, rfl⟩, decide_eq_true htype⟩

/-- The carrier found for a parent has the parts whose dotted paths were declared. -/
theorem has_parts_of_find? {parent name : String} (hparent : '.' ∉ parent.toList)
    (hname : '.' ∉ name.toList) {carrier : Attribute}
    (h : Named.find? (attributesOf done) parent = some carrier) :
    Named.has carrier.parts name = Named.has done (dotted parent name) := by
  rw [find?_attributesOf hparent] at h
  obtain ⟨earlier, hearlier, rfl⟩ := Option.map_eq_some_iff.mp h
  rw [← Named.find?_isSome, find?_parts_attributeOf hparent hname (Named.alike_of_find? hearlier),
    Option.isSome_map, Named.find?_isSome]

/-- **Placing one attribute** behind those of `done` succeeds exactly when it is admitted, and keeps
the closed form. -/
theorem placeAttribute_eq_ok_iff (h : Throughout AttributeDeclaration.IsAdmitted done) :
    placeAttribute resource (attributesOf done) declaration = .ok placed ↔
      declaration.IsAdmitted done ∧ attributesOf (done ++ [declaration]) = placed := by
  rw [placeAttribute]
  split
  · next hpath =>
      refine iff_of_false (by rintro ⟨⟩) ?_
      rintro ⟨⟨path, hsome, -⟩, -⟩
      rw [hpath] at hsome
      cases hsome
  · next name hpath =>
      obtain ⟨hdot, rfl⟩ := AttributePath.ofChars?_eq_simple_iff.mp hpath
      have hfield : declaration.toField declaration.path = declaration.field := by
        rw [AttributeDeclaration.field, AttributeDeclaration.leaf_of_simple hdot]
      simp only [guard_eq_ok_iff, pure_eq_ok_iff, hfield, has_attributesOf hdot,
        isAdmitted_simple_iff hdot, Bool.not_eq_true, Bool.not_eq_false', and_assoc]
      refine and_congr_right fun hfresh => and_congr_right fun _ => ?_
      rw [attributesOf_concat_simple hdot hfresh h]
  · next parent name hpath =>
      obtain ⟨⟨hparent, hname⟩, htext⟩ := AttributePath.ofChars?_eq_part_iff.mp hpath
      have hfield : declaration.toField name = declaration.field := by
        rw [AttributeDeclaration.field, AttributeDeclaration.leaf_of_dotted hparent hname htext]
      rw [isAdmitted_part_iff hparent hname htext, ← exists_carrier_iff hparent h,
        attributesOf_concat_part hparent hname htext, hfield]
      cases hfind : Named.find? (attributesOf done) parent with
      | none =>
          refine iff_of_false (by rintro ⟨⟩) ?_
          rintro ⟨⟨⟨_, ⟨⟩, -⟩, -⟩, -⟩
      | some carrier =>
          have hhas := has_parts_of_find? hparent hname hfind
          simp only [guard_eq_ok_iff, pure_eq_ok_iff, hhas, ← htext, Option.some.injEq,
            exists_eq_left', Bool.not_eq_true, Bool.not_eq_false', and_assoc]

end Placing

/-! ### Extensions -/

/-- The field can be placed behind those in `done`: its name has no dots and was not declared
before, and it can be stored. -/
def FieldDeclaration.IsAdmitted (done : List FieldDeclaration) (declaration : FieldDeclaration) :
    Prop :=
  '.' ∉ declaration.name.toList ∧ (∀ earlier ∈ done, ¬ Alike earlier.name declaration.name) ∧
    declaration.toField.isStorable = true

/-- **Placing one field** succeeds exactly when it is admitted, and keeps the closed form. -/
theorem placeField_eq_ok_iff {resource urn : String} {done : List FieldDeclaration}
    {declaration : FieldDeclaration} {placed : List Field} :
    placeField resource urn (done.map FieldDeclaration.toField) declaration = .ok placed ↔
      declaration.IsAdmitted done ∧
        (done ++ [declaration]).map FieldDeclaration.toField = placed := by
  have hfresh : Named.has (done.map FieldDeclaration.toField) declaration.name = false ↔
      ∀ earlier ∈ done, ¬ Alike earlier.name declaration.name :=
    Named.has_map_eq_false_iff FieldDeclaration.toField fun _ => rfl
  simp only [placeField, guard_eq_ok_iff, pure_eq_ok_iff, Bool.not_eq_true, Bool.not_eq_false',
    hfresh, FieldDeclaration.IsAdmitted, List.map_append, List.map_singleton, and_assoc]

namespace ExtensionDeclaration

/-- The extension that is declared. -/
def extension (declaration : ExtensionDeclaration) : Extension :=
  { declaration with fields := declaration.fields.map FieldDeclaration.toField }

/-- The extension can be placed behind those in `done`: its URN was not declared before, and each
of its fields can be placed behind those before it. -/
def IsAdmitted (done : List ExtensionDeclaration) (declaration : ExtensionDeclaration) : Prop :=
  (∀ earlier ∈ done, ¬ Alike earlier.urn declaration.urn) ∧
    Throughout FieldDeclaration.IsAdmitted declaration.fields

end ExtensionDeclaration

/-- **Placing one extension** succeeds exactly when it is admitted, and keeps the closed form. -/
theorem placeExtension_eq_ok_iff {resource : String} {done : List ExtensionDeclaration}
    {declaration : ExtensionDeclaration} {placed : List Extension} :
    placeExtension resource (done.map ExtensionDeclaration.extension) declaration = .ok placed ↔
      declaration.IsAdmitted done ∧
        (done ++ [declaration]).map ExtensionDeclaration.extension = placed := by
  have hfresh : Named.has (done.map ExtensionDeclaration.extension) declaration.urn = false ↔
      ∀ earlier ∈ done, ¬ Alike earlier.urn declaration.urn :=
    Named.has_map_eq_false_iff ExtensionDeclaration.extension fun _ => rfl
  have hfields : ∀ fields : List Field,
      declaration.fields.foldlM (placeField resource declaration.urn) [] = .ok fields ↔
        Throughout FieldDeclaration.IsAdmitted declaration.fields ∧
          declaration.fields.map FieldDeclaration.toField = fields := fun fields =>
    foldlM_eq_ok_iff (List.map FieldDeclaration.toField) fun _ _ _ _ => placeField_eq_ok_iff
  simp only [placeExtension, guard_eq_ok_iff, bind_eq_ok_iff, pure_eq_ok_iff, hfields,
    Bool.not_eq_true, hfresh, ExtensionDeclaration.IsAdmitted, List.map_append,
    List.map_singleton, and_assoc, exists_and_left, exists_eq_left']
  exact Iff.rfl

/-- The fields of an extension that was placed have distinct names. -/
theorem ExtensionDeclaration.IsAdmitted.distinct_fields {done : List ExtensionDeclaration}
    {declaration : ExtensionDeclaration} (h : declaration.IsAdmitted done) :
    Named.Distinct declaration.fields :=
  Named.distinct_of_throughout h.2 fun _ _ hadmitted => hadmitted.2.1

/-! ### Resource types -/

namespace ResourceDeclaration

variable {declaration : ResourceDeclaration}

/-- The schema of the resource type that is declared. -/
def resource (declaration : ResourceDeclaration) : Resource :=
  { declaration with
    attributes := .ofList (attributesOf declaration.attributes)
    extensions := declaration.extensions.map ExtensionDeclaration.extension }

/-- A schema can be built: each attribute and each extension can be placed behind those before it,
the name attribute is among the complex ones, and the identifier is stored under a name. -/
structure IsWellFormed (declaration : ResourceDeclaration) : Prop where
  attributes : Throughout AttributeDeclaration.IsAdmitted declaration.attributes
  nameAttribute : ∀ name ∈ declaration.nameAttribute, ∃ a ∈ declaration.attributes,
    a.isSimple = true ∧ Alike a.path name ∧ a.type = .complex
  identifier : isBlank declaration.identifier = false
  extensions : Throughout ExtensionDeclaration.IsAdmitted declaration.extensions

/-- The extensions of a schema that can be built have distinct URNs. -/
theorem IsWellFormed.distinct_extensions (h : declaration.IsWellFormed) :
    Named.Distinct declaration.extensions :=
  Named.distinct_of_throughout h.extensions fun _ _ hadmitted => hadmitted.1

/-- The fields of each of its extensions have distinct names. -/
theorem IsWellFormed.distinct_fields (h : declaration.IsWellFormed)
    {extension : ExtensionDeclaration} (hmem : extension ∈ declaration.extensions) :
    Named.Distinct extension.fields := by
  obtain ⟨_, _, -, hadmitted⟩ := h.extensions.exists_admits hmem
  exact hadmitted.distinct_fields

/-- The name attribute is checked against the complex attributes. -/
theorem checkNameAttribute_eq_ok_iff {u : Unit} :
    declaration.checkNameAttribute (attributesOf declaration.attributes) = .ok u ↔
      ∀ name ∈ declaration.nameAttribute, ∃ a ∈ declaration.attributes,
        a.isSimple = true ∧ Alike a.path name ∧ a.type = .complex := by
  have hany : ∀ name : String,
      ((attributesOf declaration.attributes).any fun a => Alike a.name name && a.isComplex) =
          true ↔
        ∃ a ∈ declaration.attributes, a.isSimple = true ∧ Alike a.path name ∧
          a.type = .complex := by
    intro name
    simp only [attributesOf, List.any_map, List.any_filter, List.any_eq_true, Bool.and_eq_true,
      Function.comp_apply, decide_eq_true_iff]
    refine exists_congr fun a => and_congr_right fun _ => and_congr_right fun hsimple => ?_
    have hname : (attributeOf declaration.attributes a).name = a.path :=
      AttributeDeclaration.leaf_of_simple (of_decide_eq_true hsimple)
    rw [hname]
    exact and_congr_right fun _ => decide_eq_true_iff
  rw [checkNameAttribute]
  cases declaration.nameAttribute with
  | none => exact iff_of_true rfl (by simp)
  | some name =>
      simp only [Option.mem_def, Option.some.injEq, forall_eq', ← hany name]
      split
      · next h => exact iff_of_true rfl h
      · next h => exact iff_of_false (by rintro ⟨⟩) h

/-- **When a schema is built, and what it holds.** -/
theorem build_eq_ok_iff {resource : Resource} :
    declaration.build = .ok resource ↔
      declaration.IsWellFormed ∧ declaration.resource = resource := by
  have hattributes : ∀ attributes : List Attribute,
      declaration.attributes.foldlM (placeAttribute declaration.name) [] = .ok attributes ↔
        Throughout AttributeDeclaration.IsAdmitted declaration.attributes ∧
          attributesOf declaration.attributes = attributes := fun _ =>
    foldlM_eq_ok_iff attributesOf fun _ _ _ hdone => placeAttribute_eq_ok_iff hdone
  have hextensions : ∀ extensions : List Extension,
      declaration.extensions.foldlM (placeExtension declaration.name) [] = .ok extensions ↔
        Throughout ExtensionDeclaration.IsAdmitted declaration.extensions ∧
          declaration.extensions.map ExtensionDeclaration.extension = extensions := fun _ =>
    foldlM_eq_ok_iff (List.map ExtensionDeclaration.extension)
      fun _ _ _ _ => placeExtension_eq_ok_iff
  simp only [build, bind_eq_ok_iff, guard_eq_ok_iff, pure_eq_ok_iff, hattributes, hextensions,
    Bool.not_eq_true]
  constructor
  · rintro ⟨_, ⟨hplaced, rfl⟩, _, hname, hidentifier, _, ⟨hextended, rfl⟩, rfl⟩
    exact ⟨⟨hplaced, checkNameAttribute_eq_ok_iff.mp hname, hidentifier, hextended⟩, rfl⟩
  · rintro ⟨h, rfl⟩
    exact ⟨_, ⟨h.attributes, rfl⟩, (), checkNameAttribute_eq_ok_iff.mpr h.nameAttribute,
      h.identifier, _, ⟨h.extensions, rfl⟩, rfl⟩

/-- The resource type can be registered behind those in `done`: its name was not declared before,
and its schema can be built. -/
def IsAdmitted (done : List ResourceDeclaration) (declaration : ResourceDeclaration) : Prop :=
  (∀ earlier ∈ done, ¬ Alike earlier.name declaration.name) ∧ declaration.IsWellFormed

end ResourceDeclaration

/-- **Registering one resource type** succeeds exactly when it is admitted, and keeps the closed
form. -/
theorem register_eq_ok_iff {done : List ResourceDeclaration} {declaration : ResourceDeclaration}
    {registered : List Resource} :
    register (done.map ResourceDeclaration.resource) declaration = .ok registered ↔
      declaration.IsAdmitted done ∧
        (done ++ [declaration]).map ResourceDeclaration.resource = registered := by
  have hfresh : Named.has (done.map ResourceDeclaration.resource) declaration.name = false ↔
      ∀ earlier ∈ done, ¬ Alike earlier.name declaration.name :=
    Named.has_map_eq_false_iff ResourceDeclaration.resource fun _ => rfl
  simp only [register, guard_eq_ok_iff, bind_eq_ok_iff, pure_eq_ok_iff, Bool.not_eq_true, hfresh,
    ResourceDeclaration.build_eq_ok_iff, ResourceDeclaration.IsAdmitted, List.map_append,
    List.map_singleton, and_assoc, exists_and_left, exists_eq_left']

namespace Registry

/-- **When a registry is built, and what it holds.** -/
theorem build_eq_ok_iff {declarations : List ResourceDeclaration} {registry : Registry} :
    build declarations = .ok registry ↔
      Throughout ResourceDeclaration.IsAdmitted declarations ∧
        ⟨.ofList (declarations.map ResourceDeclaration.resource)⟩ = registry := by
  have hregistered : ∀ resources : List Resource,
      declarations.foldlM register [] = .ok resources ↔
        Throughout ResourceDeclaration.IsAdmitted declarations ∧
          declarations.map ResourceDeclaration.resource = resources := fun _ =>
    foldlM_eq_ok_iff (List.map ResourceDeclaration.resource) fun _ _ _ _ => register_eq_ok_iff
  simp only [build, bind_eq_ok_iff, pure_eq_ok_iff, hregistered, and_assoc, exists_and_left,
    exists_eq_left']

/-- The resource types of a registry are those that were declared, in the same order. -/
theorem resourceTypes_of_build {declarations : List ResourceDeclaration} {registry : Registry}
    (h : build declarations = .ok registry) :
    registry.resourceTypes = declarations.map ResourceDeclaration.resource := by
  obtain ⟨-, rfl⟩ := build_eq_ok_iff.mp h
  rw [resourceTypes, Catalog.toList_ofList]

/-- The resource types of a registry were declared under distinct names. -/
theorem distinct_of_build {declarations : List ResourceDeclaration} {registry : Registry}
    (h : build declarations = .ok registry) : Named.Distinct declarations :=
  Named.distinct_of_throughout (build_eq_ok_iff.mp h).1 fun _ _ hadmitted => hadmitted.1

/-- Each declaration of a registry can be built by itself. -/
theorem isWellFormed_of_build {declarations : List ResourceDeclaration} {registry : Registry}
    (h : build declarations = .ok registry) {declaration : ResourceDeclaration}
    (hmem : declaration ∈ declarations) : declaration.IsWellFormed := by
  obtain ⟨_, _, -, -, hformed⟩ := (build_eq_ok_iff.mp h).1.exists_admits hmem
  exact hformed

/-- **Looking up a resource type** in a registry is looking up its declaration. -/
theorem resource?_eq_of_build {declarations : List ResourceDeclaration} {registry : Registry}
    (h : build declarations = .ok registry) (name : String) :
    registry.resource? name =
      (Named.find? declarations name).map ResourceDeclaration.resource := by
  rw [resource?_eq_find?, resourceTypes_of_build h,
    Named.find?_map ResourceDeclaration.resource fun _ => rfl]

/-- A declared resource type is registered under its name. -/
theorem resource?_of_build {declarations : List ResourceDeclaration} {registry : Registry}
    (h : build declarations = .ok registry) {declaration : ResourceDeclaration}
    (hmem : declaration ∈ declarations) :
    registry.resource? declaration.name = some declaration.resource ∧
      declaration.IsWellFormed := by
  have hfind := (distinct_of_build h).find?_eq_some_iff.mpr ⟨hmem, Alike.rfl⟩
  refine ⟨?_, isWellFormed_of_build h hmem⟩
  rw [resource?_eq_of_build h]
  exact congrArg (Option.map ResourceDeclaration.resource) hfind

end Registry

end ScimDirectory
