import ScimDirectory.Json.Decoder
import ScimDirectory.Proofs.Json.RoundTrip

/-!
# Decoding what was written

A decoder undoes a writer if it gives back the value from the JSON that the writer made of it. For
single values this is a computation. For a record it comes down to its fields: an object decodes if
no name occurs twice in it, none is foreign to the record, and its members give a value for every
field. Faults, and the order in which they are told, do not come up.

## Main definitions

* `Record.Reads`: the members of an object give a value for the fields of a record, without faults.

## Main results

* `Record.Reads.seq`, `Record.Reads.member`, `Record.Reads.absent`: records are read field by field.
* `Record.decoder_ofJson`: **an object decodes**, if its members give a value.
* `Decoder.list_ofJson`: an array decodes item by item.
-/

namespace ScimDirectory

/-! ### Single values -/

namespace Decoder

variable {α : Type}

theorem text_ofJson (value : String) : text (.ofJson (.string value)) = .ok value :=
  rfl

/-- A name is written as a string. -/
theorem named_ofJson {ofName? : String → Option α} {name : String} {value : α}
    (h : ofName? name = some value) (room : Nat) (known : List String) :
    named room known ofName? (.ofJson (.string name)) = .ok value := by
  rw [Draft.ofJson, named]
  simp only [h]
  rfl

/-- **An array decodes item by item**, if there is room for it. -/
theorem list_ofJson_of_mem {room : Nat} {item : Decoder α} {toJson : α → Json} (hroom : room ≠ 0)
    {xs : List α} (hitem : ∀ x ∈ xs, item (.ofJson (toJson x)) = .ok x) :
    list room item (.ofJson (.array (xs.map toJson))) = .ok xs := by
  have hmap : (Draft.ofItems (xs.map toJson)).mapM item = .ok xs := by
    induction xs with
    | nil => rfl
    | cons x xs ih =>
        rw [List.forall_mem_cons] at hitem
        rw [List.map_cons, Draft.ofItems, List.mapM_cons, hitem.1, ih hitem.2]
        rfl
  rw [Draft.ofJson, list, if_neg hroom, hmap]
  rfl

/-- So does an array of any items, if each item decodes. -/
theorem list_ofJson {room : Nat} {item : Decoder α} {toJson : α → Json} (hroom : room ≠ 0)
    (hitem : ∀ x, item (.ofJson (toJson x)) = .ok x) (xs : List α) :
    list room item (.ofJson (.array (xs.map toJson))) = .ok xs :=
  list_ofJson_of_mem hroom fun x _ => hitem x

end Decoder

/-! ### Records -/

namespace Record

variable {α β : Type}

@[simp] theorem names_seq (f : Record (α → β)) (x : Record α) :
    (f <*> x).names = f.names ++ x.names :=
  rfl

@[simp] theorem names_map (make : α → β) (x : Record α) : (make <$> x).names = x.names :=
  rfl

@[simp] theorem names_required (name : String) (decode : Decoder α) :
    (required name decode).names = [name] :=
  rfl

@[simp] theorem names_defaulted (name : String) (value : α) (decode : Decoder α) :
    (defaulted name value decode).names = [name] :=
  rfl

/-- Among members of different names each one is found. -/
theorem member?_ofMembers {members : List (String × Json)} (hnodup : (members.map Prod.fst).Nodup)
    {name : String} {value : Json} (h : (name, value) ∈ members) :
    member? (Draft.ofMembers members) name = some (.ofJson value) := by
  induction members with
  | nil => cases h
  | cons member more ih =>
      obtain ⟨key, first⟩ := member
      obtain ⟨hfresh, hmore⟩ := List.nodup_cons.mp hnodup
      rcases List.mem_cons.mp h with heq | hmem
      · obtain ⟨rfl, rfl⟩ := Prod.mk.inj heq
        exact List.lookup_cons_self
      · have hne : (some name == some key) = false :=
          beq_false_of_ne fun heq => hfresh (List.mem_map.mpr ⟨_, hmem, Option.some.inj heq⟩)
        rw [member?, Draft.ofMembers, List.lookup_cons, hne]
        exact ih hmore hmem

/-- A name that no member bears is not found. -/
theorem member?_ofMembers_eq_none {members : List (String × Json)} {name : String}
    (h : name ∉ members.map Prod.fst) : member? (Draft.ofMembers members) name = none := by
  induction members with
  | nil => rfl
  | cons member more ih =>
      obtain ⟨key, first⟩ := member
      rw [List.map_cons, List.mem_cons, not_or] at h
      have hne : (some name == some key) = false :=
        beq_false_of_ne fun heq => h.1 (Option.some.inj heq)
      rw [member?, Draft.ofMembers, List.lookup_cons, hne]
      exact ih h.2

/-- The members of an object give `value` for the fields of the record: no field is missing, and no
member is at fault. -/
def Reads (record : Record α) (found? : String → Option Draft) (value : α) : Prop :=
  record.ofMembers found? = { value := some value }

namespace Reads

variable {found? : String → Option Draft}

/-- A record without fields has its value anyway. -/
theorem pure (value : α) : Reads (Pure.pure value) found? value :=
  rfl

/-- **Records are read one after the other.** -/
theorem seq {f : Record (α → β)} {x : Record α} {make : α → β} {value : α}
    (hf : f.Reads found? make) (hx : x.Reads found? value) :
    (f <*> x).Reads found? (make value) := by
  change Reading.mk ((f.ofMembers found?).value <*> (x.ofMembers found?).value)
    ((f.ofMembers found?).missing ++ (x.ofMembers found?).missing)
    ((f.ofMembers found?).faults ++ (x.ofMembers found?).faults) = _
  rw [hf, hx]
  rfl

theorem map {x : Record α} {value : α} (make : α → β) (hx : x.Reads found? value) :
    (make <$> x).Reads found? (make value) :=
  (Reads.pure make).seq hx

/-- A field has the value that its member decodes to. -/
theorem member {members : List (String × Json)} (hnodup : (members.map Prod.fst).Nodup)
    {name : String} {absent : Option α} {decode : Decoder α} {value : α} (json : Json)
    (hmember : (name, json) ∈ members) (hdecode : decode (.ofJson json) = .ok value) :
    (field name absent decode).Reads (member? (Draft.ofMembers members)) value := by
  simp [Reads, field, member?_ofMembers hnodup hmember, hdecode]

/-- A field that may be left out has its default where there is no member. -/
theorem absent {members : List (String × Json)} {name : String}
    (h : name ∉ members.map Prod.fst) (value : α) (decode : Decoder α) :
    (defaulted name value decode).Reads (member? (Draft.ofMembers members)) value := by
  simp [Reads, defaulted, field, member?_ofMembers_eq_none h]

end Reads

/-- The members of an object are in order if they belong to the record and have different names. -/
theorem checkMembers_ofMembers {names : List String} {members : List (String × Json)}
    {seen : List String} (hnames : ∀ member ∈ members, member.1 ∈ names)
    (hnodup : (members.map Prod.fst).Nodup) (hseen : ∀ member ∈ members, member.1 ∉ seen) :
    checkMembers names [] true seen (Draft.ofMembers members) = .ok () := by
  induction members generalizing seen with
  | nil => rfl
  | cons member more ih =>
      obtain ⟨key, value⟩ := member
      obtain ⟨hfresh, hmore⟩ := List.nodup_cons.mp hnodup
      have hkey : key ∈ names := hnames _ List.mem_cons_self
      have hunseen : key ∉ seen := hseen _ List.mem_cons_self
      have hrest : checkMembers names [] true (key :: seen) (Draft.ofMembers more) = .ok () := by
        refine ih (fun member hmember => hnames _ (List.mem_cons_of_mem _ hmember)) hmore ?_
        intro member hmember hseen'
        rcases List.mem_cons.mp hseen' with heq | hseen'
        · exact hfresh (List.mem_map.mpr ⟨member, hmember, heq⟩)
        · exact hseen _ (List.mem_cons_of_mem _ hmember) hseen'
      rw [Draft.ofMembers, checkMembers, if_pos hkey, if_neg hunseen]
      exact hrest

/-- **An object decodes** to the value that its members give, which may be looked up knowing that
their names differ. -/
theorem decoder_ofJson {record : Record α} {members : List (String × Json)} {value : α} {room : Nat}
    (type : String) (hroom : room ≠ 0) (hnames : ∀ key ∈ members.map Prod.fst, key ∈ record.names)
    (hnodup : (members.map Prod.fst).Nodup)
    (hreads : (members.map Prod.fst).Nodup →
      record.Reads (member? (Draft.ofMembers members)) value) :
    decoder type record room (.ofJson (.object members)) = .ok value := by
  have hcheck : checkMembers record.names [] true [] (Draft.ofMembers members) = .ok () :=
    checkMembers_ofMembers (fun _ hmember => hnames _ (List.mem_map_of_mem hmember)) hnodup
      fun _ _ => List.not_mem_nil
  rw [Draft.ofJson, decoder, if_neg hroom, hreads hnodup]
  change (checkMembers record.names [] true [] (Draft.ofMembers members) >>= fun _ => pure value) =
    Except.ok value
  rw [hcheck]
  rfl

/-- A record of two fields decodes if they do. -/
theorem decoder_pair {γ : Type} (type : String) (make : α → β → γ) {first second : String}
    (hne : first ≠ second) {room : Nat} (hroom : room ≠ 0) {decode : Decoder α}
    {decode' : Decoder β} {json json' : Json} {x : α} {y : β} (hx : decode (.ofJson json) = .ok x)
    (hy : decode' (.ofJson json') = .ok y) :
    decoder type (make <$> required first decode <*> required second decode') room
      (.ofJson (.object [(first, json), (second, json')])) = .ok (make x y) := by
  refine decoder_ofJson _ hroom (fun _ h => h) (by simpa using hne) fun hnodup => ?_
  refine (Reads.map _ ?_).seq ?_
  · exact .member hnodup json (by simp) hx
  · exact .member hnodup json' (by simp) hy

end Record

end ScimDirectory
