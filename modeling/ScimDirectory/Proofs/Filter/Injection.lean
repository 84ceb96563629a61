import ScimDirectory.Proofs.DirectoryFilter.Assertion
import ScimDirectory.Proofs.Filter.Agreement
import ScimDirectory.Proofs.Schema.Targets

/-!
# Literals cannot change the structure of a filter

The parentheses and stars of a directory filter, and a NUL that might end it early, are its
structure: they say what is combined with what, and which part of a value is left open. Under
escaping this structure comes from the source filter without its literals. Whoever chooses the
literals can therefore neither add, remove nor reorder any of it, nor make a filter fail that
compiles with other literals; and this holds whatever the names that the backend uses.

The statement compares two runs. It does not say which structure a filter has, only that the
literals have no part in it.

## Main results

* `skeleton_escape`: an escaped literal has no structure.
* `Target.leaf?_skeleton`: a leaf takes no structure from its value, be it embedded once, twice or
  inside the pattern for a fragment.
* `Registry.compile_agree_skeleton`: **filters that differ in their literals only compile to texts
  of one structure, or fail with one error**.
-/

namespace ScimDirectory

/-- The characters that make up the structure of a directory filter. -/
def isStructural (c : Char) : Bool :=
  c == '(' || c == ')' || c == '*' || c == '\x00'

/-- **The structure of a text**: its structural characters, in their order. -/
def skeleton (text : String) : List Char :=
  text.toList.filter isStructural

/-- The two texts have one structure. -/
def SameSkeleton (a b : String) : Prop :=
  skeleton a = skeleton b

@[simp] theorem skeleton_append (a b : String) : skeleton (a ++ b) = skeleton a ++ skeleton b := by
  rw [skeleton, String.toList_append, List.filter_append, skeleton, skeleton]

/-- **An escaped literal has no structure.** -/
theorem skeleton_escape (literal : String) : skeleton (escape literal) = [] := by
  rw [skeleton, toList_escape, List.filter_eq_nil_iff]
  intro c hc hstructural
  have hlisted : c ∈ ['*', '(', ')', '\x00'] := by
    simp only [isStructural, Bool.or_eq_true, beq_iff_eq] at hstructural
    rcases hstructural with ((rfl | rfl) | rfl) | rfl <;> decide
  exact not_mem_flatMap_escapeChar hlisted literal.toList hc

/-! ### Directory filters -/

namespace DirectoryFilter

/-- The texts of the two filters have one structure. -/
def SameSkeleton (d d' : DirectoryFilter) : Prop :=
  skeleton d.text = skeleton d'.text

/-- The structure of a filter comes from the structures of its operands. -/
theorem isCongruence_sameSkeleton : IsCongruence SameSkeleton where
  and := by
    intro a a' b b' (ha : skeleton a.text = skeleton a'.text)
      (hb : skeleton b.text = skeleton b'.text)
    simp only [SameSkeleton, text, skeleton_append, ha, hb]
  or := by
    intro a a' b b' (ha : skeleton a.text = skeleton a'.text)
      (hb : skeleton b.text = skeleton b'.text)
    simp only [SameSkeleton, text, skeleton_append, ha, hb]
  not := by
    intro a a' (ha : skeleton a.text = skeleton a'.text)
    simp only [SameSkeleton, text, skeleton_append, ha]

end DirectoryFilter

/-! ### Leaves -/

section Leaves

variable {v w : String} (h : SameSkeleton v w)
include h

/-- A comparison on a plain attribute takes its structure from the operator, the name and the
structure of the value. -/
theorem Operator.toFilter_skeleton (op : Operator) (name : String) :
    (op.toFilter name v).SameSkeleton (op.toFilter name w) := by
  have hvalue : skeleton v = skeleton w := h
  cases op <;>
    simp only [DirectoryFilter.SameSkeleton, toFilter, DirectoryFilter.text, skeleton_append,
      hvalue]

/-- So does a comparison on a key inside the text of a carrier. -/
theorem Fragment.wholeAssertion?_skeleton (key : String) (op : Operator) :
    Option.Rel SameSkeleton (wholeAssertion? key op v) (wholeAssertion? key op w) := by
  have hvalue : skeleton v = skeleton w := h
  cases op with
  | equal | contains | startsWith | endsWith =>
      refine .some ?_
      simp only [SameSkeleton, skeleton_append, hvalue]
  | notEqual | present | greater | greaterOrEqual | less | lessOrEqual => exact .none

/-- **A leaf takes no structure but that of its value.** -/
theorem Target.leaf?_skeleton (op : Operator) (target : Target) :
    Option.Rel DirectoryFilter.SameSkeleton (target.leaf? op v) (target.leaf? op w) := by
  cases target with
  | plain name complex space => exact .some (op.toFilter_skeleton h name)
  | fragment carrier key =>
      by_cases hop : op = .present
      · rw [leaf?, leaf?, if_pos hop, if_pos hop]
        exact .some rfl
      · rw [leaf?_fragment hop, leaf?_fragment hop]
        have hassertion := Fragment.wholeAssertion?_skeleton h key op
        generalize Fragment.wholeAssertion? key op v = a,
          Fragment.wholeAssertion? key op w = b at hassertion ⊢
        cases hassertion with
        | none => exact .none
        | @some a b hskeleton =>
            have hsame : skeleton a = skeleton b := hskeleton
            refine .some ?_
            simp only [DirectoryFilter.SameSkeleton, DirectoryFilter.text, skeleton_append, hsame]

/-- The value has no part in whether a leaf compiles, nor in the error if it does not. -/
theorem Resource.leafFilter_skeleton (resource : Resource) (op : Operator) (path : String) :
    Agree Eq DirectoryFilter.SameSkeleton (resource.leafFilter op path v)
      (resource.leafFilter op path w) := by
  refine (Agree.refl Eq.refl Eq.refl (resource.resolve path)).bind ?_
  rintro target _ rfl
  have hleaf := target.leaf?_skeleton h op
  generalize target.leaf? op v = a, target.leaf? op w = b at hleaf ⊢
  cases hleaf with
  | none => exact .error rfl
  | some hskeleton => exact .ok hskeleton

end Leaves

/-! ### Filters -/

/-- The literals of a filter have no part in the structure that it compiles to, nor in whether it
compiles. -/
theorem Filter.Related.agree_compile_skeleton {f g : Filter}
    (h : Related Eq (fun _ _ => True) f g) (resource : Resource) (scope : Option String) :
    Agree Eq DirectoryFilter.SameSkeleton (f.compile resource .rfc4515 scope)
      (g.compile resource .rfc4515 scope) := by
  have hescape : ∀ v w, SameSkeleton (Escaping.rfc4515.apply v) (Escaping.rfc4515.apply w) :=
    fun v w => (skeleton_escape v).trans (skeleton_escape w).symm
  exact h.agree_compile_of_eq (fun {v w} _ => hescape v w) (fun _ => rfl)
    (fun op path {_ _} hvalue => resource.leafFilter_skeleton hvalue op path)
    DirectoryFilter.isCongruence_sameSkeleton scope

namespace Registry

/-- **No injection**: two filters that differ in their literals only, compiled with the literals
escaped, fail with the same error, or compile to texts with the same structural characters in the
same order. -/
theorem compile_agree_skeleton {f g : Filter} (h : Filter.Related Eq (fun _ _ => True) f g)
    (registry : Registry) (name : String) :
    Agree Eq SameSkeleton (registry.compile ⟨.rfc4515⟩ f name)
      (registry.compile ⟨.rfc4515⟩ g name) := by
  refine (Agree.refl Eq.refl Eq.refl (registry.require name)).bind ?_
  rintro resource _ rfl
  exact (h.agree_compile_skeleton resource none).bind fun d d' hd => .ok hd

/-- A literal that tries to close its item and open another, beside a harmless one. -/
theorem compile_agree_skeleton_team :
    ∃ registry s t, build [Sample.team] = .ok registry ∧
      registry.compile ⟨.rfc4515⟩
        (.or (.compare "label" "gt" "a") (.grouping "members" (.compare "value" "eq" "b"))) "team" =
          .ok s ∧
      registry.compile ⟨.rfc4515⟩
        (.or (.compare "label" "gt" "*)(cn=") (.grouping "members" (.compare "value" "eq" "*")))
        "team" = .ok t ∧
      SameSkeleton s t := by
  have hsample : ∃ registry, build [Sample.team] = .ok registry ∧
      (registry.compile ⟨.rfc4515⟩ (.or (.compare "label" "gt" "a")
        (.grouping "members" (.compare "value" "eq" "b"))) "team").isOk = true := by
    apply exists_ok_of_decide
    decide +kernel
  obtain ⟨registry, hbuild, hok⟩ := hsample
  have hfilter : Filter.Related Eq (fun _ _ => True)
      (.or (.compare "label" "gt" "a") (.grouping "members" (.compare "value" "eq" "b")))
      (.or (.compare "label" "gt" "*)(cn=") (.grouping "members" (.compare "value" "eq" "*"))) :=
    .or (.compare rfl rfl trivial) (.grouping rfl (.compare rfl rfl trivial))
  obtain ⟨s, t, hs, ht, hskeleton⟩ :=
    (compile_agree_skeleton hfilter registry "team").exists_of_isOk hok
  exact ⟨registry, s, t, hbuild, hs, ht, hskeleton⟩

end Registry

end ScimDirectory
