import ScimDirectory.Proofs.Filter.ReadBack
import ScimDirectory.Proofs.Json.FlatObject

/-!
# Fragments that are flat objects

A carrier stores each value of a complex attribute as the text of a flat object, and a comparison on
a part of it is a substring match on that text. Such a match cannot see where members begin and end.
For equality and presence it need not: the quoted key with its colon occurs only at a member of
that key, whatever the other members hold.

## Main results

* `matches_keyed_value_iff`, `matches_keyed_quote_iff`: the two assertions match exactly the objects
  with such a member.
* `Registry.compile_fragment_exact`: **equality and presence on a key are exact on flat objects**.
-/

namespace ScimDirectory

/-- A word is a clean name. -/
theorem IsWord.isCleanName {name : String} (h : IsWord name) : IsCleanName name := by
  have hmeta : ['(', ')', '*', '\\', '=', '<', '>', '&', '|', '!'].all (!isWordChar ·) = true := by
    decide
  intro c hc hmem
  have hc' := List.all_eq_true.mp hmeta c hmem
  rw [h.2 c hc] at hc'
  cases hc'

/-- Equality on a key matches exactly the objects in which a member of that key has the literal as
its value. -/
theorem matches_keyed_value_iff {key literal : String} (hkey : IsWord key)
    (hliteral : IsVerbatim literal) {members : List (String × Json)} (hflat : Json.IsFlat members) :
    Assertion.Matches
        (Assertion.pieces ("*\"" ++ key ++ "\":\"" ++ escape literal ++ "\"*").toList)
        (Json.object members).text.toList ↔
      (key, .string literal) ∈ members := by
  rw [pieces_keyed_value hkey.isCleanName, Assertion.matches_infix_iff, Json.text,
    String.toList_ofList, ← Json.value_infix_iff hkey hliteral hflat]
  simp [Json.atKey]

/-- Presence of a key matches exactly the objects in which a member of that key has some string as
its value. -/
theorem matches_keyed_quote_iff {key : String} (hkey : IsWord key)
    {members : List (String × Json)} (hflat : Json.IsFlat members) :
    Assertion.Matches (Assertion.pieces ("*\"" ++ key ++ "\":\"*").toList)
        (Json.object members).text.toList ↔
      ∃ s, (key, .string s) ∈ members := by
  rw [pieces_keyed_quote hkey.isCleanName, Assertion.matches_infix_iff, Json.text,
    String.toList_ofList, ← Json.text_infix_iff hkey hflat]
  simp [Json.atKey]

namespace Registry

/-- **Equality and presence on a key are exact on flat objects.** Where a path leads to a key that
is a word, equality with a literal of verbatim characters compiles to one assertion, which matches
the text of a flat object exactly when a member of that key has the literal as its value; and
presence compiles to two items, the second of which matches exactly when a member of that key has
some string as its value. -/
theorem compile_fragment_exact {registry : Registry} {name path carrier key : String}
    {resource : Resource} (hresource : registry.resource? name = some resource)
    (hresolve : resource.resolve path = .ok (.fragment carrier key)) (hkey : IsWord key) :
    (∀ token literal, Operator.ofToken? token = some .equal → IsVerbatim literal →
      ∃ assertion, registry.compile ⟨.rfc4515⟩ (.compare path token literal) name =
          .ok (carrier ++ "=" ++ assertion) ∧
        ∀ members, Json.IsFlat members →
          (Assertion.Matches (Assertion.pieces assertion.toList)
              (Json.object members).text.toList ↔
            (key, .string literal) ∈ members)) ∧
    ∃ assertion, registry.compile ⟨.rfc4515⟩ (.present path) name =
        .ok ("&(" ++ carrier ++ "=*)(" ++ carrier ++ "=" ++ assertion ++ ")") ∧
      ∀ members, Json.IsFlat members →
        (Assertion.Matches (Assertion.pieces assertion.toList) (Json.object members).text.toList ↔
          ∃ s, (key, .string s) ∈ members) := by
  have htarget : registry.resolve path name = .ok (.fragment carrier key) :=
    resolve_eq_ok_iff.mpr ⟨resource, hresource, hresolve⟩
  constructor
  · intro token literal htoken hliteral
    exact ⟨_, compile_equal_fragment htarget htoken ⟨.rfc4515⟩ literal,
      fun members hflat => matches_keyed_value_iff hkey hliteral hflat⟩
  · exact ⟨_, compile_present_fragment htarget ⟨.rfc4515⟩,
      fun members hflat => matches_keyed_quote_iff hkey hflat⟩

/-- The part `value` of the members of a team, compared with a literal that holds a star. -/
theorem compile_fragment_exact_team :
    ∃ registry assertion, build [Sample.team] = .ok registry ∧
      registry.compile ⟨.rfc4515⟩ (.compare "members.value" "eq" "a*,") "team" =
        .ok ("member" ++ "=" ++ assertion) ∧
      ∀ members, Json.IsFlat members →
        (Assertion.Matches (Assertion.pieces assertion.toList) (Json.object members).text.toList ↔
          ("value", .string "a*,") ∈ members) := by
  have hsample : ∃ registry, build [Sample.team] = .ok registry ∧
      ((registry.resource? "team").map fun resource => resource.resolve "members.value") =
        some (.ok (.fragment "member" "value")) := by
    apply exists_ok_of_decide
    decide +kernel
  obtain ⟨registry, hbuild, hsome⟩ := hsample
  obtain ⟨resource, hresource, hresolve⟩ := Option.map_eq_some_iff.mp hsome
  obtain ⟨assertion, hcompile, hmatches⟩ :=
    (compile_fragment_exact hresource hresolve (by decide)).1 "eq" "a*,"
      (Operator.ofToken?_token .equal) (by decide)
  exact ⟨registry, assertion, hbuild, hcompile, hmatches⟩

end Registry

end ScimDirectory
