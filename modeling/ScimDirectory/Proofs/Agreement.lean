/-!
# Runs that agree

Some properties of a computation cannot be seen in one run of it: that a part of the input does not
matter, or matters only up to its letter case, is said of two runs. Two runs agree when both fail,
with related errors, or both succeed, with related results; neither may succeed where the other
fails.

## Main results

* `Agree.bind`: runs that agree up to some point agree to the end, if what follows preserves it.
* `Agree.exists_of_isOk`: neither of two runs that agree succeeds alone.
-/

namespace ScimDirectory

/-- Two runs **agree**: both fail with related errors, or both succeed with related results. -/
inductive Agree {ε α β : Type} (Errors : ε → ε → Prop) (Results : α → β → Prop) :
    Except ε α → Except ε β → Prop
  | ok {a : α} {b : β} : Results a b → Agree Errors Results (.ok a) (.ok b)
  | error {e f : ε} : Errors e f → Agree Errors Results (.error e) (.error f)

variable {ε α β : Type} {Errors : ε → ε → Prop}

/-- **Two steps in sequence**: the second ones need to agree on related results only. -/
theorem Agree.bind {γ δ : Type} {Results : α → β → Prop} {Results' : γ → δ → Prop}
    {x : Except ε α} {y : Except ε β} {f : α → Except ε γ} {g : β → Except ε δ}
    (h : Agree Errors Results x y)
    (hnext : ∀ a b, Results a b → Agree Errors Results' (f a) (g b)) :
    Agree Errors Results' (x >>= f) (y >>= g) := by
  cases h with
  | ok hresults => exact hnext _ _ hresults
  | error herrors => exact .error herrors

/-- A run agrees with itself. -/
theorem Agree.refl {Results : α → α → Prop} (herrors : ∀ e, Errors e e)
    (hresults : ∀ a, Results a a) (x : Except ε α) : Agree Errors Results x x := by
  cases x with
  | ok a => exact .ok (hresults a)
  | error e => exact .error (herrors e)

/-- Two runs that agree with equal errors fail with the same ones. -/
theorem Agree.eq_error_iff {Results : α → β → Prop} {x : Except ε α} {y : Except ε β}
    (h : Agree Eq Results x y) {e : ε} : x = .error e ↔ y = .error e := by
  cases h with
  | ok hresults => exact iff_of_false (by rintro ⟨⟩) (by rintro ⟨⟩)
  | error herrors => rw [herrors, Except.error.injEq, Except.error.injEq]

/-- Where the first of two runs succeeds, so does the second, with a related result. -/
theorem Agree.exists_of_isOk {Results : α → β → Prop} {x : Except ε α} {y : Except ε β}
    (h : Agree Errors Results x y) (hok : x.isOk = true) :
    ∃ a b, x = .ok a ∧ y = .ok b ∧ Results a b := by
  cases h with
  | ok hresults => exact ⟨_, _, rfl, rfl, hresults⟩
  | error herrors => cases hok

end ScimDirectory
