import Mathlib.Logic.Function.Basic

/-!
# Claims on a name

A name is taken by whoever finds it free, and freed by whoever knows it. The holders remember what
they took, and later free the name, not the thing: they are right exactly if what stands under the
name then is what they took. That is so as long as a name is not taken anew while somebody still has
a claim on it, even if the thing itself has been cleared away meanwhile.
-/

namespace Foundation

variable {κ α : Type*}

/-- What stands under the name is what each holder took. -/
def ClaimsAgree (slot : Option α) (claim : κ → Option α) : Prop :=
  ∀ k x, claim k = some x → ∀ y, slot = some y → y = x

namespace ClaimsAgree

variable {slot : Option α} {claim claim' : κ → Option α} {x : α}

theorem unclaimed (h : ∀ k, claim k = none) : ClaimsAgree slot claim := by
  intro k x hx
  rw [h k] at hx
  exact nomatch hx

/-- Claims are given up, or handed to another holder. -/
theorem mono (h : ClaimsAgree slot claim)
    (hfrom : ∀ k x, claim' k = some x → ∃ k', claim k' = some x) : ClaimsAgree slot claim' := by
  intro k x hx
  obtain ⟨k', hk'⟩ := hfrom k x hx
  exact h k' x hk'

/-- **Taking the name.** It is taken when nobody else has a claim on it. -/
theorem take {k : κ} (hself : claim k = some x) (hothers : ∀ k', k' ≠ k → claim k' = none) :
    ClaimsAgree (some x) claim := by
  intro k' x' hk' y hy
  have hkk : k' = k := by
    by_contra hne
    rw [hothers k' hne] at hk'
    exact nomatch hk'
  rw [hkk, hself] at hk'
  exact (Option.some.inj hy).symm.trans (Option.some.inj hk')

end ClaimsAgree

end Foundation
