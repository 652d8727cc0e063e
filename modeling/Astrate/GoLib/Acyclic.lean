import Mathlib.Logic.Relation

/-!
# Acyclic relations

A relation is acyclic if nothing reaches itself. `acyclic_redirect_iff` is for a relation that changes at
one point: what the point is now related to must not reach it.
-/

set_option autoImplicit false

namespace Astrate.GoLib

open Relation

/-- No chain comes back to where it begins. -/
def Acyclic {α : Type} (r : α → α → Prop) : Prop := ∀ a, ¬TransGen r a a

section Redirect

variable {α : Type} {r r' : α → α → Prop} {n : α}

/-- A path to a point does not use what the point is related to. -/
theorem reaches_of_agree_off (hoff : ∀ a b, a ≠ n → r a b → r' a b) {a : α} (h : ReflTransGen r a n) :
    ReflTransGen r' a n := by
  induction h using ReflTransGen.head_induction_on with
  | refl => exact .refl
  | @head a b hab _ ih =>
    by_cases ha : a = n
    · rw [ha]
    · exact .head (hoff a b ha hab) ih

/-- A path goes through the point, or is one of the other relation. -/
theorem path_cases (hoff : ∀ a b, a ≠ n → r' a b → r a b) {a b : α} (h : TransGen r' a b) :
    TransGen r a b ∨ ReflTransGen r' a n ∧ TransGen r' n b := by
  induction h with
  | @single b hab =>
    by_cases ha : a = n
    · subst ha
      exact Or.inr ⟨.refl, .single hab⟩
    · exact Or.inl (.single (hoff a b ha hab))
  | @tail b c hab hbc ih =>
    rcases ih with hold | ⟨hto, hfrom⟩
    · by_cases hb : b = n
      · subst hb
        exact Or.inr ⟨hab.to_reflTransGen, .single hbc⟩
      · exact Or.inl (hold.tail (hoff b c hb hbc))
    · exact Or.inr ⟨hto, hfrom.tail hbc⟩

/-- An acyclic relation that changes at one point stays acyclic exactly if the point is not reached from
what it is related to now. -/
theorem acyclic_redirect_iff (hoff : ∀ a b, a ≠ n → (r' a b ↔ r a b)) (hr : Acyclic r) :
    Acyclic r' ↔ ∀ b, r' n b → ¬ReflTransGen r b n := by
  constructor
  · intro hr' b hb hback
    have hcycle := reaches_of_agree_off (fun a b ha => (hoff a b ha).2) hback
    exact hr' n (TransGen.head' hb hcycle)
  · intro hnone a hcycle
    -- no path of the new relation comes back to the point
    have hpoint : ¬TransGen r' n n := by
      intro h
      obtain ⟨b, hb, hback⟩ := TransGen.head'_iff.1 h
      exact hnone b hb (reaches_of_agree_off (fun a b ha => (hoff a b ha).1) hback)
    rcases path_cases (fun a b ha => (hoff a b ha).1) hcycle with hold | ⟨hto, hfrom⟩
    · exact hr a hold
    · exact hpoint (hfrom.trans_left hto)

end Redirect

end Astrate.GoLib
