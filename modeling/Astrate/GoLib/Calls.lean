import Astrate.GoLib.Map
import Astrate.GoLib.Schedule

/-!
# Calls that take turns

Several calls work on what they share. Each is at a point, and goes on from it in one atomic step; between the
steps of one call those of others happen, and what others do to the shared state (`env`).

A call that checks something and writes later relies at its points in between on what it has checked. `Rely`
asks that a step keeps what the other calls rely on, for points that are `Apart`; `Rely.exec` concludes that the
invariant holds after every schedule on which the calls are apart all the time.
-/

set_option autoImplicit false

namespace Astrate.GoLib

/-- What the calls share, and the point of each. -/
structure Calls (σ π : Type) where
  shared : σ
  points : List π
  deriving DecidableEq

/-- A step of a call or of the environment. -/
inductive CallsAction (α ε : Type) where
  /-- A call goes on, with an answer of the environment. -/
  | run (c : Nat) (answer : α)
  | env (e : ε)
  deriving DecidableEq

namespace Calls

variable {σ π α ε : Type} (advance : α → π → σ → Option (σ × π)) (env : ε → σ → Option σ)

/-- One step, if possible. -/
def step (s : Calls σ π) : CallsAction α ε → Option (Calls σ π)
  | .run c answer =>
    match s.points[c]? with
    | none => none
    | some p => (advance answer p s.shared).map fun r => ⟨r.1, s.points.set c r.2⟩
  | .env e => (env e s.shared).map fun t => { s with shared := t }

/-- An invariant of the shared state, and what a call at a point relies on. -/
structure Rely (J : σ → Prop) (R : π → σ → Prop) (Apart : π → π → Prop) : Prop where
  own : ∀ {a p s r}, advance a p s = some r → J s → R p s → J r.1 ∧ R r.2 r.1
  others : ∀ {a p s r q}, advance a p s = some r → J s → R p s → Apart p q → R q s → R q r.1
  env : ∀ {e s s'}, env e s = some s' → J s → J s' ∧ ∀ p, R p s → R p s'

/-- The invariant holds, and every call has what it relies on. -/
def Kept (J : σ → Prop) (R : π → σ → Prop) (s : Calls σ π) : Prop :=
  J s.shared ∧ ∀ (c : Nat) (p : π), s.points[c]? = some p → R p s.shared

/-- No two calls are at points that disturb each other. -/
def Separate (Apart : π → π → Prop) (s : Calls σ π) : Prop := s.points.Pairwise Apart

instance decidableSeparate (Apart : π → π → Prop) [DecidableRel Apart] (s : Calls σ π) :
    Decidable (s.Separate Apart) :=
  inferInstanceAs (Decidable (s.points.Pairwise Apart))

variable {advance env} {J : σ → Prop} {R : π → σ → Prop} {Apart : π → π → Prop} {s s' : Calls σ π}

theorem Separate.apart (hsymm : ∀ p q, Apart p q → Apart q p) (h : s.Separate Apart) {i j : Nat} {p q : π}
    (hi : s.points[i]? = some p) (hj : s.points[j]? = some q) (hij : i ≠ j) : Apart p q := by
  obtain ⟨hi', rfl⟩ := List.getElem?_eq_some_iff.1 hi
  obtain ⟨hj', rfl⟩ := List.getElem?_eq_some_iff.1 hj
  have hpairs := List.pairwise_iff_getElem.1 h
  rcases Nat.lt_or_gt_of_ne hij with hlt | hgt
  · exact hpairs i j hi' hj' hlt
  · exact hsymm _ _ (hpairs j i hj' hi' hgt)

theorem Rely.step (hrely : Rely advance env J R Apart) (hsymm : ∀ p q, Apart p q → Apart q p)
    {a : CallsAction α ε} (hseparate : s.Separate Apart) (h : s.Kept J R)
    (hstep : s.step advance env a = some s') : s'.Kept J R := by
  cases a with
  | run c answer =>
    cases hp : s.points[c]? with
    | none => simp [Calls.step, hp] at hstep
    | some p =>
      simp only [Calls.step, hp, Option.map_eq_some_iff] at hstep
      obtain ⟨⟨t, p'⟩, hadvance, rfl⟩ := hstep
      obtain ⟨hJ, hR⟩ := hrely.own hadvance h.1 (h.2 c p hp)
      refine ⟨hJ, fun j q hq => ?_⟩
      by_cases hj : c = j
      · subst hj
        cases (List.getElem?_set_self (List.getElem?_eq_some_iff.1 hp).1).symm.trans hq
        exact hR
      · rw [List.getElem?_set_ne hj] at hq
        exact hrely.others hadvance h.1 (h.2 c p hp) (hseparate.apart hsymm hp hq hj) (h.2 j q hq)
  | env e =>
    obtain ⟨t, ht, rfl⟩ := Option.map_eq_some_iff.1 hstep
    obtain ⟨hJ, hR⟩ := hrely.env ht h.1
    exact ⟨hJ, fun c p hp => hR p (h.2 c p hp)⟩

/-- What the calls rely on is there after every schedule on which they are apart. -/
theorem Rely.exec (hrely : Rely advance env J R Apart) (hsymm : ∀ p q, Apart p q → Apart q p)
    {schedule : List (CallsAction α ε)} (h : s.Kept J R)
    (hseparate : Always (Calls.step advance env) (Separate Apart) s schedule)
    (hrun : exec (Calls.step advance env) s schedule = some s') : s'.Kept J R :=
  (hseparate.invariant (fun _ _ _ hs _ hkept hstep => hrely.step hsymm hs hkept hstep) h).last hrun

end Calls

end Astrate.GoLib
