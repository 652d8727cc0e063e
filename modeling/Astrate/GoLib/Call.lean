import Astrate.GoLib.Bytes

/-!
# Fallible calls

Straight-line code that talks to its environment and gives up at the first error: a call changes a state
and returns a value or an error. `Call.bind_eq_ok_iff` takes a successful run apart, `Call.Keeps` says
that a call leaves a part of the state alone.
-/

set_option autoImplicit false

namespace Astrate.GoLib

/-- A call that may fail, and changes the state. -/
def Call (ε σ α : Type) : Type := σ → Except ε α × σ

namespace Call

variable {ε σ α β γ : Type}

/-- Run a call, then a second one on its value; an error ends the run. -/
def seq (m : Call ε σ α) (f : α → Call ε σ β) : Call ε σ β := fun s =>
  match m s with
  | (.error e, s') => (.error e, s')
  | (.ok a, s') => f a s'

instance : Monad (Call ε σ) where
  pure a := fun s => (.ok a, s)
  bind := seq

/-- A result that needs nothing of the state. -/
def lift (x : Except ε α) : Call ε σ α := fun s => (x, s)

/-- Read the state. -/
def read (f : σ → α) : Call ε σ α := fun s => (.ok (f s), s)

/-! ## Successful runs -/

variable {m : Call ε σ α} {f : α → Call ε σ β}

variable {a : α} {s s' : σ}

theorem bind_apply_ok (h : m s = (.ok a, s')) : (m >>= f) s = f a s' := by
  change seq m f s = _
  rw [seq, h]

theorem bind_apply_error {e : ε} (h : m s = (.error e, s')) : (m >>= f) s = (.error e, s') := by
  change seq m f s = _
  rw [seq, h]

theorem bind_eq_ok_iff {b : β} :
    (m >>= f) s = (.ok b, s') ↔ ∃ a s₁, m s = (.ok a, s₁) ∧ f a s₁ = (.ok b, s') := by
  cases h : m s with
  | mk r s₁ =>
    cases r with
    | error e =>
      rw [bind_apply_error h]
      simp
    | ok a =>
      rw [bind_apply_ok h]
      simp

theorem lift_eq_ok_iff {x : Except ε α} :
    (lift x : Call ε σ α) s = (.ok a, s') ↔ x = .ok a ∧ s = s' := by
  simp [lift]

theorem read_eq_ok_iff {f : σ → α} :
    (read f : Call ε σ α) s = (.ok a, s') ↔ f s = a ∧ s = s' := by
  simp [read]

/-! ## Frames -/

/-- The call does not touch this part of the state. -/
def Keeps (m : Call ε σ α) (π : σ → γ) : Prop := ∀ s, π (m s).2 = π s

variable {π : σ → γ}

theorem keeps_pure (a : α) : Keeps (pure a : Call ε σ α) π := fun _ => rfl

theorem keeps_lift (x : Except ε α) : Keeps (lift x : Call ε σ α) π := fun _ => rfl

theorem keeps_read (f : σ → α) : Keeps (read f : Call ε σ α) π := fun _ => rfl

theorem Keeps.bind (hm : Keeps m π) (hf : ∀ a, Keeps (f a) π) : Keeps (m >>= f) π := by
  intro s
  cases h : m s with
  | mk r s' =>
    have hs' : π s' = π s := by
      have := hm s
      rwa [h] at this
    cases r with
    | error e => rw [bind_apply_error h, hs']
    | ok a => rw [bind_apply_ok h, hf a s', hs']

theorem Keeps.of_eq (hm : Keeps m π) {r : Except ε α} (h : m s = (r, s')) : π s' = π s := by
  have := hm s
  rwa [h] at this

theorem eq_of_isOk {r : Except ε Unit × σ} (h : r.1.isOk = true) : r = (.ok (), r.2) := by
  obtain ⟨r, s⟩ := r
  cases r with
  | error e => cases h
  | ok u => rfl

end Call

end Astrate.GoLib
