import Mathlib.Data.List.Basic

/-!
# Schedules of atomic steps

Concurrent code is a set of actors that take turns: `step s a` is what the atomic action `a` does in the
state `s`, if it is possible there. A schedule is the list of the actions in the order they happen, and
`exec` runs it. `Throughout` says that a condition on the state and the action holds at every point of
a schedule.

`exec_invariant` carries an invariant through the schedules that meet a condition; `exec_good_iff` is
for properties that a step can spoil: what holds at the end held at the start, and no step spoiled it.
`Always` is about every state on the way, and `always_iff_throughout` about the steps that keep to it.
`exec_history` is for invariants that refer back to a step the schedule has taken (`Takes`).

`Versions` is a store that others change while a schedule runs. Its versions are numbered, so that reads
can be compared by how recent they are.
-/

set_option autoImplicit false

namespace Astrate.GoLib

section

variable {σ ι : Type} (step : σ → ι → Option σ)

/-- Run a schedule. -/
def exec : σ → List ι → Option σ
  | s, [] => some s
  | s, a :: as =>
    match step s a with
    | none => none
    | some s' => exec s' as

/-- The condition holds whenever an action is taken. -/
def Throughout (ok : σ → ι → Prop) : σ → List ι → Prop
  | _, [] => True
  | s, a :: as =>
    ok s a ∧
      match step s a with
      | none => True
      | some s' => Throughout ok s' as

instance decidableThroughout (ok : σ → ι → Prop) [∀ s a, Decidable (ok s a)] :
    ∀ s as, Decidable (Throughout step ok s as)
  | _, [] => inferInstanceAs (Decidable True)
  | s, a :: as =>
    match h : step s a with
    | none => decidable_of_iff (ok s a) (by simp [Throughout, h])
    | some s' =>
      have := decidableThroughout ok s' as
      decidable_of_iff (ok s a ∧ Throughout step ok s' as) (by simp [Throughout, h])

/-- The property holds in every state of the run. -/
def Always (G : σ → Prop) : σ → List ι → Prop
  | s, [] => G s
  | s, a :: as =>
    G s ∧
      match step s a with
      | none => True
      | some s' => Always G s' as

instance decidableAlways (G : σ → Prop) [∀ s, Decidable (G s)] : ∀ s as, Decidable (Always step G s as)
  | s, [] => inferInstanceAs (Decidable (G s))
  | s, a :: as =>
    match h : step s a with
    | none => decidable_of_iff (G s) (by simp [Always, h])
    | some s' =>
      have := decidableAlways G s' as
      decidable_of_iff (G s ∧ Always step G s' as) (by simp [Always, h])

/-- The schedule takes the step `a` in the state `s₁`. -/
def Takes (s : σ) (as : List ι) (a : ι) (s₁ : σ) : Prop :=
  ∃ before after, as = before ++ a :: after ∧ exec step s before = some s₁

variable {step} {ok : σ → ι → Prop} {s s' : σ} {a : ι} {as : List ι}

theorem exec_cons_eq_some :
    exec step s (a :: as) = some s' ↔ ∃ s₁, step s a = some s₁ ∧ exec step s₁ as = some s' := by
  rw [exec]
  cases step s a with
  | none => simp
  | some s₁ => simp

theorem exec_append (s : σ) (as bs : List ι) :
    exec step s (as ++ bs) = (exec step s as).bind fun s' => exec step s' bs := by
  induction as generalizing s with
  | nil => rfl
  | cons a as ih =>
    rw [List.cons_append, exec, exec]
    cases step s a with
    | none => rfl
    | some s₁ => exact ih s₁

variable {s₁ : σ} {I G : σ → Prop}

/-- One schedule after another. -/
theorem exec_trans {bs : List ι} (h : exec step s as = some s₁) (h' : exec step s₁ bs = some s') :
    exec step s (as ++ bs) = some s' := by
  rw [exec_append, h, Option.bind_some, h']

theorem Takes.append (h : Takes step s as a s₁) (bs : List ι) : Takes step s (as ++ bs) a s₁ := by
  obtain ⟨before, after, rfl, hbefore⟩ := h
  exact ⟨before, after ++ bs, by simp, hbefore⟩

theorem takes_last (h : exec step s as = some s') : Takes step s (as ++ [a]) a s' :=
  ⟨as, [], rfl, h⟩

/-- An invariant that speaks of the steps so far as well. -/
theorem exec_history {I : List ι → σ → Prop}
    (hstep : ∀ as s₁ a s', exec step s as = some s₁ → I as s₁ → step s₁ a = some s' → I (as ++ [a]) s')
    (hinit : I [] s) (h : exec step s as = some s') : I as s' := by
  -- the induction is on what remains of the schedule, with what has been done as a parameter
  have hrest : ∀ as done s₁, exec step s done = some s₁ → I done s₁ → exec step s₁ as = some s' →
      I (done ++ as) s' := by
    intro as
    induction as with
    | nil =>
      intro done s₁ _ hI h
      cases h
      rwa [List.append_nil]
    | cons a as ih =>
      intro done s₁ hdone hI h
      obtain ⟨s₂, hs₂, h⟩ := exec_cons_eq_some.1 h
      have hdone₂ : exec step s (done ++ [a]) = some s₂ :=
        exec_trans hdone (exec_cons_eq_some.2 ⟨s₂, hs₂, rfl⟩)
      have := ih (done ++ [a]) s₂ hdone₂ (hstep done s₁ a s₂ hdone hI hs₂) h
      rwa [List.append_assoc] at this
  exact hrest as [] s rfl hinit h

theorem throughout_cons (h : step s a = some s₁) :
    Throughout step ok s (a :: as) ↔ ok s a ∧ Throughout step ok s₁ as := by
  rw [Throughout, h]

/-- A condition on the steps themselves. -/
theorem throughout_of_mem (hok : ∀ s, ∀ a ∈ as, ok s a) (s : σ) : Throughout step ok s as := by
  induction as generalizing s with
  | nil => trivial
  | cons a as ih =>
    refine ⟨hok s a List.mem_cons_self, ?_⟩
    cases step s a with
    | none => trivial
    | some s₁ => exact ih (fun s a ha => hok s a (List.mem_cons_of_mem _ ha)) s₁

theorem throughout_of_forall (hok : ∀ s a, ok s a) (s : σ) (as : List ι) : Throughout step ok s as :=
  throughout_of_mem (fun s a _ => hok s a) s

/-- What every allowed step preserves holds after every schedule of allowed steps. -/
theorem exec_invariant (hstep : ∀ s a s', I s → ok s a → step s a = some s' → I s') (hinit : I s)
    (hok : Throughout step ok s as) (h : exec step s as = some s') : I s' := by
  induction as generalizing s with
  | nil =>
    cases h
    exact hinit
  | cons a as ih =>
    obtain ⟨s₁, hs₁, h⟩ := exec_cons_eq_some.1 h
    obtain ⟨hoka, hok⟩ := (throughout_cons hs₁).1 hok
    exact ih (hstep s a s₁ hinit hoka hs₁) hok h

/-- What every step preserves holds after every schedule. -/
theorem exec_preserves (hstep : ∀ s a s', I s → step s a = some s' → I s') (hinit : I s)
    (h : exec step s as = some s') : I s' :=
  exec_invariant (fun s a s' hs (_ : True) h => hstep s a s' hs h) hinit
    (throughout_of_forall (fun _ _ => trivial) s as) h

/-- A property that a step spoils exactly when its condition fails. -/
theorem exec_good_iff (hstep : ∀ s a s', I s → step s a = some s' → I s')
    (hgood : ∀ s a s', I s → step s a = some s' → (G s' ↔ G s ∧ ok s a)) (hinit : I s)
    (h : exec step s as = some s') : G s' ↔ G s ∧ Throughout step ok s as := by
  induction as generalizing s with
  | nil =>
    cases h
    exact (and_iff_left trivial).symm
  | cons a as ih =>
    obtain ⟨s₁, hs₁, h⟩ := exec_cons_eq_some.1 h
    rw [ih (hstep s a s₁ hinit hs₁) h, hgood s a s₁ hinit hs₁, throughout_cons hs₁, and_assoc]

theorem Always.head (h : Always step G s as) : G s := by
  cases as with
  | nil => exact h
  | cons a as => exact h.1

theorem Always.last (h : Always step G s as) (hrun : exec step s as = some s') : G s' := by
  induction as generalizing s with
  | nil =>
    cases hrun
    exact h
  | cons a as ih =>
    obtain ⟨s₁, hs₁, hrun⟩ := exec_cons_eq_some.1 hrun
    rw [Always, hs₁] at h
    exact ih h.2 hrun

/-- An invariant of the steps between states that have the property `E`. -/
theorem Always.invariant {E : σ → Prop}
    (hstep : ∀ s a s', E s → E s' → I s → step s a = some s' → I s') (hI : I s)
    (h : Always step E s as) : Always step I s as := by
  induction as generalizing s with
  | nil => exact hI
  | cons a as ih =>
    rw [Always] at h ⊢
    refine ⟨hI, ?_⟩
    cases hs : step s a with
    | none => trivial
    | some s₁ =>
      rw [hs] at h
      exact ih (hstep s a s₁ h.1 h.2.head hI hs) h.2

theorem Always.mono {G' : σ → Prop} (hG : ∀ s, G s → G' s) (h : Always step G s as) :
    Always step G' s as := by
  induction as generalizing s with
  | nil => exact hG s h
  | cons a as ih =>
    rw [Always] at h ⊢
    refine ⟨hG s h.1, ?_⟩
    cases hs : step s a with
    | none => trivial
    | some s₁ =>
      rw [hs] at h
      exact ih h.2

/-- A property that a step keeps exactly when its condition holds. -/
theorem always_iff_throughout (hinv : ∀ s, ∀ a ∈ as, ∀ s', I s → step s a = some s' → I s')
    (hstep : ∀ s, ∀ a ∈ as, ∀ s', I s → G s → step s a = some s' → (G s' ↔ ok s a)) (hI : I s)
    (hG : G s) (h : exec step s as = some s') : Always step G s as ↔ Throughout step ok s as := by
  induction as generalizing s with
  | nil => exact iff_of_true hG trivial
  | cons a as ih =>
    obtain ⟨s₁, hs₁, h⟩ := exec_cons_eq_some.1 h
    have hkeeps := hstep s a List.mem_cons_self s₁ hI hG hs₁
    have hI₁ := hinv s a List.mem_cons_self s₁ hI hs₁
    have hrest := ih (fun s b hb => hinv s b (List.mem_cons_of_mem a hb))
      (fun s b hb => hstep s b (List.mem_cons_of_mem a hb)) hI₁
    rw [throughout_cons hs₁, Always, hs₁]
    constructor
    · rintro ⟨-, halways⟩
      exact ⟨hkeeps.1 halways.head, (hrest halways.head h).1 halways⟩
    · rintro ⟨hok, hthroughout⟩
      exact ⟨hG, (hrest (hkeeps.2 hok) h).2 hthroughout⟩

end

/-! ## Stores that change -/

/-- The contents of a store, up to the current one. -/
structure Versions (κ : Type) where
  past : List κ
  current : κ

namespace Versions

variable {κ : Type} (st : Versions κ)

/-- The number of the current version. -/
def number : Nat := st.past.length

/-- The content at a version. -/
def at? (v : Nat) : Option κ := (st.past ++ [st.current])[v]?

/-- The content changes. -/
def commit (content : κ) : Versions κ := ⟨st.past ++ [st.current], content⟩

variable {st}

theorem at?_number (st : Versions κ) : st.at? st.number = some st.current := by
  simp [at?, number]

theorem number_commit (st : Versions κ) (content : κ) : (st.commit content).number = st.number + 1 := by
  simp [number, commit]

theorem le_number_of_at? {v : Nat} {old : κ} (h : st.at? v = some old) : v ≤ st.number := by
  obtain ⟨hlt, -⟩ := List.getElem?_eq_some_iff.1 h
  rw [List.length_append, List.length_singleton] at hlt
  exact Nat.le_of_lt_succ hlt

/-- The past stays. -/
theorem at?_commit {v : Nat} {old : κ} (h : st.at? v = some old) (content : κ) :
    (st.commit content).at? v = some old := by
  obtain ⟨hlt, -⟩ := List.getElem?_eq_some_iff.1 h
  unfold at? at h ⊢
  rw [commit, List.getElem?_append_left hlt]
  exact h

end Versions

end Astrate.GoLib
