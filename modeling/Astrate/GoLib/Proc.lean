import Mathlib.Data.List.Basic

/-!
# Procedures with a log

Sequential code that talks to its environment: a procedure changes a state, logs events and returns a
value, or stays blocked at a point where the environment has not answered yet. The log of a blocked run
is the log of the run so far, so what is proved of every log holds at every moment a run may be looked
at.

`Proc.Keeps` says that a procedure leaves a part of the state alone. `Proc.Triple` is a Hoare triple whose
assertions also speak about the log, with an assertion for blocked runs. `EachAfter` relates the events of
a log to their past.
-/

set_option autoImplicit false

namespace Astrate.GoLib

/-- What a run has logged, the state it left, and the value it returned unless it is blocked. -/
structure Outcome (ε σ α : Type) where
  events : List ε
  state : σ
  value : Option α

/-- The outcome when other events were logged before. -/
def Outcome.after {ε σ α : Type} (es : List ε) (o : Outcome ε σ α) : Outcome ε σ α :=
  ⟨es ++ o.events, o.state, o.value⟩

/-- A procedure; it may not return. -/
def Proc (ε σ α : Type) : Type := σ → Outcome ε σ α

namespace Proc

variable {ε σ α β : Type}

/-- Run one procedure, then a second one on its value; a blocked run stays blocked. -/
def seq (m : Proc ε σ α) (f : α → Proc ε σ β) : Proc ε σ β := fun s =>
  match m s with
  | ⟨es, s', none⟩ => ⟨es, s', none⟩
  | ⟨es, s', some a⟩ => (f a s').after es

instance : Monad (Proc ε σ) where
  pure a := fun s => ⟨[], s, some a⟩
  bind := seq

/-- Log an event. -/
def emit (e : ε) : Proc ε σ Unit := fun s => ⟨[e], s, some ()⟩

/-- The current state. -/
def get : Proc ε σ σ := fun s => ⟨[], s, some s⟩

/-- Change the state. -/
def modify (f : σ → σ) : Proc ε σ Unit := fun s => ⟨[], f s, some ()⟩

/-- Change the state and return a value. -/
def modifyGet (f : σ → α × σ) : Proc ε σ α := fun s => ⟨[], (f s).2, some (f s).1⟩

/-- Wait for an answer that does not come. -/
def blocked : Proc ε σ α := fun s => ⟨[], s, none⟩

/-- Run a procedure on every element of a list in order. -/
def forEach (body : α → Proc ε σ Unit) : List α → Proc ε σ Unit
  | [] => pure ()
  | a :: as => do
      body a
      forEach body as

/-! ## Running -/

@[simp] theorem pure_apply (a : α) (s : σ) : (pure a : Proc ε σ α) s = ⟨[], s, some a⟩ := rfl

@[simp] theorem emit_apply (e : ε) (s : σ) : emit e s = ⟨[e], s, some ()⟩ := rfl

@[simp] theorem get_apply (s : σ) : (get : Proc ε σ σ) s = ⟨[], s, some s⟩ := rfl

@[simp] theorem modify_apply (f : σ → σ) (s : σ) :
    (modify f : Proc ε σ Unit) s = ⟨[], f s, some ()⟩ := rfl

@[simp] theorem modifyGet_apply (f : σ → α × σ) (s : σ) :
    (modifyGet f : Proc ε σ α) s = ⟨[], (f s).2, some (f s).1⟩ := rfl

@[simp] theorem blocked_apply (s : σ) : (blocked : Proc ε σ α) s = ⟨[], s, none⟩ := rfl

variable {m : Proc ε σ α} {f : α → Proc ε σ β}

theorem bind_apply_some {s s' : σ} {es : List ε} {a : α}
    (h : m s = ⟨es, s', some a⟩) : (m >>= f) s = (f a s').after es := by
  change seq m f s = _
  simp only [seq, h]

theorem bind_apply_none {s s' : σ} {es : List ε} (h : m s = ⟨es, s', none⟩) : (m >>= f) s = ⟨es, s', none⟩ := by
  change seq m f s = _
  simp only [seq, h]

@[simp] theorem after_nil (o : Outcome ε σ α) : o.after [] = o := rfl

@[simp] theorem after_events (es : List ε) (o : Outcome ε σ α) :
    (o.after es).events = es ++ o.events := rfl

@[simp] theorem after_state (es : List ε) (o : Outcome ε σ α) : (o.after es).state = o.state := rfl

@[simp] theorem after_value (es : List ε) (o : Outcome ε σ α) : (o.after es).value = o.value := rfl

theorem forEach_emit_apply (f : α → ε) (as : List α) (s : σ) :
    forEach (fun a => emit (f a)) as s = ⟨as.map f, s, some ()⟩ := by
  induction as with
  | nil => rfl
  | cons a as ih =>
    rw [forEach, bind_apply_some (emit_apply (f a) s), ih]
    rfl

/-! ## Frames -/

/-- The part `π` of the state is never changed. -/
def Keeps {γ : Type} (m : Proc ε σ α) (π : σ → γ) : Prop := ∀ s, π (m s).state = π s

section Keeps

variable {γ : Type} {π : σ → γ}

theorem keeps_pure (a : α) : (pure a : Proc ε σ α).Keeps π := fun _ => rfl

theorem Keeps.bind (hm : m.Keeps π) (hf : ∀ a, (f a).Keeps π) : (m >>= f).Keeps π := by
  intro s
  have h := hm s
  rcases hms : m s with ⟨es, s', _ | a⟩
  · rw [bind_apply_none hms]
    rwa [hms] at h
  · rw [bind_apply_some hms, after_state, hf a s']
    rwa [hms] at h

end Keeps

/-! ## Triples -/

/-- From a log and a state that satisfy `P`, a run that returns establishes `Q` and a blocked one
`B`. -/
def Triple (B : List ε → σ → Prop) (P : List ε → σ → Prop) (m : Proc ε σ α)
    (Q : α → List ε → σ → Prop) : Prop :=
  ∀ log s, P log s →
    match m s with
    | ⟨es, s', none⟩ => B (log ++ es) s'
    | ⟨es, s', some a⟩ => Q a (log ++ es) s'

section Triple

variable {B P : List ε → σ → Prop}

variable {Q : α → List ε → σ → Prop}

theorem triple_pure {a : α} (h : ∀ log s, P log s → Q a log s) : Triple B P (pure a) Q := by
  intro log s hP
  simpa using h log s hP

theorem triple_emit {e : ε} {Q : Unit → List ε → σ → Prop}
    (h : ∀ log s, P log s → Q () (log ++ [e]) s) : Triple B P (emit e) Q :=
  fun log s hP => h log s hP

theorem triple_modify {f : σ → σ} {Q : Unit → List ε → σ → Prop}
    (h : ∀ log s, P log s → Q () log (f s)) : Triple B P (modify f) Q := by
  intro log s hP
  simpa using h log s hP

theorem triple_modifyGet {f : σ → α × σ}
    (h : ∀ log s, P log s → Q (f s).1 log (f s).2) : Triple B P (modifyGet f) Q := by
  intro log s hP
  simpa using h log s hP

/-- The state read is the current one. -/
theorem triple_get_bind {f : σ → Proc ε σ β} {Q : β → List ε → σ → Prop}
    (h : ∀ s₀, Triple B (fun log s => P log s ∧ s = s₀) (f s₀) Q) : Triple B P (get >>= f) Q := by
  intro log s hP
  have hget : (get >>= f) s = f s s := bind_apply_some (get_apply s)
  exact h s log s ⟨hP, rfl⟩

theorem Triple.bind {R : α → List ε → σ → Prop}
    {Q : β → List ε → σ → Prop} (hm : Triple B P m R) (hf : ∀ a, Triple B (R a) (f a) Q) :
    Triple B P (m >>= f) Q := by
  intro log s hP
  have hR := hm log s hP
  rcases hms : m s with ⟨es, s', _ | a⟩
  · rw [bind_apply_none hms]
    rwa [hms] at hR
  · rw [hms] at hR
    have hQ := hf a (log ++ es) s' hR
    rw [bind_apply_some hms]
    rcases hfs : f a s' with ⟨es', t, _ | b⟩ <;> rw [hfs] at hQ <;>
      simpa only [Outcome.after, ← List.append_assoc] using hQ

theorem Triple.consequence {P' : List ε → σ → Prop}
    {Q' : α → List ε → σ → Prop} (hm : Triple B P m Q) (hP : ∀ log s, P' log s → P log s)
    (hQ : ∀ a log s, Q a log s → Q' a log s) : Triple B P' m Q' := by
  intro log s h
  have hQ' := hm log s (hP log s h)
  rcases hms : m s with ⟨es, s', _ | a⟩
  · rwa [hms] at hQ'
  · rw [hms] at hQ'
    exact hQ a _ _ hQ'

end Triple

end Proc

/-! ## Events and their past -/

section EachAfter

variable {ε : Type} {R R' : List ε → ε → Prop} {es es' : List ε}

/-- Every event of a log is related by `R` to the events before it. -/
def EachAfter (R : List ε → ε → Prop) (es : List ε) : Prop :=
  ∀ pre e post, es = pre ++ e :: post → R pre e

theorem eachAfter_nil : EachAfter R [] := by
  intro pre e post heq
  have hlen := congrArg List.length heq
  simp at hlen

theorem eachAfter_singleton {e : ε} (h : R [] e) : EachAfter R [e] := by
  intro pre e' post heq
  cases pre with
  | nil =>
    cases heq
    exact h
  | cons e pre =>
    have hlen := congrArg List.length heq
    simp at hlen

theorem eachAfter_mem (es : List ε) : EachAfter (fun pre e => e ∈ es ∧ pre ⊆ es) es := by
  rintro pre e post rfl
  exact ⟨by simp, List.subset_append_left _ _⟩

/-- Two logs in a row; what is known of the second may be stated relative to its start. -/
theorem EachAfter.append (h : EachAfter R es) (h' : EachAfter R' es')
    (hR : ∀ pre e, R' pre e → R (es ++ pre) e) : EachAfter R (es ++ es') := by
  intro pre e post heq
  rcases List.append_eq_append_iff.1 heq with ⟨mid, rfl, hes'⟩ | ⟨mid, hes, hpost⟩
  · exact hR mid e (h' mid e post hes')
  · cases mid with
    | nil =>
      rw [List.append_nil] at hes
      have hR' := hR [] e (h' [] e post hpost.symm)
      rwa [List.append_nil, hes] at hR'
    | cons e' mid =>
      obtain ⟨rfl, -⟩ := List.cons.inj hpost
      exact h pre e mid hes

/-- Of two events of a log one comes first. -/
theorem EachAfter.pair (h : EachAfter R es) {e e' : ε} (he : e ∈ es) (he' : e' ∈ es) :
    e = e' ∨ (∃ pre, R pre e ∧ e' ∈ pre) ∨ ∃ pre, R pre e' ∧ e ∈ pre := by
  obtain ⟨pre, post, rfl⟩ := List.append_of_mem he
  rcases List.mem_append.1 he' with hpre | hpost
  · exact .inr (.inl ⟨pre, h pre e post rfl, hpre⟩)
  · rcases List.mem_cons.1 hpost with rfl | hpost
    · exact .inl rfl
    · obtain ⟨mid, post, rfl⟩ := List.append_of_mem hpost
      exact .inr (.inr ⟨pre ++ e :: mid, h _ e' post (by simp), by simp⟩)

theorem EachAfter.left (h : EachAfter R (es ++ es')) : EachAfter R es := by
  rintro pre e post rfl
  exact h pre e (post ++ es') (by simp)

end EachAfter

end Astrate.GoLib
