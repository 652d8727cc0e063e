import Astrate.GoLib.Map
import Astrate.GoLib.Schedule

/-!
# Caches that are refilled without a lock

A cache is refilled by calls that read a store piece by piece and then install what they have read, in
one step and whatever is in the cache by then. The store changes meanwhile. A call carries the number of
the version its first read saw; the number is only there to speak about the runs.

When calls install in the order of their first reads, the content of the cache is never older than
anything that was installed before (`Refill.current_of_exec`).
-/

set_option autoImplicit false

namespace Astrate.GoLib

/-- How a call reads a store of type `κ`: the first read, which may fail, and the reads that follow
until it is ready. -/
structure Filler (κ ℓ ρ : Type) where
  begin : κ → Option ℓ
  ready : ℓ → Bool
  next : κ → ℓ → ℓ
  result : ℓ → ρ

/-- Where a call is. -/
inductive FillCall (ℓ : Type) where
  | idle
  | reading (version : Nat) (seen : ℓ)
  | ended

/-- The store, the cache, the versions installed so far and the calls. -/
structure Refill (κ ℓ ρ : Type) where
  store : Versions κ
  cache : ρ
  installs : List Nat
  calls : List (FillCall ℓ)

/-- A step of the store or of a call. -/
inductive FillStep (κ : Type) where
  | commit (store : κ)
  | begin (c : Nat)
  | next (c : Nat)
  | install (c : Nat)

namespace Refill

variable {κ ℓ ρ : Type}

/-- Calls to come on a cache with some content. -/
def init (store : κ) (cache : ρ) (n : Nat) : Refill κ ℓ ρ :=
  ⟨⟨[], store⟩, cache, [], List.replicate n .idle⟩

variable (f : Filler κ ℓ ρ)

/-- One step, if possible. -/
def step (s : Refill κ ℓ ρ) : FillStep κ → Option (Refill κ ℓ ρ)
  | .commit store => some { s with store := s.store.commit store }
  | .begin c =>
    match s.calls[c]? with
    | some .idle =>
      match f.begin s.store.current with
      | none => some { s with calls := s.calls.set c .ended }
      | some seen => some { s with calls := s.calls.set c (.reading s.store.number seen) }
    | _ => none
  | .next c =>
    match s.calls[c]? with
    | some (.reading v seen) =>
      if f.ready seen then none
      else some { s with calls := s.calls.set c (.reading v (f.next s.store.current seen)) }
    | _ => none
  | .install c =>
    match s.calls[c]? with
    | some (.reading v seen) =>
      if f.ready seen then
        some { s with cache := f.result seen, installs := s.installs ++ [v]
                      calls := s.calls.set c .ended }
      else none
    | _ => none

/-- A call that is reading began at this version or later. -/
def FillCall.notBefore (v : Nat) : FillCall ℓ → Bool
  | .reading w _ => decide (v ≤ w)
  | _ => true

/-- A call that installs began no later than the calls that are still reading. -/
def inOrder (s : Refill κ ℓ ρ) : FillStep κ → Bool
  | .install c =>
    match s.calls[c]? with
    | some (.reading v _) => s.calls.all (FillCall.notBefore v)
    | _ => true
  | _ => true

/-- What a call can have seen that began at version `v`. -/
inductive Seen (st : Versions κ) (v : Nat) : ℓ → Prop where
  | begin {store : κ} {seen : ℓ} (hstore : st.at? v = some store) (h : f.begin store = some seen) :
      Seen st v seen
  | next {w : Nat} {store : κ} {seen : ℓ} (h : Seen st v seen) (hw : v ≤ w)
      (hstore : st.at? w = some store) : Seen st v (f.next store seen)

/-- The content comes from a call that read the store from version `v` on. -/
def Corresponds (st : Versions κ) (v : Nat) (content : ρ) : Prop :=
  ∃ seen, Seen f st v seen ∧ f.ready seen = true ∧ content = f.result seen

/-- Versions on their way into the cache are no older than those that were there. -/
structure Ordered (s : Refill κ ℓ ρ) : Prop where
  calls : ∀ v seen, .reading v seen ∈ s.calls → Seen f s.store v seen ∧ ∀ u ∈ s.installs, u ≤ v
  installs : ∀ u ∈ s.installs, u ≤ s.store.number
  cache : ∀ u ∈ s.installs, ∃ v, u ≤ v ∧ Corresponds f s.store v s.cache

variable {f} {s s' : Refill κ ℓ ρ}

theorem Seen.commit {st : Versions κ} {v : Nat} {seen : ℓ} (h : Seen f st v seen) (content : κ) :
    Seen f (st.commit content) v seen := by
  induction h with
  | begin hstore h => exact .begin (Versions.at?_commit hstore content) h
  | next _ hw hstore ih => exact .next ih hw (Versions.at?_commit hstore content)

theorem Corresponds.commit {st : Versions κ} {v : Nat} {content : ρ} (h : Corresponds f st v content)
    (new : κ) : Corresponds f (st.commit new) v content := by
  obtain ⟨seen, hseen, hready, heq⟩ := h
  exact ⟨seen, hseen.commit new, hready, heq⟩

theorem Seen.le_number {st : Versions κ} {v : Nat} {seen : ℓ} (h : Seen f st v seen) : v ≤ st.number := by
  induction h with
  | begin hstore _ => exact Versions.le_number_of_at? hstore
  | next _ _ _ ih => exact ih

theorem ordered_init (store : κ) (cache : ρ) (n : Nat) : Ordered f (init store cache n) where
  calls := fun v seen h => by cases List.eq_of_mem_replicate h
  installs := fun u hu => (nomatch hu)
  cache := fun u hu => (nomatch hu)

/-- A call moves on within its reads, or ends. -/
theorem Ordered.move (h : Ordered f s) {c : Nat} {call : FillCall ℓ}
    (hcall : ∀ v seen, call = .reading v seen → Seen f s.store v seen ∧ ∀ u ∈ s.installs, u ≤ v) :
    Ordered f { s with calls := s.calls.set c call } where
  calls := fun v seen => of_mem_set (h.calls v seen) (hcall v seen)
  installs := h.installs
  cache := h.cache

theorem Ordered.commit (h : Ordered f s) (content : κ) :
    Ordered f { s with store := s.store.commit content } where
  calls := fun v seen hmem => by
    obtain ⟨hseen, hu⟩ := h.calls v seen hmem
    exact ⟨hseen.commit content, hu⟩
  installs := fun u hu => by
    have := h.installs u hu
    rw [Versions.number_commit]
    omega
  cache := fun u hu => by
    obtain ⟨v, huv, hcache⟩ := h.cache u hu
    exact ⟨v, huv, hcache.commit content⟩

theorem Ordered.step {a : FillStep κ} (h : Ordered f s) (hok : s.inOrder a = true)
    (hstep : s.step f a = some s') : Ordered f s' := by
  cases a with
  | commit store =>
    cases hstep
    exact h.commit store
  | begin c =>
    unfold Refill.step at hstep
    rcases hcall : s.calls[c]? with _ | _ | ⟨v, seen⟩ | _
    · simp [hcall] at hstep
    · simp only [hcall] at hstep
      cases hbegin : f.begin s.store.current with
      | none =>
        rw [hbegin] at hstep
        cases hstep
        refine h.move fun v seen heq => ?_
        cases heq
      | some seen =>
        rw [hbegin] at hstep
        cases hstep
        refine h.move fun v seen' heq => ?_
        cases heq
        exact ⟨.begin s.store.at?_number hbegin, h.installs⟩
    · simp [hcall] at hstep
    · simp [hcall] at hstep
  | next c =>
    unfold Refill.step at hstep
    rcases hcall : s.calls[c]? with _ | _ | ⟨v, seen⟩ | _
    · simp [hcall] at hstep
    · simp [hcall] at hstep
    · simp only [hcall] at hstep
      split_ifs at hstep
      cases hstep
      obtain ⟨hseen, hu⟩ := h.calls v seen (List.mem_of_getElem? hcall)
      refine h.move fun v' seen' heq => ?_
      cases heq
      exact ⟨hseen.next hseen.le_number s.store.at?_number, hu⟩
    · simp [hcall] at hstep
  | install c =>
    unfold Refill.step at hstep
    unfold inOrder at hok
    rcases hcall : s.calls[c]? with _ | _ | ⟨v, seen⟩ | _
    · simp [hcall] at hstep
    · simp [hcall] at hstep
    · simp only [hcall] at hstep hok
      split_ifs at hstep with hready
      cases hstep
      obtain ⟨hseen, hu⟩ := h.calls v seen (List.mem_of_getElem? hcall)
      refine ⟨fun w seen' => of_mem_set (fun hmem => ?_) (by simp),
        forall_mem_concat h.installs hseen.le_number, fun u hmem => ?_⟩
      · -- The others began no earlier.
        obtain ⟨hseen', hu'⟩ := h.calls w seen' hmem
        exact ⟨hseen', forall_mem_concat hu' (of_decide_eq_true (List.all_eq_true.1 hok _ hmem))⟩
      · exact ⟨v, forall_mem_concat hu (Nat.le_refl v) u hmem, seen, hseen, hready, rfl⟩
    · simp [hcall] at hstep

/-- After a schedule in which calls install in the order of their first reads, the content of the cache
is at least as recent as everything installed. -/
theorem current_of_exec {store : κ} {cache : ρ} {n : Nat} {schedule : List (FillStep κ)}
    (hrun : exec (step f) (init store cache n) schedule = some s)
    (hok : Throughout (step f) (fun s a => s.inOrder a = true) (init store cache n) schedule) :
    ∀ u ∈ s.installs, ∃ v, u ≤ v ∧ Corresponds f s.store v s.cache :=
  (exec_invariant (fun _ _ _ h hok hstep => Ordered.step h hok hstep) (ordered_init store cache n) hok
    hrun).cache

end Refill

end Astrate.GoLib
