import Astrate.GoLib.Map
import Astrate.GoLib.Schedule

/-!
# Stores with a replica that is told of changes

Calls work on a store and tell a replica what they did: each operation on the store is followed by a
message, and between the two other calls may run. A message that another call has overtaken in the
meantime is marked as disturbed; the mark is only there to speak about the runs. A call may also fail
and leave out the rest.

`Relay.Lawful` says what the operations and the messages of a particular store have to do with each
other. Then the replica ends up in agreement with the store whenever no disturbed message is told and
no message is lost that something hangs on (`Relay.Lawful.converges`).
-/

set_option autoImplicit false

namespace Astrate.GoLib

/-- The operations `ο` on a store `σ`, the messages `μ` that follow them and their effect on a replica
`τ`. `disturbs op s m` says that `op`, done in `s`, takes away the ground of a message `m` under way, and
`owes m` that the replica has to learn of `m`. -/
structure Relay (σ τ ο μ : Type) where
  perform : ο → σ → σ
  notice : ο → σ → μ
  apply : μ → τ → τ
  disturbs : ο → σ → μ → Bool
  owes : μ → Bool

/-- A call: what it has still to do, and the message it has still to send before that. -/
structure RelayCall (ο μ : Type) where
  todo : List ο
  pending : Option (μ × Bool) := none

/-- The store, its replica and the calls. -/
structure RelayState (σ τ ο μ : Type) where
  store : σ
  replica : τ
  calls : List (RelayCall ο μ)

/-- A step of a call. -/
inductive RelayStep where
  /-- A call works on the store. -/
  | store (c : Nat)
  /-- A call sends its message, and the replica applies it. -/
  | tell (c : Nat)
  /-- A call gives up. -/
  | fail (c : Nat)

namespace Relay

variable {σ τ ο μ κ : Type} (R : Relay σ τ ο μ)

/-- Another call has done `op` in `s`. -/
def mark (op : ο) (s : σ) (call : RelayCall ο μ) : RelayCall ο μ :=
  { call with pending := call.pending.map fun p => (p.1, p.2 || R.disturbs op s p.1) }

/-- One step, if possible. -/
def step (s : RelayState σ τ ο μ) : RelayStep → Option (RelayState σ τ ο μ)
  | .store c =>
    match s.calls[c]? with
    | some ⟨op :: todo, none⟩ =>
      some
        { s with
          store := R.perform op s.store
          calls := (s.calls.map (R.mark op s.store)).set c
            ⟨todo, some (R.notice op s.store, false)⟩ }
    | _ => none
  | .tell c =>
    match s.calls[c]? with
    | some ⟨todo, some (m, _)⟩ =>
      some { s with replica := R.apply m s.replica, calls := s.calls.set c ⟨todo, none⟩ }
    | _ => none
  | .fail c =>
    match s.calls[c]? with
    | some _ => some { s with calls := s.calls.set c ⟨[], none⟩ }
    | none => none

/-- No disturbed message is told, and none that is owed is lost. -/
def undisturbed (s : RelayState σ τ ο μ) : RelayStep → Bool
  | .store _ => true
  | .tell c =>
    match s.calls[c]? with
    | some ⟨_, some (_, disturbed)⟩ => !disturbed
    | _ => true
  | .fail c =>
    match s.calls[c]? with
    | some ⟨_, some (m, _)⟩ => !R.owes m
    | _ => true

/-- All calls have returned. -/
def Done (s : RelayState σ τ ο μ) : Prop := ∀ call ∈ s.calls, call.todo = [] ∧ call.pending = none

/-- The laws of a store whose content and replica are compared key by key. A message `holds` as long as
the store bears it out, and `speaks` of the keys it brings into agreement. -/
structure Lawful (valid : ο → Prop) (inv : σ → Prop) (agree : κ → σ → τ → Prop) (holds : μ → σ → Prop)
    (speaks : μ → κ → Prop) : Prop where
  inv_perform : ∀ {op s}, valid op → inv s → inv (R.perform op s)
  holds_notice : ∀ {op s}, valid op → inv s → holds (R.notice op s) (R.perform op s)
  holds_perform : ∀ {op s m}, valid op → inv s → R.disturbs op s m = false → holds m s →
    holds m (R.perform op s)
  agree_perform : ∀ {op s t k}, valid op → inv s → ¬ speaks (R.notice op s) k → agree k s t →
    agree k (R.perform op s) t
  agree_apply : ∀ {m s t k}, inv s → holds m s → speaks m k ∨ agree k s t → agree k s (R.apply m t)
  not_speaks : ∀ {m} k, R.owes m = false → ¬ speaks m k

/-- Where replica and store disagree, a message is under way. -/
structure Tracks (valid : ο → Prop) (inv : σ → Prop) (agree : κ → σ → τ → Prop) (holds : μ → σ → Prop)
    (speaks : μ → κ → Prop) (s : RelayState σ τ ο μ) : Prop where
  valid : ∀ call ∈ s.calls, ∀ op ∈ call.todo, valid op
  inv : inv s.store
  pending : ∀ call ∈ s.calls, ∀ m, call.pending = some (m, false) → holds m s.store
  agree : ∀ k, agree k s.store s.replica ∨
    ∃ call ∈ s.calls, ∃ m d, call.pending = some (m, d) ∧ speaks m k

variable {R} {valid : ο → Prop} {inv : σ → Prop} {agree : κ → σ → τ → Prop} {holds : μ → σ → Prop}
  {speaks : μ → κ → Prop} {s s' : RelayState σ τ ο μ}

/-- A call other than the one that moves is still there. -/
theorem mem_set_of_ne {calls : List (RelayCall ο μ)} {c : Nat} {old new call : RelayCall ο μ}
    (hc : calls[c]? = some old) (hcall : call ∈ calls) (hne : call ≠ old) : call ∈ calls.set c new := by
  obtain ⟨c', hc'⟩ := List.mem_iff_getElem?.1 hcall
  refine List.mem_of_getElem? (i := c') ?_
  rw [List.getElem?_set_ne, hc']
  rintro rfl
  rw [hc, Option.some.injEq] at hc'
  exact hne hc'.symm

theorem mark_pending {op : ο} {s : σ} {call : RelayCall ο μ} {m : μ} {d : Bool}
    (h : (R.mark op s call).pending = some (m, d)) :
    ∃ d', call.pending = some (m, d') ∧ d = (d' || R.disturbs op s m) := by
  obtain ⟨⟨m', d'⟩, hpending, heq⟩ := Option.map_eq_some_iff.1 h
  cases heq
  exact ⟨d', hpending, rfl⟩

namespace Lawful

variable (L : R.Lawful valid inv agree holds speaks)

include L

section

variable (h : Tracks valid inv agree holds speaks s)

include h

theorem tracks_store {c : Nat} {op : ο} {todo : List ο} (hc : s.calls[c]? = some ⟨op :: todo, none⟩) :
    Tracks valid inv agree holds speaks
      { s with
        store := R.perform op s.store
        calls := (s.calls.map (R.mark op s.store)).set c
          ⟨todo, some (R.notice op s.store, false)⟩ } := by
  have hmem := List.mem_of_getElem? hc
  have hvalid : valid op := h.valid _ hmem op List.mem_cons_self
  refine ⟨forall_mem_set (List.forall_mem_map.2 h.valid) fun op' hop' => ?_, L.inv_perform hvalid h.inv,
    fun call hcall m hpending => ?_, fun k => ?_⟩
  · exact h.valid _ hmem op' (List.mem_cons_of_mem _ hop')
  · rcases List.mem_or_eq_of_mem_set hcall with hcall | rfl
    · -- The message of another call: it was borne out, and the operation does not disturb it.
      obtain ⟨call', hcall', rfl⟩ := List.mem_map.1 hcall
      obtain ⟨d', hpending', hd⟩ := mark_pending hpending
      obtain ⟨rfl, hdisturbs⟩ := Bool.or_eq_false_iff.1 hd.symm
      exact L.holds_perform hvalid h.inv hdisturbs (h.pending call' hcall' m hpending')
    · cases hpending
      exact L.holds_notice hvalid h.inv
  · have hlength : c < (s.calls.map (R.mark op s.store)).length := by
      rw [List.length_map]
      exact (List.getElem?_eq_some_iff.1 hc).1
    by_cases hspeaks : speaks (R.notice op s.store) k
    · exact .inr ⟨_, List.mem_set hlength _, _, _, rfl, hspeaks⟩
    · rcases h.agree k with hagree | ⟨call, hcall, m, d, hpending, hm⟩
      · exact .inl (L.agree_perform hvalid h.inv hspeaks hagree)
      · refine .inr ⟨R.mark op s.store call, ?_, m, d || R.disturbs op s.store m, ?_, hm⟩
        · have hmarked : (s.calls.map (R.mark op s.store))[c]? =
              some (R.mark op s.store ⟨op :: todo, none⟩) := by
            rw [List.getElem?_map, hc]
            rfl
          refine mem_set_of_ne hmarked (List.mem_map_of_mem hcall) fun heq => ?_
          have := congrArg RelayCall.pending heq
          rw [mark, hpending] at this
          cases this
        · rw [mark, hpending]
          rfl

theorem tracks_tell {c : Nat} {todo : List ο} {m : μ} (hc : s.calls[c]? = some ⟨todo, some (m, false)⟩) :
    Tracks valid inv agree holds speaks
      { s with replica := R.apply m s.replica, calls := s.calls.set c ⟨todo, none⟩ } := by
  have hmem := List.mem_of_getElem? hc
  have hholds : holds m s.store := h.pending _ hmem m rfl
  have htodo : ∀ op ∈ todo, valid op := h.valid _ hmem
  refine ⟨forall_mem_set h.valid htodo, h.inv, forall_mem_set h.pending nofun, fun k => ?_⟩
  by_cases hspeaks : speaks m k
  · exact .inl (L.agree_apply h.inv hholds (.inl hspeaks))
  · rcases h.agree k with hagree | ⟨call, hcall, m', d, hpending, hm'⟩
    · exact .inl (L.agree_apply h.inv hholds (.inr hagree))
    · -- Another call speaks of the key, and it has still to do so.
      refine .inr ⟨call, mem_set_of_ne hc hcall fun heq => ?_, m', d, hpending, hm'⟩
      rw [heq] at hpending
      cases hpending
      exact hspeaks hm'

theorem tracks_fail {c : Nat} {call : RelayCall ο μ} (hc : s.calls[c]? = some call)
    (hlost : ∀ m d, call.pending = some (m, d) → R.owes m = false) :
    Tracks valid inv agree holds speaks { s with calls := s.calls.set c ⟨[], none⟩ } := by
  refine ⟨forall_mem_set h.valid nofun, h.inv, forall_mem_set h.pending nofun, fun k => ?_⟩
  refine (h.agree k).imp_right ?_
  rintro ⟨call', hcall', m, d, hpending, hm⟩
  refine ⟨call', mem_set_of_ne hc hcall' fun heq => ?_, m, d, hpending, hm⟩
  rw [heq] at hpending
  exact L.not_speaks k (hlost m d hpending) hm

theorem tracks_step {a : RelayStep} (hok : R.undisturbed s a = true) (hstep : R.step s a = some s') :
    Tracks valid inv agree holds speaks s' := by
  cases a with
  | store c =>
    unfold Relay.step at hstep
    rcases hc : s.calls[c]? with _ | ⟨_ | ⟨op, todo⟩, _ | p⟩
    · simp [hc] at hstep
    · simp [hc] at hstep
    · simp [hc] at hstep
    · simp only [hc] at hstep
      cases hstep
      exact L.tracks_store h hc
    · simp [hc] at hstep
  | tell c =>
    unfold Relay.step at hstep
    unfold undisturbed at hok
    rcases hc : s.calls[c]? with _ | ⟨todo, _ | ⟨m, _ | _⟩⟩
    · simp [hc] at hstep
    · simp [hc] at hstep
    · simp only [hc] at hstep
      cases hstep
      exact L.tracks_tell h hc
    · simp [hc] at hok
  | fail c =>
    unfold Relay.step at hstep
    unfold undisturbed at hok
    rcases hc : s.calls[c]? with _ | ⟨todo, _ | ⟨m, d⟩⟩
    · simp [hc] at hstep
    · simp only [hc] at hstep
      cases hstep
      exact L.tracks_fail h hc fun m d hpending => (nomatch hpending)
    · simp only [hc] at hstep hok
      cases hstep
      refine L.tracks_fail h hc fun m' d' hpending => ?_
      cases hpending
      simpa using hok

end

/-- Calls that start from agreement end in agreement. -/
theorem converges {store : σ} {replica : τ} {calls : List (List ο)} {schedule : List RelayStep}
    (hvalid : ∀ ops ∈ calls, ∀ op ∈ ops, valid op) (hinv : inv store)
    (hagree : ∀ k, agree k store replica)
    (hrun : exec R.step ⟨store, replica, calls.map fun ops => ⟨ops, none⟩⟩ schedule = some s)
    (hok : Throughout R.step (fun s a => R.undisturbed s a = true)
      ⟨store, replica, calls.map fun ops => ⟨ops, none⟩⟩ schedule)
    (hdone : Done s) (k : κ) : agree k s.store s.replica := by
  have hinit : Tracks valid inv agree holds speaks
      (⟨store, replica, calls.map fun ops => ⟨ops, none⟩⟩ : RelayState σ τ ο μ) := by
    refine ⟨fun call hcall => ?_, hinv, fun call hcall m hpending => ?_, fun k => .inl (hagree k)⟩
    · obtain ⟨ops, hops, rfl⟩ := List.mem_map.1 hcall
      exact hvalid ops hops
    · obtain ⟨ops, -, rfl⟩ := List.mem_map.1 hcall
      cases hpending
  have htracks := exec_invariant (fun _ _ _ h hok hstep => L.tracks_step h hok hstep) hinit hok hrun
  rcases htracks.agree k with hagree | ⟨call, hcall, m, d, hpending, -⟩
  · exact hagree
  · rw [(hdone call hcall).2] at hpending
    cases hpending

end Lawful

end Relay

end Astrate.GoLib
