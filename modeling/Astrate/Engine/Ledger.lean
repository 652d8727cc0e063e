import Astrate.Engine.Attempt
import Mathlib.Data.List.Perm.Subperm

/-!
# What a flush acknowledges

The ledger of `flush`: whatever the store answers, every operation of the batch is settled, by an
acknowledgment or by abandonment, at most once, and every acknowledgment has a cause that precedes it in
the log (`Cause`): a successful call that persists the operation, or the permanent refusal of an attempt
with this operation alone. The operations of the pipeline convert, so that the third cause, the failure of
the conversion, does not come up. The acknowledgments follow the order of the operations as long as the
engine does not quit while the shard is parked (`FlushRun.orderly`).
-/

set_option autoImplicit false

namespace Astrate.Engine

open Astrate.GoLib

/-! ## Settled messages -/

/-- The message an event settles. -/
def Event.settles : Event → Option Nat
  | .acked id => some id
  | .abandoned id => some id
  | _ => none

def settledIds (es : List Event) : List Nat := es.filterMap Event.settles

@[simp] theorem settledIds_append (es es' : List Event) :
    settledIds (es ++ es') = settledIds es ++ settledIds es' := List.filterMap_append

/-- The messages of the operations that still have to be persisted. -/
def liveIds (ops : List PersistOp) : List Nat := (live ops).map (·.ack)

variable {op : PersistOp} {ops : List PersistOp}

/-! ## Causes -/

/-- The call persists the operation. -/
def StoreCall.Persists (op : PersistOp) : StoreCall → Prop
  | .upsertProperty id p => id = op.ack ∧ op.row = .ok (.property p)
  | .unsetProperty id key => id = op.ack ∧ op.row = .ok (.unset key)
  | .appendDatastreams ds =>
    (∃ r, op.row = .ok (.individual r) ∧ (op.ack, r) ∈ ds.individual) ∨
      ∃ r, op.row = .ok (.object r) ∧ (op.ack, r) ∈ ds.objects

/-- Why the message of an operation may be acknowledged after the events `pre`. -/
inductive Cause (pre : List Event) (op : PersistOp) : Prop where
  /-- A call that persists the operation returned success. -/
  | persisted (call : StoreCall) (returned : .returned call (.ok ()) ∈ pre)
      (persists : call.Persists op)
  /-- The database refused the commit of this operation alone for good. -/
  | refused (call : StoreCall) (err : StoreError)
      (attempt : [.attempt [op.ack], .returned call (.error err)] <:+: pre)
      (permanent : isPermanentCommitError err = true) (persists : call.Persists op)
  /-- The operation has no row. -/
  | unconverted (err : FmtError) (marked : .unconverted op.ack err ∈ pre)
      (noRow : op.row = .error err)

theorem Cause.mono {pre pre' : List Event} (h : Cause pre op) (hpre : pre <:+: pre') : Cause pre' op := by
  cases h with
  | persisted call returned persists => exact .persisted call (hpre.subset returned) persists
  | refused call err attempt permanent persists =>
    exact .refused call err (attempt.trans hpre) permanent persists
  | unconverted err marked noRow => exact .unconverted err (hpre.subset marked) noRow

/-- Every acknowledgment is related by `R` to the events before it. -/
def AcksHave (R : List Event → Nat → Prop) (es : List Event) : Prop :=
  ∀ pre id post, es = pre ++ .acked id :: post → R pre id

variable {es : List Event}

theorem mem_settledIds_of_acked {id : Nat} (h : .acked id ∈ es) : id ∈ settledIds es :=
  List.mem_filterMap.2 ⟨_, h, rfl⟩

section AcksHave

variable {R R' : List Event → Nat → Prop} {es es' : List Event}

theorem acksHave_of_not_mem (h : ∀ id, .acked id ∉ es) : AcksHave R es := by
  rintro pre id post rfl
  exact absurd (by simp) (h id)

theorem acksHave_of_settledIds_eq_nil (h : settledIds es = []) : AcksHave R es := by
  apply acksHave_of_not_mem
  intro id hid
  have hmem := mem_settledIds_of_acked hid
  rw [h] at hmem
  cases hmem

theorem acksHave_singleton {id : Nat} (h : R [] id) : AcksHave R [.acked id] := by
  have hlast : EachAfter (fun pre e => ∀ id', e = .acked id' → R pre id') [.acked id] :=
    eachAfter_singleton fun id' heq => Event.acked.inj heq ▸ h
  exact fun pre id' post heq => hlast pre _ post heq id' rfl

/-- Two logs in a row; what is known of the second may be stated relative to its start. -/
theorem AcksHave.append (h : AcksHave R es) (h' : AcksHave R' es')
    (hR : ∀ pre id, R' pre id → R (es ++ pre) id) : AcksHave R (es ++ es') := by
  have hes : EachAfter (fun pre e => ∀ id, e = .acked id → R pre id) es := by
    rintro pre e post heq id rfl
    exact h pre id post heq
  have hes' : EachAfter (fun pre e => ∀ id, e = .acked id → R' pre id) es' := by
    rintro pre e post heq id rfl
    exact h' pre id post heq
  have hall := hes.append hes' fun pre e hR' id he => hR pre id (hR' id he)
  exact fun pre id post heq => hall pre _ post heq id rfl

end AcksHave

/-- Every acknowledgment belongs to one of the operations and has a cause before it. -/
def AcksCaused (ops : List PersistOp) : List Event → Prop :=
  AcksHave fun pre id => ∃ op ∈ ops, op.ack = id ∧ Cause pre op

/-- What a run over some operations may log about them. -/
structure Ledger (ops : List PersistOp) (es : List Event) : Prop where
  settled : (settledIds es).Subperm (liveIds ops)
  caused : AcksCaused (live ops) es

/-! ## One attempt -/

/-- The events persist the operation. -/
def Stored (es : List Event) (op : PersistOp) : Prop :=
  ∃ call, .returned call (.ok ()) ∈ es ∧ call.Persists op

/-- The call that persists a row alone. -/
def Row.call (id : Nat) : Row → StoreCall
  | .property p => .upsertProperty id p
  | .unset key => .unsetProperty id key
  | .individual r => .appendDatastreams { individual := [(id, r)] }
  | .object r => .appendDatastreams { objects := [(id, r)] }

theorem Row.call_persists {row : Row} (h : op.row = .ok row) : (row.call op.ack).Persists op := by
  cases row with
  | property p => exact ⟨rfl, h⟩
  | unset key => exact ⟨rfl, h⟩
  | individual r => exact .inl ⟨r, h, List.mem_singleton_self _⟩
  | object r => exact .inr ⟨r, h, List.mem_singleton_self _⟩

section

variable {σ : Type} (port : BatchPort σ)

/-- The attempt with one operation is one call. -/
theorem attempt_single {row : Row} (hrow : op.row = .ok row) (s : Shard σ) :
    attemptEvents port [op] s = [.attempt [op.ack],
        .returned (row.call op.ack) (port.persist (row.call op.ack) s.env).1] ∧
      attempted port [op] s = { s with env := (port.persist (row.call op.ack) s.env).2 } ∧
      attemptReply port [op] s = (port.persist (row.call op.ack) s.env).1 := by
  have hcalls : storeCalls [op] = [row.call op.ack] := by
    rw [storeCalls, statements_cons hrow, streamRows_cons hrow]
    cases row <;> rfl
  unfold attemptEvents attempted attemptReply
  rw [hcalls]
  rcases hcall : port.persist (row.call op.ack) s.env with ⟨err | _, env⟩
  · rw [callAll_cons_error port hcall]
    exact ⟨rfl, rfl, rfl⟩
  · rw [callAll_cons_ok port hcall]
    exact ⟨rfl, rfl, rfl⟩

/-- Every ready operation is persisted by one of the calls of its attempt. -/
theorem exists_call_persists (h : ∀ op ∈ ops, op.Ready) (hop : op ∈ ops) :
    ∃ call ∈ storeCalls ops, call.Persists op := by
  obtain ⟨-, row, hrow, -⟩ := h op hop
  -- The statement of the row is among the statements, or the row is in the transaction.
  have hmem : (∀ call, row.statement op.ack = some call → call ∈ statements ops) ∧
      (∀ p ∈ (row.stream op.ack).individual, p ∈ (streamRows ops).individual) ∧
      ∀ p ∈ (row.stream op.ack).objects, p ∈ (streamRows ops).objects := by
    clear h
    induction ops with
    | nil => cases hop
    | cons op' ops ih =>
      rcases List.mem_cons.1 hop with rfl | hop
      · rw [statements_cons hrow, streamRows_cons hrow]
        exact ⟨fun call hcall => by simp [hcall], fun p hp => List.mem_append_left _ hp,
          fun p hp => List.mem_append_left _ hp⟩
      · obtain ⟨hstatement, hindividual, hobjects⟩ := ih hop
        unfold statements streamRows
        cases op'.row with
        | error err => exact ⟨hstatement, hindividual, hobjects⟩
        | ok row' =>
          exact ⟨fun call hcall => List.mem_append_right _ (hstatement call hcall),
            fun p hp => List.mem_append_right _ (hindividual p hp),
            fun p hp => List.mem_append_right _ (hobjects p hp)⟩
  obtain ⟨hstatement, hindividual, hobjects⟩ := hmem
  cases row with
  | property p => exact ⟨_, List.mem_append_left _ (hstatement _ rfl), rfl, hrow⟩
  | unset key => exact ⟨_, List.mem_append_left _ (hstatement _ rfl), rfl, hrow⟩
  | individual r =>
    have hr := hindividual (op.ack, r) (List.mem_singleton_self _)
    exact ⟨.appendDatastreams (streamRows ops),
      by simp [storeCalls, TaggedBatch.calls, List.ne_nil_of_mem hr], .inl ⟨r, hrow, hr⟩⟩
  | object r =>
    have hr := hobjects (op.ack, r) (List.mem_singleton_self _)
    exact ⟨.appendDatastreams (streamRows ops),
      by simp [storeCalls, TaggedBatch.calls, List.ne_nil_of_mem hr], .inr ⟨r, hrow, hr⟩⟩

/-- A sequence of calls that succeeds has succeeded in each of them. -/
theorem callAll_ok {calls : List StoreCall} {env : σ} (h : (callAll port calls env).reply = .ok ())
    {call : StoreCall} (hcall : call ∈ calls) : ∃ env', (port.persist call env').1 = .ok () ∧
      .returned call (.ok ()) ∈ (callAll port calls env).events := by
  induction calls generalizing env with
  | nil => cases hcall
  | cons call' calls ih =>
    rcases hrun : port.persist call' env with ⟨err | _, env'⟩
    · rw [callAll_cons_error port hrun] at h
      cases h
    · rw [callAll_cons_ok port hrun] at h ⊢
      rcases List.mem_cons.1 hcall with rfl | hcall
      · exact ⟨env, by rw [hrun], List.mem_cons_self⟩
      · obtain ⟨env', hanswer, hmem⟩ := ih h hcall
        exact ⟨env', hanswer, List.mem_cons_of_mem _ hmem⟩

/-- A successful attempt persists its operations. -/
theorem Attempted.persists {s : Shard σ} (h : Attempted port ops s (.ok ())) (hop : op ∈ ops) :
    ∃ call env, (port.persist call env).1 = .ok () ∧ call.Persists op ∧
      .returned call (.ok ()) ∈ attemptEvents port ops s := by
  obtain ⟨call, hcall, hp⟩ := exists_call_persists h.ready hop
  obtain ⟨env, hanswer, hmem⟩ := callAll_ok port h.reply hcall
  exact ⟨call, env, hanswer, hp, List.mem_cons_of_mem _ hmem⟩

/-- An attempt settles nothing itself. -/
theorem settledIds_attemptEvents (ops : List PersistOp) (s : Shard σ) :
    settledIds (attemptEvents port ops s) = [] := by
  rw [settledIds, List.filterMap_eq_nil_iff]
  intro ev hev
  rcases mem_attemptEvents port hev with ⟨ids, rfl⟩ | ⟨call, -, env, rfl⟩ <;> rfl

end

/-! ## Concluded operations -/

section

variable {σ : Type} {port : BatchPort σ} {q : Prop}

/-- How the store has concluded an operation in the events `pre`: it has the row, or it has refused the
row alone for good. The replies are answers of the store. -/
inductive Concluded (port : BatchPort σ) (pre : List Event) (op : PersistOp) : Prop where
  | committed (call : StoreCall) (env : σ) (returned : .returned call (.ok ()) ∈ pre)
      (persists : call.Persists op) (answer : (port.persist call env).1 = .ok ())
  | refused (row : Row) (err : StoreError) (env : σ) (converts : op.row = .ok row)
      (attempt : [.attempt [op.ack], .returned (row.call op.ack) (.error err)] <:+: pre)
      (permanent : isPermanentCommitError err = true)
      (answer : (port.persist (row.call op.ack) env).1 = .error err)

theorem Concluded.mono {pre pre' : List Event} (h : Concluded port pre op)
    (hpre : pre <:+: pre') : Concluded port pre' op := by
  cases h with
  | committed call env returned persists answer =>
    exact .committed call env (hpre.subset returned) persists answer
  | refused row err env converts attempt permanent answer =>
    exact .refused row err env converts (attempt.trans hpre) permanent answer

theorem Concluded.cause {pre : List Event} (h : Concluded port pre op) : Cause pre op := by
  cases h with
  | committed call env returned persists answer => exact .persisted call returned persists
  | refused row err env converts attempt permanent answer =>
    exact .refused _ err attempt permanent (Row.call_persists converts)

/-- The operation is concluded and its message acknowledged. -/
structure Done (port : BatchPort σ) (pre : List Event) (op : PersistOp) : Prop where
  concluded : Concluded port pre op
  acked : .acked op.ack ∈ pre

theorem Done.mono {pre pre' : List Event} (h : Done port pre op) (hpre : pre <:+: pre') : Done port pre' op :=
  ⟨h.concluded.mono hpre, hpre.subset h.acked⟩

/-! ## One flush -/

theorem settledIds_acked (ops : List PersistOp) :
    settledIds (ops.map fun op => .acked op.ack) = ops.map (·.ack) := by
  simp [settledIds, Event.settles, List.filterMap_map, Function.comp_def]

theorem settledIds_abandoned (ops : List PersistOp) :
    settledIds (ops.map fun op => .abandoned op.ack) = ops.map (·.ack) := by
  simp [settledIds, Event.settles, List.filterMap_map, Function.comp_def]

theorem settledIds_finalizeEvents (ops : List PersistOp) :
    settledIds (finalizeEvents port ops) = liveIds ops := by
  unfold finalizeEvents
  rw [settledIds_append, settledIds_acked]
  split_ifs <;> simp [settledIds, Event.settles, liveIds]

/-- Every acknowledgment belongs to an operation that is concluded, and under `q` all those before it
are done. -/
def InOrder (port : BatchPort σ) (q : Prop) (ops : List PersistOp) : List Event → Prop :=
  AcksHave fun pre id => ∃ before op after, ops = before ++ op :: after ∧ op.ack = id ∧
    Concluded port pre op ∧ (q → ∀ op' ∈ before, Done port pre op')

section InOrder

variable {ops' : List PersistOp} {es' : List Event}

theorem InOrder.of_quiet (h : settledIds es = []) : InOrder port q ops es :=
  acksHave_of_settledIds_eq_nil h

/-- Operations whose turn has not come. -/
theorem InOrder.extend (h : InOrder port q ops es) (ops' : List PersistOp) :
    InOrder port q (ops ++ ops') es := by
  intro pre id post heq
  obtain ⟨before, op, after, rfl, hid, hdone⟩ := h pre id post heq
  exact ⟨before, op, after ++ ops', by simp, hid, hdone⟩

/-- Two slices, one after the other. -/
theorem InOrder.append (h : InOrder port q ops es) (hdone : q → ∀ op ∈ ops, Done port es op)
    (h' : InOrder port q ops' es') : InOrder port q (ops ++ ops') (es ++ es') := by
  apply AcksHave.append (h.extend ops') h'
  rintro pre id ⟨before, op, after, rfl, hid, hop, hbefore⟩
  refine ⟨ops ++ before, op, after, by simp, hid, hop.mono (List.suffix_append _ _).isInfix, ?_⟩
  intro hq op' hop'
  rcases List.mem_append.1 hop' with hop' | hop'
  · exact (hdone hq op' hop').mono (List.prefix_append _ _).isInfix
  · exact (hbefore hq op' hop').mono (List.suffix_append _ _).isInfix

/-- Events that acknowledge nothing, before or after. -/
theorem InOrder.after_quiet (h : InOrder port q ops es') (hes : settledIds es = []) :
    InOrder port q ops (es ++ es') :=
  InOrder.append (.of_quiet hes : InOrder port q [] es) (fun _ op hop => by cases hop) h

theorem InOrder.before_quiet (h : InOrder port q ops es) (hdone : ∀ op ∈ ops, Done port es op)
    (hes' : settledIds es' = []) : InOrder port q ops (es ++ es') := by
  have happend := h.append (fun _ => hdone) (.of_quiet hes' : InOrder port q [] es')
  rwa [List.append_nil] at happend

/-- The acknowledgments of concluded operations, when those before them are done. -/
theorem InOrder.acks (rest : List PersistOp) : ∀ {done : List PersistOp} {es : List Event},
    InOrder port q (done ++ rest) es → (∀ op ∈ done, Done port es op) →
      (∀ op ∈ rest, Concluded port es op) →
        InOrder port q (done ++ rest) (es ++ rest.map fun op => .acked op.ack) ∧
          ∀ op ∈ done ++ rest, Done port (es ++ rest.map fun op => .acked op.ack) op := by
  induction rest with
  | nil =>
    intro done es h hdone _
    simpa using And.intro h hdone
  | cons op rest ih =>
    intro done es h hdone hrest
    have hop := hrest op List.mem_cons_self
    have hgrow : es <:+: es ++ [.acked op.ack] := (List.prefix_append _ _).isInfix
    have hacked : InOrder port q ((done ++ [op]) ++ rest) (es ++ [.acked op.ack]) := by
      rw [List.append_assoc]
      apply AcksHave.append h
        (acksHave_singleton (R := fun pre id => pre = [] ∧ id = op.ack) ⟨rfl, rfl⟩)
      rintro pre id ⟨rfl, rfl⟩
      rw [List.append_nil]
      exact ⟨done, op, rest, rfl, rfl, hop, fun _ => hdone⟩
    have hstep := ih hacked
      (forall_mem_concat (fun op' hop' => (hdone op' hop').mono hgrow) ⟨hop.mono hgrow, by simp⟩)
      fun op' hop' => (hrest op' (List.mem_cons_of_mem _ hop')).mono hgrow
    simpa using hstep

/-- The acknowledgments of a concluded slice. -/
theorem inOrder_acks (q : Prop) (hquiet : settledIds es = []) (hes : ∀ op ∈ ops, Concluded port es op) :
    InOrder port q ops (es ++ ops.map fun op => .acked op.ack) ∧
      ∀ op ∈ ops, Done port (es ++ ops.map fun op => .acked op.ack) op := by
  have hstart : InOrder port q ([] ++ ops) es := .of_quiet hquiet
  have hacks := InOrder.acks ops hstart
  exact hacks (fun op hop => by cases hop) hes

end InOrder

/-- What a flush logs: answers of the store, and nothing about messages that are not in the batch. -/
def Event.OfBatch (port : BatchPort σ) : Event → Prop
  | .received _ _ | .queued _ | .rejected _ _ _ | .consumed _ _ _ => False
  | .returned call reply => ∃ env, (port.persist call env).1 = reply
  | _ => True

/-- A run over a slice of the batch. Under `q` the engine never quits while the run is parked. -/
structure Orderly (port : BatchPort σ) (q : Prop) (ops : List PersistOp)
    (o : Outcome Event (Shard σ) Unit) : Prop where
  acks : InOrder port q ops o.events
  done : q → o.value = some () → ∀ op ∈ ops, Done port o.events op
  parks : q → Park.quit ∉ o.state.parks
  batch : ∀ ev ∈ o.events, ev.OfBatch port

section Flush

variable {s : Shard σ} {o : Outcome Event (Shard σ) Unit}

theorem attemptEvents_batch (ops : List PersistOp) (s : Shard σ) :
    ∀ ev ∈ attemptEvents port ops s, ev.OfBatch port := by
  intro ev hev
  rcases mem_attemptEvents port hev with ⟨ids, rfl⟩ | ⟨call, -, env, rfl⟩
  · trivial
  · exact ⟨env, rfl⟩

/-- An attempt that has acknowledged nothing, and what follows it. -/
theorem Orderly.after_attempt (h : Orderly port q ops o) :
    Orderly port q ops (o.after (attemptEvents port ops s)) where
  acks := h.acks.after_quiet (settledIds_attemptEvents port ops s)
  done := fun hq hv op hop => (h.done hq hv op hop).mono (List.suffix_append _ _).isInfix
  parks := h.parks
  batch := List.forall_mem_append.2 ⟨attemptEvents_batch ops s, h.batch⟩

/-- The acknowledgments after a successful attempt. -/
theorem Attempted.orderly_finalize (h : Attempted port ops s (.ok ())) (hs : q → Park.quit ∉ s.parks) :
    Orderly port q ops
      ⟨attemptEvents port ops s ++ finalizeEvents port ops, attempted port ops s, some ()⟩ := by
  have hconcluded : ∀ op ∈ ops, Concluded port (attemptEvents port ops s) op := by
    intro op hop
    obtain ⟨call, env, hanswer, hp, hmem⟩ := h.persists port hop
    exact .committed call env hmem hp hanswer
  obtain ⟨hacks, hdone⟩ := inOrder_acks q (settledIds_attemptEvents port ops s) hconcluded
  have hbatch : ∀ ev ∈ finalizeEvents port ops, ev.OfBatch port := by
    intro ev hev
    rcases mem_finalizeEvents port hev with ⟨op, rfl⟩ | rfl <;> trivial
  refine ⟨?_, fun _ _ op hop => ?_, hs, List.forall_mem_append.2 ⟨attemptEvents_batch ops s, hbatch⟩⟩ <;>
    unfold finalizeEvents <;> rw [live_ready h.ready, ← List.append_assoc]
  · have hobserved : settledIds (if port.afterCommit && !ops.isEmpty then [Event.observed ops] else []) =
        [] := by split_ifs <;> rfl
    exact hacks.before_quiet hdone hobserved
  · exact (hdone op hop).mono (List.prefix_append _ _).isInfix

/-- Dropping a single operation after its refusal. -/
theorem Attempted.orderly_dropped {err : StoreError} (h : Attempted port [op] s (.error err))
    (herr : isPermanentCommitError err = true) (hs : q → Park.quit ∉ s.parks) :
    Orderly port q [op] ⟨attemptEvents port [op] s ++ [.acked op.ack], attempted port [op] s, some ()⟩ := by
  obtain ⟨-, row, hrow, -⟩ := h.ready op List.mem_cons_self
  obtain ⟨hevents, -, hreply⟩ := attempt_single port hrow s
  rw [h.reply] at hreply
  have hconcluded : Concluded port (attemptEvents port [op] s) op := by
    rw [hevents, ← hreply]
    exact .refused row err s.env hrow List.infix_rfl herr hreply.symm
  obtain ⟨hacks, hdone⟩ := inOrder_acks q (settledIds_attemptEvents port [op] s)
    (List.forall_mem_singleton.2 hconcluded)
  refine ⟨hacks, fun _ _ => hdone, hs, List.forall_mem_append.2 ⟨attemptEvents_batch [op] s, ?_⟩⟩
  exact List.forall_mem_singleton.2 trivial

/-- A flush concludes its operations in order, by induction on its attempts. -/
theorem FlushRun.orderly (h : FlushRun port ops s o) (hs : q → Park.quit ∉ s.parks) : Orderly port q ops o := by
  induction h with
  | stored attempt => exact attempt.orderly_finalize hs
  | @parked ops s err attempt =>
    have hblocked : Orderly port q ops ⟨[], attempted port ops s, none⟩ :=
      ⟨.of_quiet rfl, fun _ h => (by cases h), hs, fun ev hev => by cases hev⟩
    simpa [Outcome.after] using hblocked.after_attempt (s := s)
  | retried _ _ park _ ih =>
    exact (ih fun hq hmem => hs hq (park ▸ List.mem_cons_of_mem _ hmem)).after_attempt
  | @quit ops s err parks attempt _ park =>
    -- The engine has quit, so that nothing is claimed about the order.
    have hquit : ¬ q := fun hq => hs hq (park ▸ List.mem_cons_self)
    have habandoned : Orderly port q ops ⟨ops.map fun op => .abandoned op.ack,
        { attempted port ops s with parks := parks }, some ()⟩ :=
      ⟨acksHave_of_not_mem (by simp), fun hq => absurd hq hquit, fun hq => absurd hq hquit,
        List.forall_mem_map.2 fun _ _ => trivial⟩
    exact habandoned.after_attempt
  | dropped attempt permanent => exact attempt.orderly_dropped permanent hs
  | split _ _ _ ih => exact (ih hs).after_attempt
  | nil s => exact ⟨.of_quiet rfl, fun _ _ op hop => (by cases hop), hs, fun ev hev => by cases hev⟩
  | @stop op ops s t es _ ih =>
    have hfirst := ih hs
    exact ⟨hfirst.acks.extend ops, fun _ h => (by cases h), hfirst.parks, hfirst.batch⟩
  | @next op ops s t es o _ _ ih ih' =>
    have hfirst := ih hs
    have hrest := ih' hfirst.parks
    have hdone := fun hq => hfirst.done hq rfl
    refine ⟨hfirst.acks.append hdone hrest.acks, ?_, hrest.parks,
      List.forall_mem_append.2 ⟨hfirst.batch, hrest.batch⟩⟩
    intro hq hv op' hop'
    rcases List.mem_cons.1 hop' with rfl | hop'
    · exact (hdone hq _ (List.mem_singleton_self _)).mono (List.prefix_append _ _).isInfix
    · exact (hrest.done hq hv op' hop').mono (List.suffix_append _ _).isInfix

/-- A flush settles an operation at most once. -/
theorem FlushRun.settled (h : FlushRun port ops s o) : (settledIds o.events).Subperm (ops.map (·.ack)) := by
  induction h with
  | stored attempt =>
    rw [settledIds_append, settledIds_attemptEvents, settledIds_finalizeEvents, liveIds,
      live_ready attempt.ready]
    exact List.Subperm.refl _
  | @parked ops s => exact settledIds_attemptEvents port ops s ▸ List.nil_subperm
  | retried _ _ _ _ ih => simpa [settledIds_attemptEvents] using ih
  | @quit ops s =>
    rw [settledIds_append, settledIds_attemptEvents, settledIds_abandoned]
    exact List.Subperm.refl _
  | @dropped op s =>
    rw [settledIds_append, settledIds_attemptEvents]
    exact List.Subperm.refl _
  | split _ _ _ ih => simpa [settledIds_attemptEvents] using ih
  | nil s => exact List.Subperm.refl _
  | @stop op ops s t es _ ih => exact ih.trans (List.sublist_append_left [op.ack] _).subperm
  | next _ _ ih ih' => simpa using ih.append ih'

/-- A flush of ready operations keeps the ledger. -/
theorem FlushRun.ledger (h : FlushRun port ops s o) (hops : ∀ op ∈ ops, op.Ready) : Ledger ops o.events := by
  have hlive := live_ready hops
  refine ⟨?_, ?_⟩
  · rw [liveIds, hlive]
    exact h.settled
  · rw [hlive]
    intro pre id post heq
    have horderly : Orderly port False ops o := h.orderly nofun
    obtain ⟨before, op, after, rfl, hid, hconcluded, -⟩ := horderly.acks pre id post heq
    exact ⟨op, by simp, hid, hconcluded.cause⟩

end Flush

/-- Operations left behind are settled without an acknowledgment. -/
theorem ledger_abandon (ops : List PersistOp) : Ledger ops ((live ops).map fun op => .abandoned op.ack) where
  settled := by
    rw [settledIds_abandoned]
    exact List.Subperm.refl _
  caused := acksHave_of_not_mem fun id hid => by simp at hid

end

end Astrate.Engine
