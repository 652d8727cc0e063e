import Astrate.Engine.Batch

/-!
# Attempts and flushes of convertible operations

An operation is `Ready` when it is not marked and converts to a row that the store's own check lets
through. On ready operations `commit` is a fixed sequence of store calls (`storeCalls`), executed until
one of them fails (`commit_ready`): a statement per property operation, then one transaction with the
rows of the others. So no operation is ever marked, and the rows given to the store are valid.

`FlushRun` says what a flush of ready operations can do, attempt by attempt. Every flush is such a run
(`flushOps_run`), so what is kept by each of its steps holds of every flush.
-/

set_option autoImplicit false

namespace Astrate.Engine

open Astrate.GoLib
open Astrate.Store (validateRows validateRows_eq_ok_iff)

/-! ## Ready operations -/

/-- An operation that is not marked and converts to a valid row. -/
structure PersistOp.Ready (op : PersistOp) : Prop where
  unmarked : op.broken = false
  converts : ∃ row, op.row = .ok row ∧ row.Valid

/-- The statement a row asks for, if it is not a row of the transaction. -/
def Row.statement (id : Nat) : Row → Option StoreCall
  | .property p => some (.upsertProperty id p)
  | .unset key => some (.unsetProperty id key)
  | .individual _ | .object _ => none

/-- What a row adds to the transaction. -/
def Row.stream (id : Nat) : Row → TaggedBatch
  | .individual r => { individual := [(id, r)] }
  | .object r => { objects := [(id, r)] }
  | .property _ | .unset _ => {}

/-- Two transactions in one. -/
def TaggedBatch.append (ds ds' : TaggedBatch) : TaggedBatch :=
  ⟨ds.individual ++ ds'.individual, ds.objects ++ ds'.objects⟩

theorem TaggedBatch.append_empty (ds : TaggedBatch) : ds.append {} = ds := by
  simp [TaggedBatch.append]

theorem TaggedBatch.empty_append (ds : TaggedBatch) : TaggedBatch.append {} ds = ds := rfl

theorem TaggedBatch.append_assoc (a b c : TaggedBatch) : (a.append b).append c = a.append (b.append c) := by
  simp [TaggedBatch.append]

/-- The statements of the operations, in order. -/
def statements : List PersistOp → List StoreCall
  | [] => []
  | op :: ops =>
    match op.row with
    | .ok row => (row.statement op.ack).toList ++ statements ops
    | .error _ => statements ops

/-- The rows of the transaction. -/
def streamRows : List PersistOp → TaggedBatch
  | [] => {}
  | op :: ops =>
    match op.row with
    | .ok row => (row.stream op.ack).append (streamRows ops)
    | .error _ => streamRows ops

/-- The transaction, unless it would be empty. -/
def TaggedBatch.calls (ds : TaggedBatch) : List StoreCall :=
  if !ds.individual.isEmpty || !ds.objects.isEmpty then [.appendDatastreams ds] else []

/-- What an attempt asks of the store. -/
def storeCalls (ops : List PersistOp) : List StoreCall := statements ops ++ (streamRows ops).calls

theorem statements_cons {op : PersistOp} {row : Row} (h : op.row = .ok row) (ops : List PersistOp) :
    statements (op :: ops) = (row.statement op.ack).toList ++ statements ops := by
  rw [statements, h]

theorem streamRows_cons {op : PersistOp} {row : Row} (h : op.row = .ok row) (ops : List PersistOp) :
    streamRows (op :: ops) = (row.stream op.ack).append (streamRows ops) := by
  rw [streamRows, h]

theorem append_not_mem_statements (ops : List PersistOp) (ds : TaggedBatch) :
    .appendDatastreams ds ∉ statements ops := by
  induction ops with
  | nil => exact List.not_mem_nil
  | cons op ops ih =>
    unfold statements
    cases op.row with
    | error err => exact ih
    | ok row => cases row <;> simpa [Row.statement] using ih

/-! ## Calls in sequence -/

/-- What a sequence of calls came to. -/
structure CallRun (σ : Type) where
  events : List Event
  env : σ
  reply : Except StoreError Unit

section

variable {σ : Type} (port : BatchPort σ)

/-- Call the store until a call fails. -/
def callAll : List StoreCall → σ → CallRun σ
  | [], env => ⟨[], env, .ok ()⟩
  | call :: calls, env =>
    match port.persist call env with
    | (.error err, env') => ⟨[.returned call (.error err)], env', .error err⟩
    | (.ok (), env') =>
      let r := callAll calls env'
      ⟨.returned call (.ok ()) :: r.events, r.env, r.reply⟩

theorem callAll_cons_error {call : StoreCall} {env env' : σ} {err : StoreError}
    (h : port.persist call env = (.error err, env')) (calls : List StoreCall) :
    callAll port (call :: calls) env = ⟨[.returned call (.error err)], env', .error err⟩ := by
  simp only [callAll, h]

theorem callAll_cons_ok {call : StoreCall} {env env' : σ} (h : port.persist call env = (.ok (), env'))
    (calls : List StoreCall) :
    callAll port (call :: calls) env =
      ⟨.returned call (.ok ()) :: (callAll port calls env').events, (callAll port calls env').env,
        (callAll port calls env').reply⟩ := by
  simp only [callAll, h]

variable {calls : List StoreCall}

/-- A call that fails ends the sequence, and what follows is not called. -/
theorem callAll_append {env env' : σ} {es : List Event} {reply : Except StoreError Unit}
    (h : callAll port calls env = ⟨es, env', reply⟩) (calls' : List StoreCall) :
    (∀ err, reply = .error err → callAll port (calls ++ calls') env = ⟨es, env', reply⟩) ∧
      (reply = .ok () → callAll port (calls ++ calls') env =
        ⟨es ++ (callAll port calls' env').events, (callAll port calls' env').env,
          (callAll port calls' env').reply⟩) := by
  induction calls generalizing env es with
  | nil =>
    cases h
    exact ⟨nofun, fun _ => rfl⟩
  | cons call calls ih =>
    rw [List.cons_append]
    rcases hcall : port.persist call env with ⟨err | _, env₁⟩
    · rw [callAll_cons_error port hcall] at h ⊢
      cases h
      exact ⟨fun _ _ => rfl, nofun⟩
    · rw [callAll_cons_ok port hcall] at h ⊢
      cases h
      obtain ⟨herror, hok⟩ := ih rfl
      exact ⟨fun err he => by rw [herror err he], fun he => by rw [hok he]; rfl⟩

/-- The log of a sequence of calls tells of nothing else, and of each the store's own answer. -/
theorem mem_callAll_events {env : σ} {ev : Event} (h : ev ∈ (callAll port calls env).events) :
    ∃ call ∈ calls, ∃ env', ev = .returned call (port.persist call env').1 := by
  induction calls generalizing env with
  | nil => cases h
  | cons call calls ih =>
    rcases hcall : port.persist call env with ⟨err | _, env'⟩
    · rw [callAll_cons_error port hcall, List.mem_singleton] at h
      exact ⟨call, List.mem_cons_self, env, by rw [h, hcall]⟩
    · rw [callAll_cons_ok port hcall] at h
      rcases List.mem_cons.1 h with h | h
      · exact ⟨call, List.mem_cons_self, env, by rw [h, hcall]⟩
      · obtain ⟨call', hcall', hev⟩ := ih h
        exact ⟨call', List.mem_cons_of_mem _ hcall', hev⟩

/-- A procedure that is a sequence of calls. -/
theorem callStore_apply (call : StoreCall) (s : Shard σ) :
    callStore port call s = ⟨[.returned call (port.persist call s.env).1],
      { s with env := (port.persist call s.env).2 }, some (port.persist call s.env).1⟩ := rfl

variable {ops : List PersistOp}

/-- A loop whose rest is known to return. -/
theorem rest_apply {ds : TaggedBatch} {s s' : Shard σ} {es : List Event}
    {r : Except StoreError TaggedBatch × List PersistOp} (op : PersistOp)
    (h : commitLoop port ops ds s = ⟨es, s', some r⟩) :
    (do
      let r ← commitLoop port ops ds
      pure (r.1, op :: r.2)) s = ⟨es, s', some (r.1, op :: r.2)⟩ := by
  rw [Proc.bind_apply_some h]
  simp [Outcome.after]

/-- The statement of one operation, then those of the rest. -/
theorem statement_ready {call : StoreCall}
    {rest : Proc Event (Shard σ) (Except StoreError TaggedBatch × List PersistOp)} {ds : TaggedBatch}
    (hrest : ∀ s, rest s = ⟨(callAll port calls s.env).events,
      { s with env := (callAll port calls s.env).env },
      some ((callAll port calls s.env).reply.map fun _ => ds, ops)⟩) (s : Shard σ) :
    statement port call ops rest s = ⟨(callAll port (call :: calls) s.env).events,
      { s with env := (callAll port (call :: calls) s.env).env },
      some ((callAll port (call :: calls) s.env).reply.map fun _ => ds, ops)⟩ := by
  unfold statement
  rw [Proc.bind_apply_some (callStore_apply port call s)]
  rcases hcall : port.persist call s.env with ⟨err | _, env'⟩
  · rw [callAll_cons_error port hcall]
    rfl
  · rw [callAll_cons_ok port hcall]
    dsimp only
    rw [hrest]
    rfl

/-- The loop of `commit` on ready operations: it executes the statements and marks nothing. -/
theorem commitLoop_ready (h : ∀ op ∈ ops, op.Ready) :
    ∀ (ds : TaggedBatch) (s : Shard σ), commitLoop port ops ds s =
      ⟨(callAll port (statements ops) s.env).events,
        { s with env := (callAll port (statements ops) s.env).env },
        some ((callAll port (statements ops) s.env).reply.map fun _ => ds.append (streamRows ops),
          ops)⟩ := by
  induction ops with
  | nil =>
    intro ds s
    simp [commitLoop, statements, streamRows, callAll, TaggedBatch.append_empty, Except.map]
  | cons op ops ih =>
    intro ds s
    obtain ⟨hb, row, hrow, -⟩ := h op List.mem_cons_self
    have ih := ih fun op' hop' => h op' (List.mem_cons_of_mem _ hop')
    have hlive : ¬ op.broken = true := by simp [hb]
    rw [statements_cons hrow, streamRows_cons hrow, ← TaggedBatch.append_assoc]
    unfold commitLoop
    rw [if_neg hlive, hrow]
    cases row with
    | property p =>
      rw [show ds.append (Row.stream op.ack (.property p)) = ds from ds.append_empty]
      exact statement_ready port (fun s => rest_apply port op (ih ds s)) s
    | unset key =>
      rw [show ds.append (Row.stream op.ack (.unset key)) = ds from ds.append_empty]
      exact statement_ready port (fun s => rest_apply port op (ih ds s)) s
    | individual r =>
      have hds : ({ ds with individual := ds.individual ++ [(op.ack, r)] } : TaggedBatch) =
          ds.append (Row.stream op.ack (.individual r)) := by
        simp [TaggedBatch.append, Row.stream]
      simp only [hds]
      exact rest_apply port op (ih _ s)
    | object r =>
      have hds : ({ ds with objects := ds.objects ++ [(op.ack, r)] } : TaggedBatch) =
          ds.append (Row.stream op.ack (.object r)) := by
        simp [TaggedBatch.append, Row.stream]
      simp only [hds]
      exact rest_apply port op (ih _ s)

theorem commitRows_apply (ds : TaggedBatch) (s : Shard σ) :
    commitRows port ds s = ⟨(callAll port ds.calls s.env).events,
      { s with env := (callAll port ds.calls s.env).env },
      some (callAll port ds.calls s.env).reply⟩ := by
  unfold commitRows TaggedBatch.calls
  split_ifs
  · rw [callStore_apply]
    rcases hcall : port.persist (.appendDatastreams ds) s.env with ⟨_ | _, env'⟩
    · rw [callAll_cons_error port hcall]
    · rw [callAll_cons_ok port hcall]
      rfl
  · rfl

/-- The log of an attempt on ready operations, the state it leaves, and its reply. -/
def attemptEvents (ops : List PersistOp) (s : Shard σ) : List Event :=
  .attempt (ops.map (·.ack)) :: (callAll port (storeCalls ops) s.env).events

@[inherit_doc attemptEvents]
def attempted (ops : List PersistOp) (s : Shard σ) : Shard σ :=
  { s with env := (callAll port (storeCalls ops) s.env).env }

@[inherit_doc attemptEvents]
def attemptReply (ops : List PersistOp) (s : Shard σ) : Except StoreError Unit :=
  (callAll port (storeCalls ops) s.env).reply

/-- An attempt on ready operations is the sequence of its store calls. -/
theorem commit_ready (h : ∀ op ∈ ops, op.Ready) (s : Shard σ) :
    commit port ops s =
      ⟨attemptEvents port ops s, attempted port ops s, some (attemptReply port ops s, ops)⟩ := by
  unfold commit attemptEvents attempted attemptReply storeCalls
  rw [Proc.bind_apply_some (Proc.emit_apply _ s), Proc.bind_apply_some (commitLoop_ready port h {} s),
    TaggedBatch.empty_append]
  rcases hrun : callAll port (statements ops) s.env with ⟨es, env, err | _⟩
  · rw [(callAll_append port hrun _).1 err rfl]
    simp [Except.map, Outcome.after]
  · rw [(callAll_append port hrun _).2 rfl]
    simp only [Except.map]
    rw [Proc.bind_apply_some (commitRows_apply port _ _)]
    simp [Outcome.after]

/-- An attempt logs itself and answers of the store. -/
theorem mem_attemptEvents {s : Shard σ} {ev : Event} (h : ev ∈ attemptEvents port ops s) :
    (∃ ids, ev = .attempt ids) ∨
      ∃ call ∈ storeCalls ops, ∃ env, ev = .returned call (port.persist call env).1 := by
  rcases List.mem_cons.1 h with rfl | h
  · exact .inl ⟨_, rfl⟩
  · exact .inr (mem_callAll_events port h)

/-! ## What follows an attempt -/

theorem live_cons_of_not_broken {op : PersistOp} (h : op.broken = false) (ops : List PersistOp) :
    live (op :: ops) = op :: live ops := by
  simp [live, h]

theorem live_ready (h : ∀ op ∈ ops, op.Ready) : live ops = ops := by
  rw [live, List.filter_eq_self]
  intro op hop
  rw [(h op hop).unmarked]
  rfl

theorem finalizeLoop_run (ops : List PersistOp) : ∀ (acc : List PersistOp) (s : Shard σ),
    finalizeLoop ops acc s = ⟨(live ops).map fun op => .acked op.ack, s, some (acc ++ live ops)⟩ := by
  induction ops with
  | nil =>
    intro acc s
    simp [finalizeLoop, live]
  | cons op ops ih =>
    intro acc s
    unfold finalizeLoop
    cases hb : op.broken with
    | true => rw [if_pos rfl, ih, show live (op :: ops) = live ops by simp [live, hb]]
    | false =>
      rw [if_neg Bool.false_ne_true, Proc.bind_apply_some (Proc.emit_apply _ s), ih, live_cons_of_not_broken hb]
      simp [Outcome.after]

/-- The events of `finalize`. -/
def finalizeEvents (ops : List PersistOp) : List Event :=
  ((live ops).map fun op => .acked op.ack) ++
    if port.afterCommit && !(live ops).isEmpty then [.observed (live ops)] else []

theorem mem_finalizeEvents {ev : Event} (h : ev ∈ finalizeEvents port ops) :
    (∃ op : PersistOp, ev = .acked op.ack) ∨ ev = .observed (live ops) := by
  rcases List.mem_append.1 h with h | h
  · obtain ⟨op, -, rfl⟩ := List.mem_map.1 h
    exact .inl ⟨op, rfl⟩
  · split_ifs at h
    · exact .inr (List.mem_singleton.1 h)
    · cases h

theorem finalize_run (ops : List PersistOp) (s : Shard σ) :
    finalize port ops s = ⟨finalizeEvents port ops, s, some ()⟩ := by
  unfold finalize
  rw [Proc.bind_apply_some (finalizeLoop_run ops [] s), List.nil_append]
  unfold finalizeEvents
  split_ifs <;> simp [Outcome.after]

/-! ## Flushes -/

/-- Ready operations and the reply to an attempt on them. -/
structure Attempted (ops : List PersistOp) (s : Shard σ) (reply : Except StoreError Unit) : Prop where
  ready : ∀ op ∈ ops, op.Ready
  reply : attemptReply port ops s = reply

/-- A flush of ready operations. It starts with an attempt, and goes on as the reply says; `nil`, `stop`
and `next` are the passes over the operations of a batch that was refused, each flushed alone. -/
inductive FlushRun : List PersistOp → Shard σ → Outcome Event (Shard σ) Unit → Prop where
  | stored {ops s} (attempt : Attempted port ops s (.ok ())) :
      FlushRun ops s
        ⟨attemptEvents port ops s ++ finalizeEvents port ops, attempted port ops s, some ()⟩
  | parked {ops s err} (attempt : Attempted port ops s (.error err))
      (transient : isPermanentCommitError err = false) (park : s.parks = []) :
      FlushRun ops s ⟨attemptEvents port ops s, attempted port ops s, none⟩
  | retried {ops s err parks o} (attempt : Attempted port ops s (.error err))
      (transient : isPermanentCommitError err = false) (park : s.parks = .elapsed :: parks)
      (rest : FlushRun ops { attempted port ops s with parks := parks } o) :
      FlushRun ops s (o.after (attemptEvents port ops s))
  | quit {ops s err parks} (attempt : Attempted port ops s (.error err))
      (transient : isPermanentCommitError err = false) (park : s.parks = .quit :: parks) :
      FlushRun ops s ⟨attemptEvents port ops s ++ ops.map fun op => .abandoned op.ack,
        { attempted port ops s with parks := parks }, some ()⟩
  | dropped {op s err} (attempt : Attempted port [op] s (.error err))
      (permanent : isPermanentCommitError err = true) :
      FlushRun [op] s ⟨attemptEvents port [op] s ++ [.acked op.ack], attempted port [op] s, some ()⟩
  | split {ops s err o} (attempt : Attempted port ops s (.error err))
      (permanent : isPermanentCommitError err = true) (rest : FlushRun ops (attempted port ops s) o) :
      FlushRun ops s (o.after (attemptEvents port ops s))
  | nil (s) : FlushRun [] s ⟨[], s, some ()⟩
  | stop {op ops s t es} (first : FlushRun [op] s ⟨es, t, none⟩) : FlushRun (op :: ops) s ⟨es, t, none⟩
  | next {op ops s t es o} (first : FlushRun [op] s ⟨es, t, some ()⟩) (rest : FlushRun ops t o) :
      FlushRun (op :: ops) s (o.after es)

section

variable (h : ∀ op ∈ ops, op.Ready)

include h

/-- One pass of the loop, from what is done with refused and with failed operations. -/
theorem attemptFlush_run {refused failed : List PersistOp → Proc Event (Shard σ) Unit} {s : Shard σ}
    (hrefused : ∀ err, Attempted port ops s (.error err) → isPermanentCommitError err = true →
      FlushRun port ops s ((refused ops (attempted port ops s)).after (attemptEvents port ops s)))
    (hfailed : ∀ err, Attempted port ops s (.error err) → isPermanentCommitError err = false →
      FlushRun port ops s ((failed ops (attempted port ops s)).after (attemptEvents port ops s))) :
    FlushRun port ops s (attemptFlush port refused failed ops s) := by
  unfold attemptFlush
  rw [Proc.bind_apply_some (commit_ready port h s)]
  cases hreply : attemptReply port ops s with
  | ok u =>
    dsimp only
    rw [finalize_run]
    exact .stored ⟨h, hreply⟩
  | error err =>
    dsimp only
    cases herr : isPermanentCommitError err with
    | true => exact hrefused err ⟨h, hreply⟩ herr
    | false => exact hfailed err ⟨h, hreply⟩ herr

/-- The loop, from what is done with refused operations. The parkings it goes through are those of the
state. -/
theorem retryLoop_run {refused : List PersistOp → Proc Event (Shard σ) Unit}
    (hrefused : ∀ s err, Attempted port ops s (.error err) → isPermanentCommitError err = true →
      FlushRun port ops s ((refused ops (attempted port ops s)).after (attemptEvents port ops s)))
    (parks : List Park) : ∀ s : Shard σ, s.parks = parks →
      FlushRun port ops s (retryLoop port refused parks ops s) := by
  induction parks with
  | nil =>
    intro s hs
    apply attemptFlush_run port h (hrefused s)
    intro err hattempt htransient
    simpa [Outcome.after] using FlushRun.parked hattempt htransient hs
  | cons park parks ih =>
    intro s hs
    cases park with
    | elapsed =>
      apply attemptFlush_run port h (hrefused s)
      exact fun err hattempt htransient => .retried hattempt htransient hs (ih _ rfl)
    | quit =>
      apply attemptFlush_run port h (hrefused s)
      intro err hattempt htransient
      have habandon : abandon ops { attempted port ops s with parks := parks } =
          ⟨ops.map fun op => .abandoned op.ack, { attempted port ops s with parks := parks }, some ()⟩ := by
        unfold abandon
        rw [live_ready h, Proc.forEach_emit_apply]
      rw [Proc.bind_apply_some (Proc.modify_apply _ _), Proc.after_nil, habandon]
      exact .quit hattempt htransient hs

omit h in
theorem flushOne_run {op : PersistOp} (hop : op.Ready) (s : Shard σ) :
    FlushRun port [op] s (flushOne port op s) := by
  have hops : ∀ op' ∈ [op], op'.Ready := fun op' hop' => List.mem_singleton.1 hop' ▸ hop
  unfold flushOne
  exact retryLoop_run port hops (fun s err => .dropped) s.parks s rfl

/-- The operations of a refused batch are flushed one after the other. -/
theorem forEach_run : ∀ s : Shard σ, FlushRun port ops s (Proc.forEach (flushOne port) ops s) := by
  induction ops with
  | nil => exact .nil
  | cons op ops ih =>
    intro s
    have hfirst := flushOne_run port (h op List.mem_cons_self) s
    have hrest := ih fun op' hop' => h op' (List.mem_cons_of_mem _ hop')
    unfold Proc.forEach
    rcases hrun : flushOne port op s with ⟨es, t, _ | u⟩ <;> rw [hrun] at hfirst
    · rw [Proc.bind_apply_none hrun]
      exact .stop hfirst
    · rw [Proc.bind_apply_some hrun]
      exact .next hfirst (hrest t)

theorem flushOps_run (s : Shard σ) : FlushRun port ops s (flushOps port ops s) := by
  unfold flushOps
  refine retryLoop_run port h (fun s err hattempt hpermanent => ?_) s.parks s rfl
  unfold splitRefused
  split_ifs with hmany
  · exact .split hattempt hpermanent (forEach_run port h _)
  · rcases ops with _ | ⟨op, _ | ⟨op', ops⟩⟩
    · -- an attempt on nothing is not refused
      cases hattempt.reply
    · exact .dropped hattempt hpermanent
    · simp at hmany

end

theorem FlushRun.received {s : Shard σ} {o : Outcome Event (Shard σ) Unit} (h : FlushRun port ops s o) :
    o.state.received = s.received := by
  induction h with
  | retried _ _ _ _ ih => exact ih
  | split _ _ _ ih => exact ih
  | stop _ ih => exact ih
  | next _ _ ih ih' => exact ih'.trans ih
  | _ => rfl

/-- A flush does nothing without operations; when it returns, the batch is empty. -/
theorem flush_cases (s : Shard σ) (h : ∀ op ∈ s.ops, op.Ready) :
    s.ops = [] ∧ flush port s = ⟨[], s, some ()⟩ ∨
      ∃ o, FlushRun port s.ops s o ∧ flush port s = ⟨o.events, o.value.elim o.state fun _ =>
        { o.state with ops := [], pendingPrev := fun _ => none }, o.value⟩ := by
  unfold flush
  rw [Proc.bind_apply_some (Proc.get_apply s), Proc.after_nil]
  by_cases hempty : s.ops.isEmpty = true
  · rw [if_pos hempty]
    exact .inl ⟨List.isEmpty_iff.1 hempty, rfl⟩
  · rw [if_neg hempty]
    refine .inr ⟨_, flushOps_run port h s, ?_⟩
    rcases hrun : flushOps port s.ops s with ⟨es, t, _ | u⟩
    · rw [Proc.bind_apply_none hrun]
      rfl
    · rw [Proc.bind_apply_some hrun]
      simp [Outcome.after]

theorem flush_received (s : Shard σ) (h : ∀ op ∈ s.ops, op.Ready) :
    (flush port s).state.received = s.received := by
  rcases flush_cases port s h with ⟨-, hrun⟩ | ⟨⟨es, t, _ | u⟩, ho, hrun⟩ <;> rw [hrun]
  · exact ho.received
  · exact ho.received

/-- A loop whose first attempt is the last, whatever would follow a failure. -/
theorem retryLoop_of_attempt {refused : List PersistOp → Proc Event (Shard σ) Unit} {s : Shard σ}
    {o : Outcome Event (Shard σ) Unit} (parks : List Park)
    (hattempt : ∀ failed, attemptFlush port refused failed ops s = o) :
    retryLoop port refused parks ops s = o := by
  cases parks with
  | nil => exact hattempt _
  | cons park parks => cases park <;> exact hattempt _

/-- The end of a flush. -/
theorem flush_of_loop {s t : Shard σ} {es : List Event} (hops : s.ops = ops) (hne : ops ≠ [])
    (hloop : retryLoop port (splitRefused port) s.parks ops s = ⟨es, t, some ()⟩) :
    flush port s = ⟨es, { t with ops := [], pendingPrev := fun _ => none }, some ()⟩ := by
  have hflushOps : flushOps port ops s = ⟨es, t, some ()⟩ := by
    unfold flushOps
    exact hloop
  unfold flush
  rw [Proc.bind_apply_some (Proc.get_apply s), Proc.after_nil, hops, if_neg (by simpa using hne),
    Proc.bind_apply_some hflushOps]
  simp [Proc.modify_apply, Outcome.after]

/-! ## Clean logs -/

/-- No operation without a row, and nothing in a transaction that the store's own check refuses. -/
def Event.Clean : Event → Prop
  | .unconverted _ _ => False
  | .returned (.appendDatastreams ds) _ => validateRows ds.rows.individual = .ok ()
  | _ => True

variable {port}

section

variable (h : ∀ op ∈ ops, op.Ready)

include h

theorem streamRows_valid : ∀ r ∈ (streamRows ops).individual, r.2.validate = .ok () := by
  induction ops with
  | nil =>
    intro r hr
    cases hr
  | cons op ops ih =>
    obtain ⟨-, row, hrow, hvalid⟩ := h op List.mem_cons_self
    have ih := ih fun op' hop' => h op' (List.mem_cons_of_mem _ hop')
    rw [streamRows_cons hrow]
    intro r hr
    rcases List.mem_append.1 hr with hr | hr
    · cases row with
      | individual r' =>
        obtain rfl := List.mem_singleton.1 hr
        exact hvalid
      | _ => cases hr
    · exact ih r hr

/-- The calls of an attempt on ready operations, whatever their replies. -/
theorem storeCalls_clean {call : StoreCall} (hcall : call ∈ storeCalls ops) (reply : Except StoreError Unit) :
    (Event.returned call reply).Clean := by
  cases call with
  | upsertProperty id p => trivial
  | unsetProperty id key => trivial
  | appendDatastreams ds =>
    have hds : ds = streamRows ops := by
      rcases List.mem_append.1 hcall with hcall | hcall
      · exact absurd hcall (append_not_mem_statements ops ds)
      · unfold TaggedBatch.calls at hcall
        split_ifs at hcall
        · simpa using hcall
        · cases hcall
    subst hds
    refine validateRows_eq_ok_iff.2 fun r hr => ?_
    obtain ⟨r', hr', rfl⟩ := List.mem_map.1 hr
    exact streamRows_valid h r' hr'

theorem attemptEvents_clean (s : Shard σ) : ∀ ev ∈ attemptEvents port ops s, ev.Clean := by
  intro ev hev
  rcases mem_attemptEvents port hev with ⟨ids, rfl⟩ | ⟨call, hcall, env, rfl⟩
  · trivial
  · exact storeCalls_clean h hcall _

end

/-- A flush of ready operations marks none of them, and the store never refuses its rows unseen. -/
theorem FlushRun.clean {s : Shard σ} {o : Outcome Event (Shard σ) Unit} (h : FlushRun port ops s o) :
    ∀ ev ∈ o.events, ev.Clean := by
  induction h with
  | stored attempt =>
    intro ev hev
    rcases List.mem_append.1 hev with hev | hev
    · exact attemptEvents_clean attempt.ready _ ev hev
    · rcases mem_finalizeEvents port hev with ⟨op, rfl⟩ | rfl <;> trivial
  | parked attempt => exact attemptEvents_clean attempt.ready _
  | retried attempt _ _ _ ih =>
    exact List.forall_mem_append.2 ⟨attemptEvents_clean attempt.ready _, ih⟩
  | quit attempt =>
    refine List.forall_mem_append.2 ⟨attemptEvents_clean attempt.ready _, ?_⟩
    exact List.forall_mem_map.2 fun _ _ => trivial
  | dropped attempt =>
    exact List.forall_mem_append.2 ⟨attemptEvents_clean attempt.ready _, by simp [Event.Clean]⟩
  | split attempt _ _ ih => exact List.forall_mem_append.2 ⟨attemptEvents_clean attempt.ready _, ih⟩
  | nil s => exact fun _ hev => by cases hev
  | stop _ ih => exact ih
  | next _ _ ih ih' => exact List.forall_mem_append.2 ⟨ih, ih'⟩

end

end Astrate.Engine
