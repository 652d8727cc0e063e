import Astrate.Engine.Pipeline

/-!
# Isolation of refused operations

A flush against a database that refuses the operations of some messages for good, alone and in any
batch, and fails transiently finitely often. Whatever is refused, and whenever the failures come, the
flush ends with the tables that the other operations give when they are applied one by one
(`flush_isolates`), although property statements are executed outside the transaction and repeated
when a batch is retried or split.
-/

set_option autoImplicit false

namespace Astrate.Engine

open Astrate.GoLib
open Astrate.Store (Tables Property PropertyKey validateRows)

/-! ## Serial application -/

/-- The effect of one row on the tables. -/
def applyRow (t : Tables) : Row → Tables
  | .property p => t.upsertProperty p
  | .unset key => t.unsetProperty key
  | .individual r => { t with individual := t.individual ++ [r] }
  | .object r => { t with objects := t.objects ++ [r] }

/-- The effect of one operation, committed alone. -/
def applyOp (t : Tables) (op : PersistOp) : Tables :=
  match op.row with
  | .ok row => applyRow t row
  | .error _ => t

/-- The operations applied one by one. -/
def serial (t : Tables) (ops : List PersistOp) : Tables := ops.foldl applyOp t

/-! ## The database -/

/-- Failures that a retry may overcome. -/
abbrev TransientError := { err : StoreError // isPermanentCommitError err = false }

/-- Refusals that no retry can overcome. -/
abbrev PermanentError := { err : StoreError // isPermanentCommitError err = true }

/-- The tables, and which of the calls to come fail transiently. -/
structure Database where
  tables : Tables
  faults : List (Option TransientError)

/-- The messages a call is about. -/
def StoreCall.ids : StoreCall → List Nat
  | .upsertProperty id _ => [id]
  | .unsetProperty id _ => [id]
  | .appendDatastreams ds => ds.individual.map Prod.fst ++ ds.objects.map Prod.fst

/-- The effect of a call that is not refused. `AppendDatastreams` checks the rows itself. -/
def StoreCall.perform (t : Tables) : StoreCall → Except StoreError Tables
  | .upsertProperty _ p => .ok (t.upsertProperty p)
  | .unsetProperty _ key => .ok (t.unsetProperty key)
  | .appendDatastreams ds =>
    match t.appendDatastreams ds.rows with
    | .ok t => .ok t
    | .error _ => .error .other

/-- A call that meets no transient failure: it is refused if it is about a poisoned message. -/
def answer (poisoned : Nat → Bool) (refusal : StoreCall → PermanentError) (call : StoreCall)
    (db : Database) : Except StoreError Unit × Database :=
  if call.ids.any poisoned then (.error (refusal call).1, db)
  else
    match call.perform db.tables with
    | .ok t => (.ok (), { db with tables := t })
    | .error err => (.error err, db)

/-- A database that refuses the poisoned messages. -/
def poisonPort (poisoned : Nat → Bool) (refusal : StoreCall → PermanentError) : BatchPort Database where
  persist := fun call db =>
    match db.faults with
    | [] => answer poisoned refusal call db
    | none :: faults => answer poisoned refusal call { db with faults := faults }
    | some err :: faults => (.error err.1, { db with faults := faults })

/-- The transient failures to come. -/
def pending (faults : List (Option TransientError)) : Nat := faults.countP Option.isSome

/-! ## What a log tells -/

/-- The acknowledgments of a log, in order. -/
def ackedIds (es : List Event) : List Nat :=
  es.filterMap fun
    | .acked id => some id
    | _ => none

/-- The operations the observers were given, in order. -/
def observedOps (es : List Event) : List PersistOp :=
  es.flatMap fun
    | .observed ops => ops
    | _ => []

/-- The operations the database does not refuse. -/
def healthy (poisoned : Nat → Bool) (ops : List PersistOp) : List PersistOp :=
  ops.filter fun op => !poisoned op.ack

/-- The parkings to come suffice for the failures to come. -/
def Enough (s : Shard Database) : Prop :=
  List.replicate (pending s.env.faults) .elapsed <+: s.parks

/-- What a flush of `ops` from the state `s` comes to. -/
structure Isolated (poisoned : Nat → Bool) (ops : List PersistOp) (s : Shard Database)
    (es : List Event) (s' : Shard Database) : Prop where
  tables : s'.env.tables = serial s.env.tables (healthy poisoned ops)
  acked : ackedIds es = ops.map (·.ack)
  observed : observedOps es = healthy poisoned ops
  enough : Enough s'

/-! ## Serial application in closed form -/

/-- What a row writes to the properties. -/
def Row.writes : Row → List (PropertyKey × Option Property)
  | .property p => [(p.key, some p)]
  | .unset key => [(key, none)]
  | .individual _ | .object _ => []

/-- What an operation writes to the properties. -/
def PersistOp.writes (op : PersistOp) : List (PropertyKey × Option Property) :=
  match op.row with
  | .ok row => row.writes
  | .error _ => []

theorem upsertProperty_eq (t : Tables) (p : Property) : t.upsertProperty p =
    { t with properties := Function.update t.properties p.key (some p) } := by
  rw [Tables.upsertProperty, Tables.mk.injEq]
  exact ⟨funext fun k => (Function.update_apply t.properties p.key (some p) k).symm, rfl, rfl⟩

theorem unsetProperty_eq (t : Tables) (key : PropertyKey) : t.unsetProperty key =
    { t with properties := Function.update t.properties key none } := by
  rw [Tables.unsetProperty, Tables.mk.injEq]
  exact ⟨funext fun k => (Function.update_apply t.properties key none k).symm, rfl, rfl⟩

theorem applyRow_eq (t : Tables) (id : Nat) (row : Row) :
    applyRow t row = ⟨applyWrites t.properties row.writes,
      t.individual ++ (row.stream id).individual.map Prod.snd,
      t.objects ++ (row.stream id).objects.map Prod.snd⟩ := by
  cases row <;>
    simp [applyRow, upsertProperty_eq, unsetProperty_eq, Row.writes, Row.stream, applyWrites]

/-- The properties are those of the writes in order, and the datastream tables grow by the rows in
order. -/
theorem serial_eq (ops : List PersistOp) (t : Tables) :
    serial t ops = ⟨applyWrites t.properties (ops.flatMap PersistOp.writes),
      t.individual ++ (streamRows ops).individual.map Prod.snd,
      t.objects ++ (streamRows ops).objects.map Prod.snd⟩ := by
  induction ops generalizing t with
  | nil => simp [serial, applyWrites, streamRows]
  | cons op ops ih =>
    have hstep : serial t (op :: ops) = serial (applyOp t op) ops := rfl
    rw [hstep, ih, List.flatMap_cons, applyWrites_append]
    cases hrow : op.row with
    | error err => simp [applyOp, PersistOp.writes, streamRows, hrow, applyWrites]
    | ok row =>
      rw [streamRows_cons hrow]
      simp [applyOp, PersistOp.writes, hrow, applyRow_eq t op.ack, TaggedBatch.append]

/-- Property writes that are repeated later leave no trace. -/
theorem serial_absorb {ops : List PersistOp} {t : Tables} {ws : List (PropertyKey × Option Property)}
    (h : ∀ w ∈ ws, w.1 ∈ (ops.flatMap PersistOp.writes).map Prod.fst) :
    serial { t with properties := applyWrites t.properties ws } ops = serial t ops := by
  rw [serial_eq, serial_eq, applyWrites_absorb h]

/-! ## Calls of an attempt -/

/-- The tables after a call that is performed. -/
def StoreCall.after (t : Tables) (call : StoreCall) : Tables := (call.perform t).toOption.getD t

/-- The store's own check lets the call through. -/
def StoreCall.Performs (call : StoreCall) : Prop := ∀ t, call.perform t = .ok (call.after t)

theorem perform_append {ds : TaggedBatch} (h : validateRows ds.rows.individual = .ok ()) (t : Tables) :
    (StoreCall.appendDatastreams ds).perform t = .ok { t with
      individual := t.individual ++ ds.individual.map Prod.snd
      objects := t.objects ++ ds.objects.map Prod.snd } := by
  rw [StoreCall.perform, Tables.appendDatastreams, h]
  rfl

/-- What a call writes to the properties. -/
def StoreCall.writes : StoreCall → List (PropertyKey × Option Property)
  | .upsertProperty _ p => [(p.key, some p)]
  | .unsetProperty _ key => [(key, none)]
  | .appendDatastreams _ => []

section Calls

variable {poisoned : Nat → Bool} {refusal : StoreCall → PermanentError}

/-- How a sequence of calls ends: all were performed, or one was refused, or one failed transiently,
and those before it were performed. -/
inductive CallsEnd (poisoned : Nat → Bool) (calls : List StoreCall) (db : Database)
    (r : CallRun Database) : Prop where
  | performed (reply : r.reply = .ok ()) (healthy : ∀ call ∈ calls, call.ids.any poisoned = false)
      (tables : r.env.tables = calls.foldl StoreCall.after db.tables)
      (faults : pending r.env.faults = pending db.faults)
  | refused (err : StoreError) (reply : r.reply = .error err)
      (permanent : isPermanentCommitError err = true) (done : List StoreCall) (call : StoreCall)
      (rest : List StoreCall) (split : calls = done ++ call :: rest)
      (poison : call.ids.any poisoned = true)
      (healthy : ∀ call ∈ done, call.ids.any poisoned = false)
      (tables : r.env.tables = done.foldl StoreCall.after db.tables)
      (faults : pending r.env.faults = pending db.faults)
  | failed (err : StoreError) (reply : r.reply = .error err)
      (transient : isPermanentCommitError err = false) (done : List StoreCall) (call : StoreCall)
      (rest : List StoreCall) (split : calls = done ++ call :: rest)
      (healthy : ∀ call ∈ done, call.ids.any poisoned = false)
      (tables : r.env.tables = done.foldl StoreCall.after db.tables)
      (faults : pending r.env.faults + 1 = pending db.faults)

/-- The answer of the database to one call. -/
theorem persist_cases (call : StoreCall) (db : Database) :
    (∃ faults, (poisonPort poisoned refusal).persist call db =
        answer poisoned refusal call { db with faults := faults } ∧
      pending faults = pending db.faults) ∨
    ∃ err : TransientError, ∃ faults, (poisonPort poisoned refusal).persist call db =
        (.error err.1, { db with faults := faults }) ∧ pending faults + 1 = pending db.faults := by
  obtain ⟨t, faults⟩ := db
  cases faults with
  | nil => exact .inl ⟨[], rfl, rfl⟩
  | cons fault faults =>
    cases fault with
    | none => exact .inl ⟨faults, rfl, by simp [pending]⟩
    | some err => exact .inr ⟨err, faults, rfl, by simp [pending]⟩

theorem answer_poisoned {call : StoreCall} (h : call.ids.any poisoned = true) (db : Database) :
    answer poisoned refusal call db = (.error (refusal call).1, db) := if_pos h

theorem answer_healthy {call : StoreCall} (h : call.ids.any poisoned = false) (hcall : call.Performs)
    (db : Database) :
    answer poisoned refusal call db = (.ok (), { db with tables := call.after db.tables }) := by
  unfold answer
  rw [if_neg (by simp [h]), hcall]

/-- A call that is performed, in front of others. -/
theorem CallsEnd.cons {call : StoreCall} {calls : List StoreCall} {db db' : Database}
    {r : CallRun Database} {es : List Event} (hcall : call.ids.any poisoned = false)
    (htables : db'.tables = call.after db.tables) (hfaults : pending db'.faults = pending db.faults)
    (h : CallsEnd poisoned calls db' r) : CallsEnd poisoned (call :: calls) db ⟨es, r.env, r.reply⟩ := by
  cases h with
  | performed reply healthy tables faults =>
    refine .performed reply ?_ ?_ (faults.trans hfaults)
    · exact List.forall_mem_cons.2 ⟨hcall, healthy⟩
    · rw [List.foldl_cons, ← htables]
      exact tables
  | refused err reply permanent done call' rest split poison healthy tables faults =>
    subst split
    refine .refused err reply permanent (call :: done) call' rest rfl poison ?_ ?_
      (faults.trans hfaults)
    · exact List.forall_mem_cons.2 ⟨hcall, healthy⟩
    · rw [List.foldl_cons, ← htables]
      exact tables
  | failed err reply transient done call' rest split healthy tables faults =>
    subst split
    refine .failed err reply transient (call :: done) call' rest rfl ?_ ?_ (faults.trans hfaults)
    · exact List.forall_mem_cons.2 ⟨hcall, healthy⟩
    · rw [List.foldl_cons, ← htables]
      exact tables

theorem callAll_end {calls : List StoreCall} (hcalls : ∀ call ∈ calls, call.Performs)
    (db : Database) : CallsEnd poisoned calls db (callAll (poisonPort poisoned refusal) calls db) := by
  induction calls generalizing db with
  | nil => exact .performed rfl nofun rfl rfl
  | cons call calls ih =>
    have hcall := hcalls call List.mem_cons_self
    have ih := ih fun c hc => hcalls c (List.mem_cons_of_mem _ hc)
    have hnone : ∀ c ∈ ([] : List StoreCall), c.ids.any poisoned = false := by simp
    rcases @persist_cases poisoned refusal call db with
      ⟨faults, hrun, hfaults⟩ | ⟨err, faults, hrun, hfaults⟩
    · cases hpoison : call.ids.any poisoned with
      | true =>
        rw [answer_poisoned hpoison] at hrun
        rw [callAll_cons_error _ hrun]
        exact .refused _ rfl (refusal call).2 [] call calls rfl hpoison hnone rfl hfaults
      | false =>
        rw [answer_healthy hpoison hcall] at hrun
        rw [callAll_cons_ok _ hrun]
        exact .cons hpoison rfl hfaults (ih _)
    · rw [callAll_cons_error _ hrun]
      exact .failed _ rfl err.2 [] call calls rfl hnone rfl hfaults

end Calls

/-! ## The calls of ready operations -/

section Ready

variable {ops : List PersistOp} (hops : ∀ op ∈ ops, op.Ready)

include hops

/-- A statement comes from an operation, and makes its writes. -/
theorem exists_of_mem_statements {call : StoreCall} (h : call ∈ statements ops) :
    ∃ op ∈ ops, call.ids = [op.ack] ∧ call.writes = op.writes ∧ call.Performs := by
  induction ops with
  | nil => cases h
  | cons op ops ih =>
    obtain ⟨-, row, hrow, -⟩ := hops op List.mem_cons_self
    rw [statements_cons hrow] at h
    rcases List.mem_append.1 h with h | h
    · refine ⟨op, List.mem_cons_self, ?_⟩
      rw [PersistOp.writes, hrow]
      cases row with
      | property p =>
        obtain rfl := List.mem_singleton.1 h
        exact ⟨rfl, rfl, fun t => rfl⟩
      | unset key =>
        obtain rfl := List.mem_singleton.1 h
        exact ⟨rfl, rfl, fun t => rfl⟩
      | individual r => cases h
      | object r => cases h
    · obtain ⟨op', hop', hcall⟩ := ih (fun op' hop' => hops op' (List.mem_cons_of_mem _ hop')) h
      exact ⟨op', List.mem_cons_of_mem _ hop', hcall⟩

/-- The calls of an attempt are about the messages of its operations. -/
theorem mem_ids_storeCalls {id : Nat} : id ∈ (storeCalls ops).flatMap StoreCall.ids ↔ id ∈ ops.map (·.ack) := by
  have hcalls : id ∈ (streamRows ops).calls.flatMap StoreCall.ids ↔
      id ∈ (StoreCall.appendDatastreams (streamRows ops)).ids := by
    unfold TaggedBatch.calls
    split_ifs with h
    · simp
    · simp only [Bool.or_eq_true, Bool.not_eq_true', List.isEmpty_eq_false_iff, not_or, not_not] at h
      simp [StoreCall.ids, h.1, h.2]
  rw [storeCalls, List.flatMap_append, List.mem_append, hcalls]
  clear hcalls
  induction ops with
  | nil => simp [statements, streamRows, StoreCall.ids]
  | cons op ops ih =>
    obtain ⟨-, row, hrow, -⟩ := hops op List.mem_cons_self
    have hrest : (id ∈ (statements ops).flatMap StoreCall.ids ∨
        id ∈ (StoreCall.appendDatastreams (streamRows ops)).ids) ↔ id ∈ ops.map (·.ack) :=
      ih fun op' hop' => hops op' (List.mem_cons_of_mem _ hop')
    rw [statements_cons hrow, streamRows_cons hrow, List.map_cons, List.mem_cons, ← hrest]
    cases row <;>
      simp [Row.statement, Row.stream, TaggedBatch.append, StoreCall.ids, or_assoc, or_left_comm]

/-- All calls of an attempt are performed exactly when all its operations are healthy. -/
theorem storeCalls_healthy_iff {poisoned : Nat → Bool} :
    (∀ call ∈ storeCalls ops, call.ids.any poisoned = false) ↔ healthy poisoned ops = ops := by
  have hids : (∀ call ∈ storeCalls ops, call.ids.any poisoned = false) ↔
      ∀ id ∈ (storeCalls ops).flatMap StoreCall.ids, poisoned id = false := by
    grind
  rw [hids, healthy, List.filter_eq_self]
  constructor
  · intro h op hop
    rw [h op.ack ((mem_ids_storeCalls hops).2 (List.mem_map_of_mem hop))]
    rfl
  · intro h id hid
    obtain ⟨op, hop, rfl⟩ := List.mem_map.1 ((mem_ids_storeCalls hops).1 hid)
    simpa using h op hop

theorem storeCalls_perform : ∀ call ∈ storeCalls ops, call.Performs := by
  intro call hcall
  cases call with
  | upsertProperty id p => exact fun t => rfl
  | unsetProperty id key => exact fun t => rfl
  | appendDatastreams ds =>
    intro t
    have hvalid : validateRows ds.rows.individual = .ok () := storeCalls_clean hops hcall (.ok ())
    rw [StoreCall.after, perform_append hvalid]
    rfl

omit hops in
/-- The statements of an attempt only write properties. -/
theorem foldl_statements {done : List StoreCall} (h : ∀ call ∈ done, call ∈ statements ops)
    (t : Tables) : done.foldl StoreCall.after t =
      { t with properties := applyWrites t.properties (done.flatMap StoreCall.writes) } := by
  induction done generalizing t with
  | nil => rfl
  | cons call done ih =>
    have hstep : call.after t =
        { t with properties := applyWrites t.properties call.writes } := by
      cases call with
      | appendDatastreams ds =>
        exact absurd (h _ List.mem_cons_self) (append_not_mem_statements ops ds)
      | upsertProperty id p => exact upsertProperty_eq t p
      | unsetProperty id key => exact unsetProperty_eq t key
    rw [List.foldl_cons, ih fun c hc => h c (List.mem_cons_of_mem _ hc), hstep, List.flatMap_cons,
      applyWrites_append]

theorem statements_writes : (statements ops).flatMap StoreCall.writes = ops.flatMap PersistOp.writes := by
  induction ops with
  | nil => rfl
  | cons op ops ih =>
    obtain ⟨-, row, hrow, -⟩ := hops op List.mem_cons_self
    have ih := ih fun op' hop' => hops op' (List.mem_cons_of_mem _ hop')
    rw [statements_cons hrow, List.flatMap_append, ih, List.flatMap_cons, PersistOp.writes, hrow]
    cases row <;> rfl

/-- An attempt that is performed to its end is the serial application of its operations. -/
theorem foldl_storeCalls (t : Tables) : (storeCalls ops).foldl StoreCall.after t = serial t ops := by
  have hcalls : ∀ t, (streamRows ops).calls.foldl StoreCall.after t =
      { t with
        individual := t.individual ++ (streamRows ops).individual.map Prod.snd
        objects := t.objects ++ (streamRows ops).objects.map Prod.snd } := by
    intro t
    unfold TaggedBatch.calls
    split_ifs with h
    · have hcall : .appendDatastreams (streamRows ops) ∈ storeCalls ops := by
        simp [storeCalls, TaggedBatch.calls, h]
      have hvalid : validateRows (streamRows ops).rows.individual = .ok () :=
        storeCalls_clean hops hcall (.ok ())
      rw [List.foldl_cons, List.foldl_nil, StoreCall.after, perform_append hvalid]
      rfl
    · simp only [Bool.or_eq_true, Bool.not_eq_true', List.isEmpty_eq_false_iff, not_or, not_not] at h
      simp [h.1, h.2]
  rw [storeCalls, List.foldl_append, foldl_statements (fun _ h => h), statements_writes hops, hcalls, serial_eq]

/-- What an attempt has done when it is cut short is done again by the healthy operations. -/
theorem serial_partial {poisoned : Nat → Bool} {done rest : List StoreCall} {call : StoreCall}
    (hsplit : storeCalls ops = done ++ call :: rest)
    (hhealthy : ∀ call ∈ done, call.ids.any poisoned = false) (t : Tables) :
    serial (done.foldl StoreCall.after t) (healthy poisoned ops) = serial t (healthy poisoned ops) := by
  -- Only the transaction comes after the statements, so what was done is among them.
  have hdone : done <+: statements ops := by
    have hlen : (storeCalls ops).length ≤ (statements ops).length + 1 := by
      unfold storeCalls TaggedBatch.calls
      split_ifs <;> simp
    have hshort : done.length < (storeCalls ops).length := by simp [hsplit]
    exact List.prefix_of_prefix_length_le ⟨_, hsplit.symm⟩ (List.prefix_append _ _) (by omega)
  rw [foldl_statements fun c hc => hdone.subset hc]
  apply serial_absorb
  intro w hw
  obtain ⟨c, hc, hwc⟩ := List.mem_flatMap.1 hw
  obtain ⟨op, hop, hids, hwrites, -⟩ := exists_of_mem_statements hops (hdone.subset hc)
  have hop' : op ∈ healthy poisoned ops := by
    have hid := hhealthy c hc
    rw [hids] at hid
    exact List.mem_filter.2 ⟨hop, by simpa using hid⟩
  apply List.mem_map_of_mem
  exact List.mem_flatMap.2 ⟨op, hop', hwrites ▸ hwc⟩

end Ready

/-! ## Flushing -/

theorem ackedIds_append (es es' : List Event) : ackedIds (es ++ es') = ackedIds es ++ ackedIds es' :=
  List.filterMap_append

theorem observedOps_append (es es' : List Event) :
    observedOps (es ++ es') = observedOps es ++ observedOps es' := List.flatMap_append

theorem healthy_append (poisoned : Nat → Bool) (ops ops' : List PersistOp) :
    healthy poisoned (ops ++ ops') = healthy poisoned ops ++ healthy poisoned ops' :=
  List.filter_append ..

theorem serial_append (t : Tables) (ops ops' : List PersistOp) :
    serial t (ops ++ ops') = serial (serial t ops) ops' := List.foldl_append

section Flush

variable {poisoned : Nat → Bool} {refusal : StoreCall → PermanentError} {ops : List PersistOp}

/-- No acknowledgment and no observation belongs to an attempt itself. -/
theorem attemptEvents_quiet (port : BatchPort Database) (s : Shard Database) :
    ackedIds (attemptEvents port ops s) = [] ∧ observedOps (attemptEvents port ops s) = [] := by
  constructor
  · refine List.filterMap_eq_nil_iff.2 fun ev hev => ?_
    rcases mem_attemptEvents port hev with ⟨ids, rfl⟩ | ⟨call, -, env, rfl⟩ <;> rfl
  · refine List.flatMap_eq_nil_iff.2 fun ev hev => ?_
    rcases mem_attemptEvents port hev with ⟨ids, rfl⟩ | ⟨call, -, env, rfl⟩ <;> rfl

/-- An attempt that was cut short, and what follows it. -/
theorem Isolated.after_attempt {s s₁ s' : Shard Database} {es : List Event}
    (h : Isolated poisoned ops s₁ es s') (htables : serial s₁.env.tables (healthy poisoned ops) =
      serial s.env.tables (healthy poisoned ops)) (port : BatchPort Database) :
    Isolated poisoned ops s (attemptEvents port ops s ++ es) s' where
  tables := h.tables.trans htables
  acked := by
    rw [ackedIds_append, (attemptEvents_quiet port s).1, List.nil_append]
    exact h.acked
  observed := by
    rw [observedOps_append, (attemptEvents_quiet port s).2, List.nil_append]
    exact h.observed
  enough := h.enough

variable {s : Shard Database} {err : StoreError}

/-- An attempt that succeeds: every operation was healthy. -/
theorem Attempted.performed (h : Attempted (poisonPort poisoned refusal) ops s (.ok ())) :
    healthy poisoned ops = ops ∧
      (attempted (poisonPort poisoned refusal) ops s).env.tables = serial s.env.tables ops ∧
      pending (attempted (poisonPort poisoned refusal) ops s).env.faults = pending s.env.faults := by
  have hreply := h.reply
  unfold attemptReply at hreply
  cases @callAll_end poisoned refusal _ (storeCalls_perform h.ready) s.env with
  | performed reply healthy tables faults =>
    exact ⟨(storeCalls_healthy_iff h.ready).1 healthy, tables.trans (foldl_storeCalls h.ready _), faults⟩
  | refused err reply permanent done call rest split poison healthy tables faults =>
    rw [reply] at hreply
    cases hreply
  | failed err reply transient done call rest split healthy tables faults =>
    rw [reply] at hreply
    cases hreply

/-- An attempt that is refused, or fails. What it has done is done again by the healthy operations. -/
theorem Attempted.cut_short (h : Attempted (poisonPort poisoned refusal) ops s (.error err)) :
    serial (attempted (poisonPort poisoned refusal) ops s).env.tables (healthy poisoned ops) =
        serial s.env.tables (healthy poisoned ops) ∧
      (isPermanentCommitError err = true → healthy poisoned ops ≠ ops ∧
        pending (attempted (poisonPort poisoned refusal) ops s).env.faults = pending s.env.faults) ∧
      (isPermanentCommitError err = false →
        pending (attempted (poisonPort poisoned refusal) ops s).env.faults + 1 = pending s.env.faults) := by
  have hreply := h.reply
  unfold attemptReply at hreply
  unfold attempted
  cases @callAll_end poisoned refusal _ (storeCalls_perform h.ready) s.env with
  | performed reply healthy tables faults =>
    rw [reply] at hreply
    cases hreply
  | refused err' reply permanent done call rest split poison healthy tables faults =>
    obtain rfl : err' = err := Except.error.inj (reply.symm.trans hreply)
    have hsick : Engine.healthy poisoned ops ≠ ops := by
      intro hall
      have := (storeCalls_healthy_iff h.ready).2 hall call (by simp [split])
      rw [poison] at this
      cases this
    refine ⟨?_, fun _ => ⟨hsick, faults⟩, fun htransient => ?_⟩
    · rw [tables]
      exact serial_partial h.ready split healthy _
    · rw [permanent] at htransient
      cases htransient
  | failed err' reply transient done call rest split healthy tables faults =>
    obtain rfl : err' = err := Except.error.inj (reply.symm.trans hreply)
    refine ⟨?_, fun hpermanent => ?_, fun _ => faults⟩
    · rw [tables]
      exact serial_partial h.ready split healthy _
    · rw [transient] at hpermanent
      cases hpermanent

/-- Every operation was healthy: all are acknowledged and observed. -/
theorem Attempted.isolated_finalize (h : Attempted (poisonPort poisoned refusal) ops s (.ok ()))
    (henough : Enough s) :
    Isolated poisoned ops s (attemptEvents (poisonPort poisoned refusal) ops s ++
        finalizeEvents (poisonPort poisoned refusal) ops)
      (attempted (poisonPort poisoned refusal) ops s) := by
  obtain ⟨hhealthy, htables, hfaults⟩ := h.performed
  have hquiet := @attemptEvents_quiet ops (poisonPort poisoned refusal) s
  refine ⟨hhealthy.symm ▸ htables, ?_, ?_, ?_⟩
  · rw [ackedIds_append, hquiet.1, List.nil_append, finalizeEvents, live_ready h.ready, ackedIds_append]
    have hacks : ackedIds (ops.map fun op => .acked op.ack) = ops.map (·.ack) := by
      simp [ackedIds, List.filterMap_map]
    split_ifs <;> simp [ackedIds]
  · rw [observedOps_append, hquiet.2, List.nil_append, finalizeEvents, live_ready h.ready,
      observedOps_append, hhealthy]
    have hobserved : observedOps (ops.map fun op => .acked op.ack) = [] := by
      simp [observedOps, List.flatMap_map]
    cases ops with
    | nil => rfl
    | cons op ops => simp [observedOps, poisonPort]
  · unfold Enough
    rw [hfaults]
    exact henough

/-- A failure uses up one parking. -/
theorem enough_cons {s₁ : Shard Database} (henough : Enough s)
    (hfaults : pending s₁.env.faults + 1 = pending s.env.faults) :
    ∃ parks, s.parks = .elapsed :: parks ∧ Enough { s₁ with parks := parks } := by
  unfold Enough at henough
  rw [← hfaults, List.replicate_succ] at henough
  obtain ⟨rest, hrest⟩ := henough
  exact ⟨_, hrest.symm, rest, rfl⟩

/-- A single operation that is refused is dropped. -/
theorem isolated_dropped {op : PersistOp} (henough : Enough s) (hsick : healthy poisoned [op] ≠ [op]) :
    Isolated poisoned [op] s [.acked op.ack] s := by
  have hnone : healthy poisoned [op] = [] := by
    unfold healthy at hsick ⊢
    cases h : poisoned op.ack with
    | true => simp [h]
    | false => simp [h] at hsick
  refine ⟨?_, rfl, ?_, henough⟩
  · rw [hnone]
    rfl
  · rw [hnone]
    rfl

/-- A flush ends and does what it should, by induction on its attempts: with parkings enough it is never
blocked and never gives up. -/
theorem FlushRun.isolates {o : Outcome Event (Shard Database) Unit}
    (h : FlushRun (poisonPort poisoned refusal) ops s o) (henough : Enough s) :
    o.value = some () ∧ Isolated poisoned ops s o.events o.state := by
  induction h with
  | stored attempt => exact ⟨rfl, attempt.isolated_finalize henough⟩
  | parked attempt transient park =>
    obtain ⟨parks, hparks, -⟩ := enough_cons henough (attempt.cut_short.2.2 transient)
    rw [park] at hparks
    cases hparks
  | retried attempt transient park _ ih =>
    obtain ⟨parks, hparks, henough'⟩ := enough_cons henough (attempt.cut_short.2.2 transient)
    rw [park] at hparks
    cases hparks
    obtain ⟨hvalue, hrest⟩ := ih henough'
    exact ⟨hvalue, hrest.after_attempt attempt.cut_short.1 _⟩
  | quit attempt transient park =>
    obtain ⟨parks, hparks, -⟩ := enough_cons henough (attempt.cut_short.2.2 transient)
    rw [park] at hparks
    cases hparks
  | dropped attempt permanent =>
    obtain ⟨htables, hrefused, -⟩ := attempt.cut_short
    obtain ⟨hsick, hfaults⟩ := hrefused permanent
    refine ⟨rfl, (isolated_dropped ?_ hsick).after_attempt htables _⟩
    unfold Enough
    rw [hfaults]
    exact henough
  | split attempt permanent _ ih =>
    obtain ⟨htables, hrefused, -⟩ := attempt.cut_short
    obtain ⟨hvalue, hrest⟩ := ih (by
      unfold Enough
      rw [(hrefused permanent).2]
      exact henough)
    exact ⟨hvalue, hrest.after_attempt htables _⟩
  | nil s => exact ⟨rfl, rfl, rfl, rfl, henough⟩
  | stop _ ih => cases (ih henough).1
  | @next op ops s t es o _ _ ih ih' =>
    obtain ⟨-, hop⟩ := ih henough
    obtain ⟨hvalue, hrest⟩ := ih' hop.enough
    refine ⟨hvalue, ?_, ?_, ?_, hrest.enough⟩
    · change o.state.env.tables = _
      rw [hrest.tables, hop.tables, ← serial_append, ← healthy_append]
      rfl
    · change ackedIds (es ++ o.events) = _
      rw [ackedIds_append, hop.acked, hrest.acked]
      rfl
    · change observedOps (es ++ o.events) = _
      rw [observedOps_append, hop.observed, hrest.observed, ← healthy_append]
      rfl

end Flush

/-- Isolation: against a database that refuses exactly the operations of the poisoned messages, and with
as many parkings as there are transient failures to come, a flush ends. The tables are those of the other
operations applied one by one, each of their datastream rows was added once, every operation was
acknowledged once, and the observers were given the others once, all in the order of arrival. -/
theorem flush_isolates (poisoned : Nat → Bool) (refusal : StoreCall → PermanentError)
    (s : Shard Database) (hops : ∀ op ∈ s.ops, Emitted op) (henough : Enough s) :
    ∃ es s', flush (poisonPort poisoned refusal) s = ⟨es, s', some ()⟩ ∧ s'.ops = [] ∧
      s'.env.tables = serial s.env.tables (healthy poisoned s.ops) ∧
      s'.env.tables.individual = s.env.tables.individual ++
        (streamRows (healthy poisoned s.ops)).individual.map Prod.snd ∧
      s'.env.tables.objects = s.env.tables.objects ++
        (streamRows (healthy poisoned s.ops)).objects.map Prod.snd ∧
      ackedIds es = s.ops.map (·.ack) ∧ observedOps es = healthy poisoned s.ops := by
  have hserial : ∀ t, t = serial s.env.tables (healthy poisoned s.ops) →
      t.individual = s.env.tables.individual ++
        (streamRows (healthy poisoned s.ops)).individual.map Prod.snd ∧
      t.objects = s.env.tables.objects ++
        (streamRows (healthy poisoned s.ops)).objects.map Prod.snd := by
    rintro t rfl
    rw [serial_eq]
    exact ⟨rfl, rfl⟩
  rcases flush_cases (poisonPort poisoned refusal) s fun op hop => (hops op hop).ready with
    ⟨hnil, hflush⟩ | ⟨o, hrun, hflush⟩
  · have hnone : Isolated poisoned s.ops s [] s := by
      rw [hnil]
      exact ⟨rfl, rfl, rfl, henough⟩
    exact ⟨[], s, hflush, hnil, hnone.tables, (hserial _ hnone.tables).1, (hserial _ hnone.tables).2,
      hnone.acked, hnone.observed⟩
  · obtain ⟨hvalue, h⟩ := hrun.isolates henough
    rw [hvalue] at hflush
    exact ⟨_, _, hflush, rfl, h.tables, (hserial _ h.tables).1, (hserial _ h.tables).2, h.acked, h.observed⟩

/-- The first of two operations is refused, and the first call fails once. -/
theorem flush_isolates_pair : ∃ s : Shard Database, s.ops.map (·.ack) = [0, 1] ∧
    pending s.env.faults = 1 ∧ s.env.tables = Tables.empty ∧
    ∃ es s', flush (poisonPort (· == 0) fun _ => ⟨.pg (utf8 "23514"), by decide⟩) s =
        ⟨es, s', some ()⟩ ∧ ackedIds es = [0, 1] ∧ s'.env.tables.individual.length = 1 := by
  obtain ⟨op₀, hop₀, hack₀, -⟩ := exists_emitted 0
  obtain ⟨op₁, hop₁, hack₁, r, hrow⟩ := exists_emitted 1
  have hops : ∀ op ∈ [op₀, op₁], Emitted op := by
    simp [hop₀, hop₁]
  let s : Shard Database :=
    { env := ⟨Tables.empty, [some ⟨.other, by decide⟩]⟩, parks := [.elapsed], ops := [op₀, op₁] }
  have hhealthy : healthy (· == 0) s.ops = [op₁] := by
    simp [healthy, s, hack₀, hack₁]
  obtain ⟨es, s', hrun, -, -, hindividual, -, hacked, -⟩ := flush_isolates (· == 0)
    (fun _ => ⟨.pg (utf8 "23514"), by decide⟩) s hops ⟨[], rfl⟩
  refine ⟨s, by simp [s, hack₀, hack₁], rfl, rfl, es, s', hrun, ?_, ?_⟩
  · rw [hacked]
    simp [s, hack₀, hack₁]
  · rw [hindividual, hhealthy, streamRows_cons hrow]
    rfl

end Astrate.Engine
