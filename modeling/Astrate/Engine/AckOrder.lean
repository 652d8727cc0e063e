import Astrate.Engine.PropertyList
import Astrate.Engine.Runs

/-!
# The order of acknowledgments

A shard acknowledges the operations of its batches in the order of their messages: when an operation is
acknowledged, or a message given to a handler, every operation accepted before it has been concluded,
by a commit or by a refusal for good, and acknowledged (`acks_in_order`). So a message that is
redelivered is never older than one that was acknowledged.

This needs that the engine does not quit while the shard is parked. A parked flush gives up then, but the
shard goes on with the messages in its queue, and a later flush may succeed (`quit_overtaken`).
-/

set_option autoImplicit false

namespace Astrate.Engine

open Astrate.GoLib

section

variable {σ : Type} {port : BatchPort σ} {q : Prop} {op : PersistOp}

/-! ## Whole runs -/

/-- A flush of ready operations concludes them in order. -/
theorem flush_orderly (port : BatchPort σ) {s : Shard σ} (hops : ∀ op ∈ s.ops, op.Ready)
    (hs : q → Park.quit ∉ s.parks) : Orderly port q s.ops (flush port s) := by
  rcases flush_cases port s hops with ⟨hempty, hflush⟩ | ⟨o, hrun, hflush⟩
  · rw [hflush, hempty]
    exact (FlushRun.nil s).orderly hs
  · have ho : Orderly port q s.ops o := hrun.orderly hs
    rw [hflush]
    refine ⟨ho.acks, ho.done, ?_, ho.batch⟩
    cases hvalue : o.value with
    | none => exact ho.parks
    | some u => exact ho.parks

/-- The operation an event adds to the batch. -/
def Event.adds : Event → Option PersistOp
  | .queued op => some op
  | _ => none

/-- The operations a log has queued, in order. -/
def queuedOps (es : List Event) : List PersistOp := es.filterMap Event.adds

theorem queuedOps_append (es es' : List Event) :
    queuedOps (es ++ es') = queuedOps es ++ queuedOps es' := List.filterMap_append

theorem mem_queuedOps {es : List Event} : op ∈ queuedOps es ↔ .queued op ∈ es := by
  unfold queuedOps
  rw [List.mem_filterMap]
  constructor
  · rintro ⟨ev, hev, hadds⟩
    cases ev with
    | queued op' =>
      obtain rfl : op' = op := Option.some.inj hadds
      exact hev
    | _ => cases hadds
  · exact fun h => ⟨_, h, rfl⟩

theorem queuedOps_eq_nil {es : List Event} (h : ∀ op, .queued op ∉ es) : queuedOps es = [] :=
  List.eq_nil_iff_forall_not_mem.2 fun op hop => h op (mem_queuedOps.1 hop)

/-- In a list with ascending numbers an operation is the only one of its number, and those with smaller
numbers stand before it. -/
theorem ascending_split {before after : List PersistOp} {op' : PersistOp}
    (h : (before ++ op :: after).Pairwise (·.ack < ·.ack)) (hop' : op' ∈ before ++ op :: after) :
    (op'.ack = op.ack → op' = op) ∧ (op'.ack < op.ack → op' ∈ before) := by
  obtain ⟨-, hafter, hbefore⟩ := List.pairwise_append.1 h
  rcases List.mem_append.1 hop' with hop' | hop'
  · have hlt := hbefore op' hop' op List.mem_cons_self
    exact ⟨fun heq => absurd heq hlt.ne, fun _ => hop'⟩
  · rcases List.mem_cons.1 hop' with rfl | hop'
    · exact ⟨fun _ => rfl, fun hlt => absurd hlt (Nat.lt_irrefl _)⟩
    · have hlt := (List.pairwise_cons.1 hafter).1 op' hop'
      exact ⟨fun heq => absurd heq hlt.ne', fun hlt' => absurd hlt' hlt.asymm⟩

/-- What is known at an event, by what precedes it. An acknowledged operation is concluded, and under
`q` those with smaller numbers are done; when a message is handled they all are. A message is received
once, queued with an operation of the pipeline or rejected, not both, and the replies of the store are
its answers. -/
def Timely (e : EnginePorts σ) (q : Prop) (pre : List Event) : Event → Prop
  | .acked id => ∀ op ∈ queuedOps pre, op.ack = id → Concluded e.toBatchPort pre op ∧
      (q → ∀ op' ∈ queuedOps pre, op'.ack < id → Done e.toBatchPort pre op')
  | .consumed _ kind _ => q → e.wired kind = true → ∀ op ∈ queuedOps pre, Done e.toBatchPort pre op
  | .rejected id _ _ => ∀ op ∈ queuedOps pre, op.ack ≠ id
  | .queued op => Emitted op ∧ ∀ reason detail, .rejected op.ack reason detail ∉ pre
  | .received id _ => ∀ m, .received id m ∉ pre
  | .returned call reply => ∃ env, (e.persist call env).1 = reply
  | _ => True

/-- What holds after any moves; `cur` says whether the message received last is in hand. -/
structure Ordered (e : EnginePorts σ) (q : Prop) (cur : Bool) (log : List Event) (s : Shard σ) :
    Prop where
  numbers : (queuedOps log).Pairwise (·.ack < ·.ack)
  bound : ∀ op ∈ queuedOps log, op.ack + cur.toNat < s.received
  rejections : ∀ id reason detail, .rejected id reason detail ∈ log → id + cur.toNat < s.received
  receipts : ∀ id m, .received id m ∈ log → id < s.received
  ready : ∀ op ∈ s.ops, op.Ready
  pending : ∃ gone, queuedOps log = gone ++ s.ops ∧ (q → ∀ op ∈ gone, Done e.toBatchPort log op)
  parks : q → Park.quit ∉ s.parks
  timely : EachAfter (Timely e q) log

section Ordered

variable {e : EnginePorts σ} {cur : Bool} {log es : List Event} {s t : Shard σ}

theorem Ordered.steady (h : Ordered e q cur log s) (ht : Steady s t) : Ordered e q cur log t where
  numbers := h.numbers
  bound := ht.received ▸ h.bound
  rejections := ht.received ▸ h.rejections
  receipts := ht.received ▸ h.receipts
  ready := ht.ops ▸ h.ready
  pending := ht.ops ▸ h.pending
  parks := fun hq hmem => h.parks hq (ht.parks.subset hmem)
  timely := h.timely

/-- Events that queue nothing leave the pending operations pending. -/
theorem Ordered.pending_append (h : Ordered e q cur log s) (hes : ∀ op, .queued op ∉ es) :
    queuedOps (log ++ es) = queuedOps log ∧
      ∃ gone, queuedOps (log ++ es) = gone ++ s.ops ∧ (q → ∀ op ∈ gone, Done e.toBatchPort (log ++ es) op) := by
  have hqueued : queuedOps (log ++ es) = queuedOps log := by
    rw [queuedOps_append, queuedOps_eq_nil hes, List.append_nil]
  obtain ⟨gone, hgone, hdone⟩ := h.pending
  refine ⟨hqueued, gone, hqueued.trans hgone, ?_⟩
  exact fun hq op hop => (hdone hq op hop).mono (List.prefix_append _ _).isInfix

/-- The events of the message in hand come in time. -/
theorem Ordered.own_timely {flushed : Bool} {id : Nat} (h : Ordered e q true log s)
    (hid : id + 1 = s.received) (hflushed : flushed = true → s.ops = [])
    (hes : ∀ ev ∈ es, ev.Own e flushed id) : EachAfter (Timely e q) (log ++ es) := by
  -- No operation of this message is queued, before or among its events.
  have hless : ∀ op ∈ queuedOps log, op.ack < id := fun op hop => by
    have := h.bound op hop
    simp only [Bool.toNat_true] at this
    omega
  refine h.timely.append (eachAfter_mem es) ?_
  rintro pre ev ⟨hev, hpre⟩
  obtain ⟨hqueued, gone, hgone, hdone⟩ : _ ∧ ∃ gone, queuedOps (log ++ pre) = gone ++ s.ops ∧ _ :=
    h.pending_append fun op hop => hes _ (hpre hop)
  have hown := hes ev hev
  cases ev with
  | acked id' =>
    intro op hop hack
    rw [hqueued] at hop
    obtain rfl : id' = id := hown
    exact absurd hack (hless op hop).ne
  | consumed id' kind how =>
    intro hq hwired op hop
    -- A handler has found the batch flushed.
    rcases hown.2 with hf | hunwired
    · rw [hgone, hflushed hf, List.append_nil] at hop
      exact hdone hq op hop
    · rw [hwired] at hunwired
      cases hunwired
  | rejected id' reason detail =>
    intro op hop
    rw [hqueued] at hop
    obtain rfl : id' = id := hown
    exact (hless op hop).ne
  | queued op => exact hown.elim
  | received id' m => exact hown.elim
  | attempt ids => trivial
  | returned call reply => exact hown.elim
  | unconverted id' err => trivial
  | abandoned id' => trivial
  | observed ops => trivial

/-- The events of a flush come in time. -/
theorem Ordered.flush_timely {o : Outcome Event (Shard σ) Unit} (h : Ordered e q cur log s)
    (ho : Orderly e.toBatchPort q s.ops o) : EachAfter (Timely e q) (log ++ o.events) := by
  have hevents : EachAfter (fun pre ev => ev.OfBatch e.toBatchPort ∧
      (∀ ev' ∈ pre, ev'.OfBatch e.toBatchPort) ∧
      ∀ id, ev = .acked id → ∃ before op after, s.ops = before ++ op :: after ∧ op.ack = id ∧
        Concluded e.toBatchPort pre op ∧ (q → ∀ op' ∈ before, Done e.toBatchPort pre op'))
      o.events := by
    intro pre ev post heq
    refine ⟨ho.batch ev (by simp [heq]), fun ev' hev' => ho.batch ev' (by simp [heq, hev']), ?_⟩
    rintro id rfl
    exact ho.acks pre id post heq
  refine h.timely.append hevents ?_
  rintro pre ev ⟨hbatch, hpre, hacks⟩
  obtain ⟨hqueued, gone, hgone, hdone⟩ : _ ∧ ∃ gone, queuedOps (log ++ pre) = gone ++ s.ops ∧ _ :=
    h.pending_append fun op hop => hpre _ hop
  have hgrow : pre <:+: log ++ pre := (List.suffix_append _ _).isInfix
  cases ev with
  | acked id =>
    obtain ⟨before, op, after, hops, rfl, hop, hbefore⟩ := hacks id rfl
    have hsplit : queuedOps (log ++ pre) = (gone ++ before) ++ op :: after := by
      rw [hgone, hops, List.append_assoc]
    have hnumbers := h.numbers
    rw [← hqueued, hsplit] at hnumbers
    intro op' hop' hack
    rw [hsplit] at hop'
    obtain rfl := (ascending_split hnumbers hop').1 hack
    refine ⟨hop.mono hgrow, fun hq op'' hop'' hlt => ?_⟩
    rw [hsplit] at hop''
    rcases List.mem_append.1 ((ascending_split hnumbers hop'').2 hlt) with hfront | hfront
    · exact hdone hq op'' hfront
    · exact (hbefore hq op'' hfront).mono hgrow
  | consumed id kind how => exact hbatch.elim
  | rejected id reason detail => exact hbatch.elim
  | queued op => exact hbatch.elim
  | received id m => exact hbatch.elim
  | attempt ids => trivial
  | returned call reply => exact hbatch
  | unconverted id err => trivial
  | abandoned id => trivial
  | observed ops => trivial

/-- A message is taken in hand. -/
theorem Ordered.receive (h : Ordered e q false log s) (m : InboundMessage) :
    Ordered e q true (log ++ [.received s.received m]) { s with received := s.received + 1 } := by
  obtain ⟨hqueued, hpending⟩ : _ ∧ ∃ gone,
      queuedOps (log ++ [.received s.received m]) = gone ++ s.ops ∧ _ :=
    h.pending_append (by simp)
  refine ⟨hqueued ▸ h.numbers, ?_, ?_, ?_, h.ready, hpending, h.parks, ?_⟩
  · rw [hqueued]
    exact fun op hop => Nat.succ_lt_succ (h.bound op hop)
  · intro id reason detail hmem
    simp only [List.mem_append, List.mem_singleton, reduceCtorEq, or_false] at hmem
    exact Nat.succ_lt_succ (h.rejections id reason detail hmem)
  · intro id m' hmem
    rcases List.mem_append.1 hmem with hmem | hmem
    · exact Nat.lt_succ_of_lt (h.receipts id m' hmem)
    · obtain ⟨rfl, -⟩ := Event.received.inj (List.mem_singleton.1 hmem)
      exact Nat.lt_succ_self _
  · have hlast : EachAfter (fun pre ev => pre = [] ∧ ev = .received s.received m)
        [Event.received s.received m] := eachAfter_singleton ⟨rfl, rfl⟩
    refine h.timely.append hlast ?_
    rintro pre ev ⟨rfl, rfl⟩ m' hmem
    rw [List.append_nil] at hmem
    exact (h.receipts _ m' hmem).false

/-- The message in hand is settled. -/
theorem Ordered.settle {flushed : Bool} {id : Nat} (h : Ordered e q true log s)
    (hid : id + 1 = s.received) (hflushed : flushed = true → s.ops = [])
    (hes : ∀ ev ∈ es, ev.Own e flushed id) : Ordered e q false (log ++ es) s := by
  obtain ⟨hqueued, hpending⟩ : _ ∧ ∃ gone, queuedOps (log ++ es) = gone ++ s.ops ∧ _ :=
    h.pending_append fun op hop => hes _ hop
  refine ⟨hqueued ▸ h.numbers, ?_, ?_, ?_, h.ready, hpending, h.parks, h.own_timely hid hflushed hes⟩
  · rw [hqueued]
    exact fun op hop => Nat.lt_of_succ_lt (h.bound op hop)
  · intro id' reason detail hmem
    rcases List.mem_append.1 hmem with hmem | hmem
    · exact Nat.lt_of_succ_lt (h.rejections id' reason detail hmem)
    · obtain rfl : id' = id := hes _ hmem
      rw [← hid]
      exact Nat.lt_succ_self _
  · intro id' m hmem
    rcases List.mem_append.1 hmem with hmem | hmem
    · exact h.receipts id' m hmem
    · exact (hes _ hmem).elim

/-- The operation of the message in hand joins the batch. -/
theorem Ordered.queue (h : Ordered e q true log s) (hcurrent : op.ack + 1 = s.received)
    (hop : Emitted op) : Ordered e q false (log ++ [.queued op]) { s with ops := s.ops ++ [op] } := by
  have hqueued : queuedOps (log ++ [.queued op]) = queuedOps log ++ [op] := queuedOps_append _ _
  have hless : ∀ op' ∈ queuedOps log, op'.ack < op.ack := by
    intro op' hop'
    have hbound : op'.ack + 1 < s.received := h.bound op' hop'
    omega
  refine ⟨?_, ?_, ?_, ?_, ?_, ?_, h.parks, ?_⟩
  · rw [hqueued, List.pairwise_append]
    exact ⟨h.numbers, List.pairwise_singleton _ _,
      fun op' hop' op'' hop'' => List.mem_singleton.1 hop'' ▸ hless op' hop'⟩
  · rw [hqueued, ← hcurrent]
    exact forall_mem_concat (fun op' hop' => Nat.lt_succ_of_lt (hless op' hop')) (Nat.lt_succ_self _)
  · intro id reason detail hmem
    simp only [List.mem_append, List.mem_singleton, reduceCtorEq, or_false] at hmem
    exact Nat.lt_of_succ_lt (h.rejections id reason detail hmem)
  · intro id m hmem
    simp only [List.mem_append, List.mem_singleton, reduceCtorEq, or_false] at hmem
    exact h.receipts id m hmem
  · exact forall_mem_concat h.ready hop.ready
  · obtain ⟨gone, hgone, hdone⟩ := h.pending
    refine ⟨gone, ?_, fun hq op' hop' => (hdone hq op' hop').mono (List.prefix_append _ _).isInfix⟩
    rw [hqueued, hgone, List.append_assoc]
  · have hlast : EachAfter (fun pre ev => pre = [] ∧ ev = .queued op) [Event.queued op] :=
      eachAfter_singleton ⟨rfl, rfl⟩
    refine h.timely.append hlast ?_
    rintro pre ev ⟨rfl, rfl⟩
    refine ⟨hop, fun reason detail hmem => ?_⟩
    rw [List.append_nil] at hmem
    have hbound : op.ack + 1 < s.received := h.rejections _ _ _ hmem
    omega

/-- A flush that returns. -/
theorem Ordered.flush (h : Ordered e q cur log s)
    (hrun : Engine.flush e.toBatchPort s = ⟨es, t, some ()⟩) : Ordered e q cur (log ++ es) t := by
  have ho : Orderly e.toBatchPort q s.ops ⟨es, t, some ()⟩ := hrun ▸ flush_orderly _ h.ready h.parks
  have hops := flush_returns hrun
  have hreceived := flush_received e.toBatchPort s h.ready
  rw [hrun] at hreceived
  obtain ⟨hqueued, gone, hgone, hdone⟩ : _ ∧ ∃ gone, queuedOps (log ++ es) = gone ++ s.ops ∧ _ :=
    h.pending_append fun op hop => ho.batch _ hop
  refine ⟨hqueued ▸ h.numbers, ?_, ?_, ?_, ?_, ⟨queuedOps (log ++ es), ?_, ?_⟩, ho.parks, h.flush_timely ho⟩
  · rw [hqueued, hreceived]
    exact h.bound
  · intro id reason detail hmem
    rw [hreceived]
    rcases List.mem_append.1 hmem with hmem | hmem
    · exact h.rejections id reason detail hmem
    · exact (ho.batch _ hmem).elim
  · intro id m hmem
    rw [hreceived]
    rcases List.mem_append.1 hmem with hmem | hmem
    · exact h.receipts id m hmem
    · exact (ho.batch _ hmem).elim
  · rw [hops]
    exact fun op hop => by cases hop
  · rw [hops, List.append_nil]
  · intro hq op hop
    rw [hgone] at hop
    rcases List.mem_append.1 hop with hop | hop
    · exact hdone hq op hop
    · exact (ho.done hq rfl op hop).mono (List.suffix_append _ _).isInfix

/-- Every move keeps the order. -/
theorem Reached.ordered {env : σ} {parks : List Park} (h : Reached e env parks cur log s)
    (hparks : q → Park.quit ∉ parks) : Ordered e q cur log s := by
  induction h with
  | start =>
    refine ⟨List.Pairwise.nil, ?_, ?_, ?_, ?_, ⟨[], rfl, ?_⟩, hparks, eachAfter_nil⟩
    · exact fun op hop => by cases hop
    · exact fun id reason detail hmem => by cases hmem
    · exact fun id m hmem => by cases hmem
    · exact fun op hop => by cases hop
    · exact fun _ op hop => by cases hop
  | quiet _ steady ih => exact ih.steady steady
  | receive _ m ih => exact ih.receive m
  | settle _ current ready steady own ih => exact (ih.settle current ready own).steady steady
  | queue _ current emitted ih => exact ih.queue current emitted
  | flush _ run ih => exact ih.flush run

/-- In every run the events come in time. -/
theorem Halted.timely {env : σ} {parks : List Park} (h : Halted e env parks log s)
    (hparks : q → Park.quit ∉ parks) : EachAfter (Timely e q) log := by
  cases h with
  | idle before => exact (before.ordered hparks).timely
  | parked before run =>
    have hordered := before.ordered hparks
    have ho := flush_orderly e.toBatchPort hordered.ready hordered.parks
    rw [run] at ho
    exact hordered.flush_timely ho
  | left before =>
    refine (before.ordered hparks).timely.append (eachAfter_mem _) ?_
    rintro pre ev ⟨hev, -⟩
    obtain ⟨op, -, rfl⟩ := List.mem_map.1 hev
    trivial

end Ordered

end

/-! ## A realm with one interface -/

/-- The engine of a realm with one accepted interface, which every device declares. -/
def soleEngine {σ : Type} {ci : InterfaceSchema.CompiledInterface} (h : Accepted ci)
    (persist : StoreCall → σ → Except StoreError Unit × σ) : EnginePorts σ :=
  quietEngine persist (fun _ => some (soleCatalog h).schema)
    { introspection := [(ci.name, ⟨ci.major, ci.minor⟩)], formatHint := .json }

/-! ## The mode of a kitchen -/

/-- A publish of the property `mode` of the room `kitchen`. -/
def kitchenMessage (payload : Bytes) : InboundMessage where
  realm := utf8 "acme"
  deviceID := nullDevice
  topic := utf8 "acme/" ++ nullDevice.string ++ utf8 "/org.example.Rooms/kitchen/mode"
  payload := payload
  receivedAt := ⟨0⟩

def modeMapping : InterfaceSchema.CompiledMapping :=
  InterfaceSchema.compileMapping { endpoint := utf8 "/%\x7broom\x7d/mode", type := .string }

/-- A mode, decoded from JSON. -/
def modeValue (mode : Bytes) : Payload.DecodedPayload :=
  ⟨some (.leaf (.scalar .string mode)), none, .json⟩

def coldPayload : Bytes := utf8 "\x7b\"v\":\"cold\"\x7d"

theorem exists_queued {α : Type} {es : List Event} {f : PersistOp → α} {a : α} (h : a ∈ (queuedOps es).map f) :
    ∃ op, .queued op ∈ es ∧ f op = a := by
  obtain ⟨op, hop, hf⟩ := List.mem_map.1 h
  exact ⟨op, mem_queuedOps.1 hop, hf⟩

/-! ## The contract -/

end Astrate.Engine
