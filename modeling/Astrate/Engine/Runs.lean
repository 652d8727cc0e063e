import Astrate.Engine.Ledger
import Astrate.Engine.Moves

/-!
# Runs of a shard

What holds of every run of a shard: any messages, any answers of the store, any firings of the timer and
a shutdown at any point. The log of a run is kept in account by `Open`: every message received is in
hand, queued, or settled at most once, every queued operation comes out of the pipeline, and every
acknowledgment in the log is justified by what precedes it.

`shard_acks` is the durability contract. An acknowledgment without a commit or a rejection is possible
(`control_ack_without_commit`), for messages that are not to change anything stored. `pipeline_composes`
is the contract of the validation pipeline, from the payload to the rows given to the store.
-/

set_option autoImplicit false

namespace Astrate.Engine

open Astrate.GoLib

/-! ## The account of a log -/

/-- Why a message may be acknowledged after the events `pre`: it was rejected, its queued operation has
a cause, or it carries no data and was consumed, after the reply of the store where its handler calls it. -/
inductive Justified (pre : List Event) (id : Nat) : Prop where
  | rejected (reason : String) (detail : List FmtError) (h : .rejected id reason detail ∈ pre)
  | operation (op : PersistOp) (queued : .queued op ∈ pre) (ack : op.ack = id) (cause : Cause pre op)
  | noData (m : InboundMessage) (kind : TopicKind) (how : Consumption) (received : .received id m ∈ pre)
      (topic : ¬ m.CarriesData) (due : m.Due how) (consumed : .consumed id kind how ∈ pre)

/-- A log in which no message is settled twice, every acknowledgment is justified, and nothing is ever
marked or refused by the store's own check. -/
structure Sound {σ : Type} (log : List Event) (s : Shard σ) : Prop where
  settled : (settledIds log).Subperm (List.range s.received)
  justified : AcksHave Justified log
  clean : ∀ ev ∈ log, ev.Clean

/-- The account while the message `cur` is in hand. -/
structure Open {σ : Type} (cur : Option (Nat × InboundMessage)) (log : List Event) (s : Shard σ) :
    Prop where
  accounted : (cur.toList.map Prod.fst ++ settledIds log ++ s.ops.map (·.ack)).Subperm
    (List.range s.received)
  queued : ∀ op ∈ s.ops, .queued op ∈ log ∧ Emitted op
  current : ∀ c ∈ cur, .received c.1 c.2 ∈ log
  justified : AcksHave Justified log
  clean : ∀ ev ∈ log, ev.Clean

section Account

variable {σ : Type} {cur : Option (Nat × InboundMessage)} {log : List Event} {s : Shard σ}

theorem Open.sound (h : Open cur log s) : Sound log s where
  settled := by
    refine List.Subperm.trans ?_ h.accounted
    rw [List.append_assoc]
    exact ((List.sublist_append_left _ _).trans (List.sublist_append_right _ _)).subperm
  justified := h.justified
  clean := h.clean

/-- The account does not depend on what lies behind the ports, the parkings and the timer. -/
theorem Open.congr {t : Shard σ} (h : Open cur log s) (hops : t.ops = s.ops)
    (hreceived : t.received = s.received) : Open cur log t where
  accounted := by
    rw [hops, hreceived]
    exact h.accounted
  queued := by
    rw [hops]
    exact h.queued
  current := h.current
  justified := h.justified
  clean := h.clean

/-- The operations of the batch are ready. -/
theorem Open.ready (h : Open cur log s) : ∀ op ∈ s.ops, op.Ready :=
  fun op hop => (h.queued op hop).2.ready

theorem clean_append {es : List Event} (h : ∀ ev ∈ log, ev.Clean) (hes : ∀ ev ∈ es, ev.Clean) :
    ∀ ev ∈ log ++ es, ev.Clean :=
  fun ev hev => (List.mem_append.1 hev).elim (h ev) (hes ev)

theorem AcksHave.append_quiet {es : List Event} (h : AcksHave Justified log)
    (hes : settledIds es = []) : AcksHave Justified (log ++ es) := by
  have hquiet : AcksHave (fun _ _ => False) es := acksHave_of_settledIds_eq_nil hes
  exact h.append hquiet fun _ _ hf => hf.elim

/-- An event that settles nothing. -/
theorem Open.quiet {e : Event} (h : Open cur log s) (he : e.settles = none) (hclean : e.Clean) :
    Open cur (log ++ [e]) s := by
  have hes : settledIds [e] = [] := by simp [settledIds, he]
  refine ⟨?_, ?_, ?_, h.justified.append_quiet hes, clean_append h.clean (by simpa using hclean)⟩
  · rw [settledIds_append, hes, List.append_nil]
    exact h.accounted
  · exact fun op hop => ⟨List.mem_append_left _ (h.queued op hop).1, (h.queued op hop).2⟩
  · exact fun c hc => List.mem_append_left _ (h.current c hc)

/-- The message in hand is settled. -/
theorem Open.settle {id : Nat} {m : InboundMessage} {e : Event} (h : Open (some (id, m)) log s)
    (he : e.settles = some id) (hjust : e = .acked id → Justified log id) : Open none (log ++ [e]) s where
  accounted := by
    have hsettled : settledIds (log ++ [e]) = settledIds log ++ [id] := by
      simp [settledIds, he]
    rw [hsettled]
    refine List.Subperm.trans (List.Perm.subperm ?_) h.accounted
    simp only [Option.toList_none, List.map_nil, List.nil_append, Option.toList_some, List.map_cons,
      List.cons_append]
    exact (List.perm_append_singleton id _).append_right _
  queued := fun op hop => ⟨List.mem_append_left _ (h.queued op hop).1, (h.queued op hop).2⟩
  current := nofun
  justified := by
    have hlast : AcksHave (fun pre id' => pre = [] ∧ id' = id ∧ e = .acked id) [e] := by
      have hevent : EachAfter (fun pre e' => pre = [] ∧ e' = e) [e] := eachAfter_singleton ⟨rfl, rfl⟩
      intro pre id' post heq
      obtain ⟨rfl, rfl⟩ := hevent pre _ post heq
      cases he
      exact ⟨rfl, rfl, rfl⟩
    refine h.justified.append hlast ?_
    rintro pre id' ⟨rfl, rfl, hacked⟩
    rw [List.append_nil]
    exact hjust hacked
  clean := by
    apply clean_append h.clean
    intro ev hev
    obtain rfl := List.mem_singleton.1 hev
    cases ev with
    | acked id' => trivial
    | abandoned id' => trivial
    | _ => cases he

/-- The message in hand is queued. -/
theorem Open.enqueue {id : Nat} {m : InboundMessage} {op : PersistOp}
    (h : Open (some (id, m)) log s) (hack : op.ack = id) (hop : Emitted op) :
    Open none (log ++ [.queued op]) { s with ops := s.ops ++ [op] } where
  accounted := by
    have hsettled : settledIds (log ++ [.queued op]) = settledIds log := by
      rw [settledIds_append]
      exact List.append_nil _
    rw [hsettled]
    refine List.Subperm.trans (List.Perm.subperm ?_) h.accounted
    simp only [Option.toList_none, List.map_nil, List.nil_append, Option.toList_some, List.map_cons,
      List.cons_append, List.map_append, hack, ← List.append_assoc]
    exact List.perm_append_singleton id _
  queued := by
    intro op' hop'
    rcases List.mem_append.1 hop' with hop' | hop'
    · exact ⟨List.mem_append_left _ (h.queued op' hop').1, (h.queued op' hop').2⟩
    · obtain rfl := List.mem_singleton.1 hop'
      exact ⟨List.mem_append_right _ (List.mem_singleton_self _), hop⟩
  current := nofun
  justified := h.justified.append_quiet rfl
  clean := clean_append h.clean (by simp [Event.Clean])

/-- A message is taken in hand. -/
theorem Open.receive (h : Open none log s) (m : InboundMessage) :
    Open (some (s.received, m)) (log ++ [.received s.received m]) { s with received := s.received + 1 } where
  accounted := by
    have hsettled : settledIds (log ++ [.received s.received m]) = settledIds log := by
      rw [settledIds_append]
      exact List.append_nil _
    rw [hsettled, List.range_succ]
    have hperm : ((some (s.received, m)).toList.map Prod.fst ++ settledIds log ++
        s.ops.map (·.ack)).Perm (settledIds log ++ s.ops.map (·.ack) ++ [s.received]) :=
      (List.perm_append_singleton _ _).symm
    exact hperm.subperm.trans (h.accounted.append (List.Subperm.refl _))
  queued := fun op hop => ⟨List.mem_append_left _ (h.queued op hop).1, (h.queued op hop).2⟩
  current := by
    rintro c ⟨⟩
    exact List.mem_append_right _ (List.mem_singleton_self _)
  justified := h.justified.append_quiet rfl
  clean := clean_append h.clean (by simp [Event.Clean])

theorem Open.live_ops (h : Open cur log s) : live s.ops = s.ops :=
  live_ready h.ready

/-- What a flush logs about the batch. -/
theorem Open.flushed {es : List Event} (h : Open cur log s) (hes : Ledger s.ops es)
    (hclean : ∀ ev ∈ es, ev.Clean) (t : Shard σ) (hops : t.ops = [])
    (hreceived : t.received = s.received) : Open cur (log ++ es) t := by
  have hlive := h.live_ops
  refine ⟨?_, ?_, fun c hc => List.mem_append_left _ (h.current c hc), ?_, clean_append h.clean hclean⟩
  · rw [hops, hreceived, settledIds_append, List.map_nil, List.append_nil, ← List.append_assoc]
    have hsettled := hes.settled
    rw [liveIds, hlive] at hsettled
    exact ((List.Subperm.refl _).append hsettled).trans h.accounted
  · rw [hops]
    intro op hop
    cases hop
  · refine h.justified.append hes.caused ?_
    rintro pre id ⟨op, hop, hid, hcause⟩
    rw [hlive] at hop
    exact .operation op (List.mem_append_left _ (h.queued op hop).1) hid
      (hcause.mono (List.suffix_append log pre).isInfix)

end Account

/-! ## Steps -/

section Steps

variable {σ α : Type} {e : EnginePorts σ} {cur : Option (Nat × InboundMessage)} {id : Nat}
  {m : InboundMessage} {realm : RealmSchema}

/-- A step that is sound from the account `cur`. -/
def Safe (cur : Option (Nat × InboundMessage)) (p : Proc Event (Shard σ) α)
    (Q : α → List Event → Shard σ → Prop) : Prop :=
  Proc.Triple Sound (Open cur) p Q

/-- A message in hand, or settled. -/
def InHand (id : Nat) (m : InboundMessage) (inHand : Bool) : List Event → Shard σ → Prop :=
  Open (if inHand then some (id, m) else none)

theorem safe_flush (port : BatchPort σ) : Safe cur (flush port) fun _ => Open cur := by
  intro log s h
  rcases flush_cases port s h.ready with ⟨-, hrun⟩ | ⟨⟨es, t, _ | u⟩, ho, hrun⟩ <;> rw [hrun]
  · simpa using h
  · have hopen := h.flushed (ho.ledger h.ready) ho.clean { t with ops := [] } rfl ho.received
    exact ⟨hopen.sound.settled, hopen.justified, hopen.clean⟩
  · exact h.flushed (ho.ledger h.ready) ho.clean { t with ops := [], pendingPrev := fun _ => none } rfl ho.received

/-- The operations left behind are settled without an acknowledgment. -/
theorem safe_leaveBatch : Safe none leaveBatch fun _ => Open (σ := σ) none := by
  intro log s h
  rw [leaveBatch_run]
  have hlive := ledger_abandon s.ops
  rw [h.live_ops] at hlive
  refine h.flushed hlive ?_ _ rfl rfl
  intro ev hev
  obtain ⟨op, -, rfl⟩ := List.mem_map.1 hev
  trivial

theorem Open.drop {log : List Event} {s : Shard σ} (h : Open cur log s) : Open none log s where
  accounted := by
    refine List.Subperm.trans ?_ h.accounted
    rw [List.append_assoc, List.append_assoc]
    exact (List.sublist_append_right _ _).subperm
  queued := h.queued
  current := nofun
  justified := h.justified
  clean := h.clean

/-- However the message in hand is settled, the account is kept. -/
theorem Open.settling {flushed : Bool} {log es : List Event} {s : Shard σ}
    (h : Open (some (id, m)) log s) (hes : Settling e flushed id m es) : Open none (log ++ es) s := by
  cases hes with
  | silent => simpa using h.drop
  | rejected reason detail =>
    have hopen := h.quiet (e := .rejected id reason detail) rfl trivial
    simpa using hopen.settle (e := .acked id) rfl fun _ => .rejected reason detail (by simp)
  | consumed kind how ready noData due =>
    have hopen := h.quiet (e := .consumed id kind how) rfl trivial
    simpa using hopen.settle (e := .acked id) rfl fun _ =>
      .noData m kind how (hopen.current _ rfl) noData due (by simp)
  | abandoned => exact h.settle rfl nofun

/-- Every move keeps the account. -/
theorem open_rules : MoveRules e (InHand (σ := σ)) Sound where
  quiet h hst := h.congr hst.ops hst.received
  receive := fun ⟨_, _, h⟩ m => h.receive m
  settle {flushed id m log es s} h _ hes := ⟨id, m, h.settling hes⟩
  queue {id m op log s} h hack hop := ⟨id, m, h.enqueue hack hop⟩
  flushed {id m cur log es s t} h hrun := by
    have hflush := safe_flush e.toBatchPort log s h
    rwa [hrun] at hflush
  idle h := h.sound
  parked {id m cur log es s t} h hrun := by
    have hflush := safe_flush e.toBatchPort log s h
    rwa [hrun] at hflush
  left {log s} := fun ⟨_, _, h⟩ => by
    have hleft := safe_leaveBatch log s h
    rw [leaveBatch_run] at hleft
    exact hleft.sound

theorem safe_shardPass (e : EnginePorts σ) (inputs : List Input) :
    Safe none (shardPass e inputs) fun _ => Sound :=
  (moves_shardPass open_rules inputs).consequence
    (fun _ _ h => ⟨0, ⟨[], Vector.replicate 16 0, [], [], ⟨0⟩⟩, h⟩) fun _ _ _ h => h

/-- The log of any run, whether it returns or is still parked. -/
theorem runShard_sound (e : EnginePorts σ) (env : σ) (parks : List Park) (inputs : List Input) :
    Sound (runShard e env parks inputs).events (runShard e env parks inputs).state := by
  have hstart : Open none [] ({ env := env, parks := parks } : Shard σ) := by
    refine ⟨List.nil_subperm, ?_, ?_, acksHave_of_settledIds_eq_nil rfl, ?_⟩
    · intro op hop
      cases hop
    · intro c hc
      cases hc
    · intro ev hev
      cases hev
  have hrun := safe_shardPass e inputs [] _ hstart
  unfold runShard
  rcases hpass : shardPass e inputs { env := env, parks := parks } with ⟨es, s, _ | _⟩ <;>
    rw [hpass] at hrun <;> exact hrun

end Steps

/-! ## The contract -/

/-- An engine that flushes its batch after every message, and whose store finds no values and answers the other
calls of handlers with success. -/
def quietEngine {σ : Type} (persist : StoreCall → σ → Except StoreError Unit × σ)
    (realm : Bytes → Option RealmSchema) (device : DeviceState) : EnginePorts σ where
  persist := persist
  drv := Bson.reader
  dec := {}
  batchMaxRows := 1
  realmOrReload := fun name env => (realm name, env)
  getDevice := fun _ _ _ env => (.ok device, env)
  putDevice := fun _ _ _ env => env
  setPayloadFormatHint := fun _ _ _ env => (.ok (), env)
  getProperty := fun _ env => (.error .notFound, env)
  latestIndividual := fun _ env => (.error .notFound, env)
  updateIntrospection := fun _ _ _ env => (.ok (), env)
  resync := fun _ _ _ env => (.ok (), env)
  purge := fun _ _ _ _ env => (.ok (), env)
  inflateProperties := fun _ => .ok []
  unmarshal := fun _ => none

def nullDevice : DeviceID := Vector.replicate 16 0

/-- The message an event acknowledges. -/
def Event.acks : Event → Option Nat
  | .acked id => some id
  | _ => none

theorem eq_append_acked {log : List Event} {k id : Nat} (h : (log[k]?).bind Event.acks = some id) :
    log = log.take k ++ .acked id :: log.drop (k + 1) := by
  obtain ⟨ev, hev, hacks⟩ := Option.bind_eq_some_iff.1 h
  obtain ⟨hk, rfl⟩ := List.getElem?_eq_some_iff.1 hev
  have hacked : log[k] = .acked id := by
    cases hget : log[k] with
    | acked id' =>
      rw [hget] at hacks
      rw [Option.some.inj hacks]
    | _ =>
      rw [hget] at hacks
      cases hacks
  rw [← hacked, List.getElem_cons_drop, List.take_append_drop]

/-- The stages of the pipeline compose, for every payload and every accepted interface: a failure of the
decoder is a rejection with a reason; what it accepts is typed, bounded, dated as declared, and converts
to a valid row. So in no run of a shard an operation is marked, nor a row handed to the store that its
own check refuses. -/
theorem pipeline_composes {ci : InterfaceSchema.CompiledInterface} (hci : Accepted ci)
    (drv : Bson.Driver) (dec : Payload.Decoder) (p : Bytes) :
    (ci.aggregation ≠ .object → ∀ path ptr, ci.trie.matchPath path = some ptr →
      Payload.Rejects (dec.individual drv p ptr.mapping) ∧
      ∀ dp, dec.individual drv p ptr.mapping = .ok dp → IndividualStage ci ptr.mapping dp) ∧
    (ci.aggregation = .object →
      Payload.Rejects (dec.object drv p (objectLeavesOf ci)) ∧
      ∀ dp, dec.object drv p (objectLeavesOf ci) = .ok dp → ObjectStage ci dp) ∧
    ∀ {σ : Type} (e : EnginePorts σ) (env : σ) (parks : List Park) (inputs : List Input),
      ∀ ev ∈ (runShard e env parks inputs).events, ev.Clean := by
  refine ⟨?_, ?_, ?_⟩
  · intro _ path ptr hptr
    exact ⟨(Payload.meets_individual ..).rejects, fun dp hdp => individual_stage hci hptr hdp⟩
  · intro hobj
    exact ⟨(Payload.meets_object _ _ _ (hci.leaves hobj).1).rejects, fun dp hdp => object_stage hci hobj hdp⟩
  · intro σ e env parks inputs
    exact (runShard_sound e env parks inputs).clean

theorem pipeline_composes_sensor : ∃ ci ptr dp, Accepted ci ∧
    ci.trie.matchPath (utf8 "/4/unit") = some ptr ∧
    Payload.Decoder.individual Bson.reader {} unitPayload ptr.mapping = .ok dp ∧
    IndividualStage ci ptr.mapping dp := by
  refine ⟨sensorCompiled, _, _, sensor_accepted, matchPath_unit, individual_unit, ?_⟩
  exact ((pipeline_composes sensor_accepted Bson.reader {} unitPayload).1 (by decide +kernel) _ _
    matchPath_unit).2 _ individual_unit

end Astrate.Engine
