import Astrate.Engine.Pipeline
import Astrate.Engine.Shard

/-!
# Moves of a shard

What a shard can do, said once. Between two waits of its loop a shard takes a message in hand, and then
settles it with events of its own, or queues its operation; between messages, and before it gives a
message to a handler, it flushes the batch. `Reached` collects the logs and states that such moves lead
to, `Halted` those in which a run can be found, parked or ended. Every run of a shard is made of moves
(`runShard_halted`), so what each move preserves holds of every run.
-/

set_option autoImplicit false

namespace Astrate.Engine

open Astrate.GoLib

/-- Whether there is a handler for messages of this kind. Data has none: it is queued. -/
def EnginePorts.wired {σ : Type} (e : EnginePorts σ) : TopicKind → Bool
  | .introspection => e.onIntrospection
  | .control => e.onControl
  | .capabilities => e.onCapabilities
  | .data => false

section

variable {σ α β : Type}

/-! ## The message in hand -/

/-- The batch and the count of messages stay, and of the parkings to come some may be over. -/
structure Steady (s t : Shard σ) : Prop where
  ops : t.ops = s.ops
  received : t.received = s.received
  parks : t.parks <:+ s.parks

theorem Steady.refl (s : Shard σ) : Steady s s := ⟨rfl, rfl, List.suffix_rfl⟩

variable {s t : Shard σ} {es : List Event}

theorem Steady.trans {u : Shard σ} (h : Steady s t) (h' : Steady t u) : Steady s u :=
  ⟨h'.ops.trans h.ops, h'.received.trans h.received, h'.parks.trans h.parks⟩

/-- The events that settle the message `id`. It is consumed when nothing is pending (`flushed`), or
without a handler. -/
def Event.Own (e : EnginePorts σ) (flushed : Bool) (id : Nat) : Event → Prop
  | .rejected id' _ _ => id' = id
  | .consumed id' kind _ => id' = id ∧ (flushed = true ∨ e.wired kind = false)
  | .acked id' => id' = id
  | .abandoned id' => id' = id
  | _ => False

/-- A run that deals with the message `id`, which is in hand before it if `cur`, and after it if
`still`: only a message in hand is settled, and then it is in hand no more. -/
structure OwnRun (e : EnginePorts σ) (flushed : Bool) (id : Nat) (cur : Bool) (still : α → Bool)
    (s : Shard σ) (o : Outcome Event (Shard σ) α) : Prop where
  steady : Steady s o.state
  own : ∀ ev ∈ o.events, ev.Own e flushed id
  settled : cur = false → o.events = []
  inHand : ∀ a, o.value = some a → still a = true → cur = true ∧ o.events = []

/-- Every run of the procedure deals with the message `id`. -/
def Owns (e : EnginePorts σ) (flushed : Bool) (id : Nat) (cur : Bool) (p : Proc Event (Shard σ) α)
    (still : α → Bool) : Prop :=
  ∀ s, OwnRun e flushed id cur still s (p s)

/-- The message may be consumed so. -/
def InboundMessage.Due (m : InboundMessage) (how : Consumption) : Prop :=
  ∀ rest, splitDeviceTopic m.topic m.realm m.deviceID = some rest → how.Due (classify rest)

/-- The log of a run that deals with the message `id`: nothing, or the events that settle it. Only a
message without data is consumed. -/
inductive Settling (e : EnginePorts σ) (flushed : Bool) (id : Nat) (m : InboundMessage) :
    List Event → Prop where
  | silent : Settling e flushed id m []
  | rejected (reason : String) (detail : List FmtError) :
      Settling e flushed id m [.rejected id reason detail, .acked id]
  | consumed (kind : TopicKind) (how : Consumption) (ready : flushed = true ∨ e.wired kind = false)
      (noData : ¬ m.CarriesData) (due : m.Due how) : Settling e flushed id m [.consumed id kind how, .acked id]
  | abandoned : Settling e flushed id m [.abandoned id]

/-- A run that deals with the message and settles it in one of these ways. -/
structure DealRun (e : EnginePorts σ) (flushed : Bool) (id : Nat) (m : InboundMessage) (cur : Bool)
    (still : α → Bool) (s : Shard σ) (o : Outcome Event (Shard σ) α) : Prop extends
    OwnRun e flushed id cur still s o where
  settling : Settling e flushed id m o.events

/-- The message is dealt with on every run. -/
def Deals (e : EnginePorts σ) (flushed : Bool) (id : Nat) (m : InboundMessage) (cur : Bool)
    (p : Proc Event (Shard σ) α) (still : α → Bool) : Prop :=
  ∀ s, DealRun e flushed id m cur still s (p s)

variable {e : EnginePorts σ} {flushed : Bool} {id : Nat} {cur : Bool} {m : InboundMessage}
  {realm : RealmSchema}

theorem Settling.own (h : Settling e flushed id m es) : ∀ ev ∈ es, ev.Own e flushed id := by
  cases h with
  | consumed kind how ready noData due => simpa [Event.Own] using ready
  | _ => simp [Event.Own]

variable {p : Proc Event (Shard σ) α} {still : α → Bool}

theorem Deals.owns (h : Deals e flushed id m cur p still) : Owns e flushed id cur p still :=
  fun s => (h s).toOwnRun

/-- A run without an event. -/
theorem DealRun.quiet {v : Option α} (h : Steady s t)
    (hstill : ∀ a, v = some a → still a = true → cur = true) :
    DealRun e flushed id m cur still s ⟨[], t, v⟩ where
  steady := h
  own := fun ev hev => by cases hev
  settled := fun _ => rfl
  inHand := fun a ha hs => ⟨hstill a ha hs, rfl⟩
  settling := .silent

theorem DealRun.bind {f : α → Proc Event (Shard σ) β} {still' : β → Bool}
    (hp : DealRun e flushed id m cur still s (p s))
    (hf : ∀ a, DealRun e flushed id m (still a) still' (p s).state (f a (p s).state)) :
    DealRun e flushed id m cur still' s ((p >>= f) s) := by
  rcases hps : p s with ⟨es, t, _ | a⟩ <;> rw [hps] at hp hf
  · rw [Proc.bind_apply_none hps]
    exact ⟨⟨hp.steady, hp.own, hp.settled, fun a ha => by cases ha⟩, hp.settling⟩
  · rw [Proc.bind_apply_some hps]
    have hfa := hf a
    -- One of the two parts has no event: the first while the message is in hand after it, and the
    -- second otherwise.
    have hevents : Settling e flushed id m (es ++ (f a t).events) := by
      cases hstill : still a with
      | true =>
        obtain rfl : es = [] := (hp.inHand a rfl hstill).2
        exact hfa.settling
      | false =>
        have hnil : (f a t).events = [] := hfa.settled hstill
        rw [hnil, List.append_nil]
        exact hp.settling
    refine ⟨⟨hp.steady.trans hfa.steady, hevents.own, ?_, ?_⟩, hevents⟩
    · intro hcur
      -- Without a message in hand the first part cannot have it in hand either.
      have hstill : still a = false := by
        cases hstill : still a with
        | false => rfl
        | true => exact (hp.inHand a rfl hstill).1.symm.trans hcur
      exact List.append_eq_nil_iff.2 ⟨hp.settled hcur, hfa.settled hstill⟩
    · intro b hb hs
      obtain ⟨hstill, hes'⟩ := hfa.inHand b hb hs
      obtain ⟨hcur, hes⟩ := hp.inHand a rfl hstill
      exact ⟨hcur, List.append_eq_nil_iff.2 ⟨hes, hes'⟩⟩

theorem Deals.bind {f : α → Proc Event (Shard σ) β} {still' : β → Bool} (hp : Deals e flushed id m cur p still)
    (hf : ∀ a, Deals e flushed id m (still a) (f a) still') : Deals e flushed id m cur (p >>= f) still' :=
  fun s => (hp s).bind fun a => hf a _

theorem deals_pure (a : α) (h : still a = true → cur = true) : Deals e flushed id m cur (pure a) still := by
  intro s
  apply DealRun.quiet (Steady.refl s)
  rintro _ ⟨⟩
  exact h

theorem deals_withEnv (f : σ → α × σ) : Deals e flushed id m cur (withEnv f) fun _ => cur :=
  fun _ => .quiet ⟨rfl, rfl, List.suffix_rfl⟩ fun _ _ h => h

/-- A message in hand is settled by its own events. -/
theorem deals_events {a : α}
    (hes : Settling e flushed id m es) (hp : ∀ s, p s = ⟨es, s, some a⟩)
    (hstill : still a = false) : Deals e flushed id m true p still := by
  intro s
  rw [hp]
  refine ⟨⟨Steady.refl s, hes.own, ?_, ?_⟩, hes⟩
  · intro h
    cases h
  · rintro _ ⟨⟩ hs
    cases hs.symm.trans hstill

theorem deals_reject (reason : String) (detail : List FmtError) :
    Deals e flushed id m true (reject id reason detail) fun _ => false :=
  deals_events (.rejected reason detail) (fun _ => rfl) rfl

theorem deals_consume {kind : TopicKind} {how : Consumption} (hm : ¬ m.CarriesData) (hdue : m.Due how)
    (h : flushed = true ∨ e.wired kind = false) :
    Deals e flushed id m true (consume id kind how) fun _ => false :=
  deals_events (.consumed kind how h hm hdue) (fun _ => rfl) rfl

theorem deals_abandoned (a : α) (h : still a = false) :
    Deals e flushed id m true (do
      Proc.emit (.abandoned id)
      pure a) still :=
  deals_events .abandoned (fun _ => rfl) h

/-- The retry loop, from one attempt that leaves the parkings alone. -/
theorem deals_retryParked {attempt : Proc Event (Shard σ) (Option α)} {quit : Proc Event (Shard σ) α}
    (hattempt : Deals e flushed id m true attempt fun r => r.elim true still)
    (hkeeps : attempt.Keeps Shard.parks) (hquit : Deals e flushed id m true quit still) :
    Deals e flushed id m true (do
      let s ← Proc.get
      retryParked attempt quit s.parks) still := by
  -- The list the loop goes through is the list in the state.
  have hloop : ∀ parks s, s.parks = parks →
      DealRun e flushed id m true still s (retryParked attempt quit parks s) := by
    intro parks
    induction parks with
    | nil =>
      intro s hs
      unfold retryParked
      apply (hattempt s).bind
      intro r
      cases r with
      | some a => exact deals_pure a (fun h => h) _
      | none => exact .quiet (Steady.refl _) fun a ha => by cases ha
    | cons park parks ih =>
      intro s hs
      unfold retryParked
      apply (hattempt s).bind
      intro r
      cases r with
      | some a => exact deals_pure a (fun h => h) _
      | none =>
        have hparks : (attempt s).state.parks = park :: parks := (hkeeps s).trans hs
        have hmodify : DealRun e flushed id m true (fun _ => true) (attempt s).state
            ((Proc.modify fun s => { s with parks := parks } : Proc Event (Shard σ) Unit)
              (attempt s).state) := by
          refine .quiet ⟨rfl, rfl, ?_⟩ fun _ _ h => h
          rw [hparks]
          exact List.suffix_cons park parks
        cases park with
        | elapsed => exact hmodify.bind fun _ => ih _ rfl
        | quit => exact hmodify.bind fun _ => hquit _
  intro s
  exact hloop s.parks s rfl

theorem loadDevice_keeps : (loadDevice e id m realm).Keeps Shard.parks := by
  refine Proc.Keeps.bind (fun _ => rfl) fun r => ?_
  split
  · exact Proc.keeps_pure _
  · exact Proc.Keeps.bind (fun _ => rfl) fun _ => Proc.keeps_pure _
  · exact Proc.keeps_pure _

theorem deals_deviceState : Deals e flushed id m true (deviceState e id m realm) fun r => r.isSome := by
  refine deals_retryParked ?_ loadDevice_keeps (deals_abandoned _ rfl)
  apply (deals_withEnv _).bind
  intro r
  cases r with
  | ok dev => exact deals_pure _ fun _ => rfl
  | error err =>
    cases err with
    | notFound => exact (deals_reject _ _).bind fun _ => deals_pure _ fun h => h
    | pg code => exact deals_pure _ fun _ => rfl
    | other => exact deals_pure _ fun _ => rfl

theorem tryStore_keeps (kind : TopicKind) (work : σ → Except StoreError Unit × σ) :
    (tryStore id kind work).Keeps Shard.parks := by
  refine Proc.Keeps.bind (fun _ => rfl) fun r => ?_
  split
  · exact Proc.keeps_pure _
  · split_ifs
    · exact Proc.Keeps.bind (fun _ => rfl) fun _ => Proc.keeps_pure _
    · exact Proc.Keeps.bind (fun _ => rfl) fun _ => Proc.keeps_pure _
    · exact Proc.keeps_pure _

/-! ### Handlers -/

section Handlers

variable (hm : ¬ m.CarriesData)

include hm

theorem deals_retryStore (kind : TopicKind) (work : σ → Except StoreError Unit × σ) :
    Deals e true id m true (retryStore id kind work) fun done => done := by
  refine deals_retryParked ?_ (tryStore_keeps kind work) (deals_abandoned _ rfl)
  apply (deals_withEnv _).bind
  intro r
  cases r with
  | ok u => exact deals_pure _ fun _ => rfl
  | error err =>
    dsimp only
    split_ifs with _ hpermanent
    · exact (deals_reject _ _).bind fun _ => deals_pure _ fun h => h
    · have hdue : m.Due (.replied (.error err)) := fun _ _ _ heq => Except.error.inj heq ▸ hpermanent
      exact (deals_consume hm hdue (.inl rfl)).bind fun _ => deals_pure _ fun h => h
    · exact deals_pure _ fun _ => rfl

theorem deals_withDevice (kind : TopicKind) (prepare finish : DeviceState → DeviceState)
    (work : DeviceState → σ → Except StoreError Unit × σ) :
    Deals e true id m true (withDevice e id kind m realm prepare work finish) fun _ => false := by
  apply deals_deviceState.bind
  intro r
  cases r with
  | none => exact deals_pure _ fun h => h
  | some dev =>
    apply (deals_withEnv _).bind
    intro _
    apply (deals_retryStore hm kind _).bind
    intro done
    cases done with
    | false => exact deals_pure _ fun h => h
    | true =>
      have hdue : m.Due (.replied (.ok ())) := fun _ _ _ heq => by cases heq
      exact (deals_withEnv _).bind fun _ => deals_consume hm hdue (.inl rfl)

theorem deals_handleIntrospection :
    Deals e true id m true (handleIntrospection e id m realm) fun _ => false := by
  unfold handleIntrospection
  split_ifs
  · exact deals_reject _ _
  · split
    · exact deals_reject _ _
    · exact deals_withDevice hm _ _ _ _

theorem deals_handleControl {subpath : Bytes} (hidle : callsStore (.control, subpath) = false → m.Due .idle) :
    Deals e true id m true (handleControl e id m realm subpath) fun _ => false := by
  unfold handleControl
  split_ifs with hempty hproducer
  · exact deals_withDevice hm _ _ _ _
  · unfold handleProducerProperties
    split
    · exact deals_reject _ _
    · exact deals_withDevice hm _ _ _ _
  · exact deals_consume hm (hidle (by simp [callsStore, hempty, hproducer])) (.inl rfl)

theorem deals_handleCapabilities (hidle : m.Due .idle) :
    Deals e true id m true (handleCapabilities e id m realm) fun _ => false := by
  unfold handleCapabilities
  split
  · exact deals_reject _ _
  · split
    · exact deals_reject _ _
    · apply deals_deviceState.bind
      intro r
      cases r with
      | none => exact deals_pure _ fun h => h
      | some dev => exact (deals_withEnv _).bind fun _ => deals_consume hm hidle (.inl rfl)

end Handlers

/-! ### Data -/

theorem deals_noteFormat (dev : DeviceState) (f : Payload.Format) :
    Deals e flushed id m true (noteFormat e m realm dev f) fun _ => true := by
  apply (deals_withEnv _).bind
  intro _
  split
  · exact deals_pure _ fun h => h
  · exact (deals_withEnv _).bind fun _ => deals_pure _ fun h => h

/-- The lookup of the stored value returns, and changes nothing but what lies behind the ports. -/
theorem storedPrevious_run (op : PersistOp) (s : Shard σ) :
    ∃ env r, storedPrevious e op s = ⟨[], { s with env := env }, some r⟩ := by
  -- Whatever the lookup answers, the procedure goes on without an event.
  have hlookup : ∀ {γ : Type} (f : σ → γ × σ) (g : γ → Proc Event (Shard σ) (Option PrevSnap)),
      (∀ a, ∃ r, g a = pure r) →
        ∃ env r, (withEnv f >>= g) s = ⟨[], { s with env := env }, some r⟩ := by
    intro γ f g hg
    obtain ⟨r, hr⟩ := hg (f s.env).1
    rw [Proc.bind_apply_some (withEnv_apply f s), hr]
    exact ⟨_, r, rfl⟩
  unfold storedPrevious
  cases op.kind with
  | propertySet =>
    apply hlookup
    rintro (err | p)
    · cases err <;> exact ⟨_, rfl⟩
    · exact ⟨_, rfl⟩
  | propertyUnset =>
    apply hlookup
    rintro (err | p)
    · cases err <;> exact ⟨_, rfl⟩
    · exact ⟨_, rfl⟩
  | individual =>
    apply hlookup
    rintro (err | row)
    · cases err <;> exact ⟨_, rfl⟩
    · dsimp only
      cases prevIndividualJSON row <;> exact ⟨_, rfl⟩
  | object => exact ⟨s.env, none, rfl⟩

/-- Tracking the previous value keeps an operation one of the pipeline, for the same message and with the same
row. -/
theorem trackPrevious_run (e : EnginePorts σ) (realm : RealmSchema) {op : PersistOp} (hop : Emitted op)
    (s : Shard σ) :
    ∃ t op', trackPrevious e realm op s = ⟨[], t, some op'⟩ ∧ Steady s t ∧ op'.ack = op.ack ∧
      Emitted op' ∧ op'.row = op.row := by
  have hself : ∃ t op', (pure op : Proc Event (Shard σ) PersistOp) s = ⟨[], t, some op'⟩ ∧
      Steady s t ∧ op'.ack = op.ack ∧ Emitted op' ∧ op'.row = op.row :=
    ⟨s, op, rfl, Steady.refl s, rfl, hop, rfl⟩
  unfold trackPrevious
  split_ifs with hobject hwatched
  · exact hself
  · exact hself
  · cases encodeValueJSON op.value with
    | error err => exact hself
    | ok newJSON =>
      obtain ⟨env, r, hprevious⟩ : ∃ env r,
          previous e op s = ⟨[], { s with env := env }, some r⟩ := by
        unfold previous
        rw [Proc.bind_apply_some (Proc.get_apply s), Proc.after_nil]
        cases s.pendingPrev op.key with
        | some snap => exact ⟨s.env, _, rfl⟩
        | none => exact storedPrevious_run op s
      dsimp only
      rw [Proc.bind_apply_some hprevious]
      cases r with
      | none => exact ⟨_, op, rfl, ⟨rfl, rfl, List.suffix_rfl⟩, rfl, hop, rfl⟩
      | some snap =>
        exact ⟨_, _, rfl, ⟨rfl, rfl, List.suffix_rfl⟩, rfl, hop.track hobject true snap.exists snap.json, rfl⟩

/-- A data message is rejected, or accepted with an operation of the pipeline: the decoder fails with a
rejection only, so that no data message is consumed. -/
theorem processData_cases (e : EnginePorts σ) (id : Nat) (m : InboundMessage) (realm : RealmSchema)
    (dev : DeviceState) (rest : Bytes) :
    (∃ reason detail, processData e id m realm dev rest = reject id reason detail) ∨
      ∃ ci mapping path dp,
        processData e id m realm dev rest = acceptData e id m realm dev ci mapping path dp ∧
          Emitted (newOp id m realm.id ci mapping path dp) := by
  -- A decoded payload is accepted, and the failure of the decoder is a rejection.
  have hfinish : ∀ ci mapping path r, Payload.Rejects r →
      (∀ dp, r = .ok dp → Emitted (newOp id m realm.id ci mapping path dp)) →
      (∃ reason detail, finishData e id m realm dev ci mapping path r = reject id reason detail) ∨
        ∃ ci' mapping' path' dp,
          finishData e id m realm dev ci mapping path r =
              acceptData e id m realm dev ci' mapping' path' dp ∧
            Emitted (newOp id m realm.id ci' mapping' path' dp) := by
    intro ci mapping path r hr hop
    cases r with
    | ok dp => exact .inr ⟨ci, mapping, path, dp, rfl, hop dp rfl⟩
    | error err =>
      have hreason := hr err rfl
      cases err with
      | plain f => exact absurd rfl hreason
      | reject rej => exact .inl ⟨_, _, if_neg hreason⟩
  unfold processData
  split
  · exact .inl ⟨_, _, rfl⟩
  · split
    · exact .inl ⟨_, _, rfl⟩
    · rename_i ci hci
      have haccepted := realm.accepted _ _ ci hci
      split_ifs with howner hobject hpath
      · exact .inl ⟨_, _, rfl⟩
      · exact .inl ⟨_, _, rfl⟩
      · apply hfinish _ _ _ _ (Payload.meets_object _ _ _ (haccepted.leaves hobject).1).rejects
        intro dp hdp
        exact .object _ _ id m realm.id ci _ dp haccepted hobject hdp rfl
      · split
        · exact .inl ⟨_, _, rfl⟩
        · rename_i ptr hptr
          apply hfinish _ _ _ _ (Payload.meets_individual ..).rejects
          intro dp hdp
          exact .individual _ _ id m realm.id ci ptr _ dp false false [] haccepted hptr hdp rfl

/-! ## Moves -/

/-- A flush that returns leaves nothing pending. -/
theorem flush_returns {port : BatchPort σ}
    (h : flush port s = ⟨es, t, some ()⟩) : t.ops = [] := by
  unfold flush at h
  rw [Proc.bind_apply_some (Proc.get_apply s), Proc.after_nil] at h
  by_cases hempty : s.ops.isEmpty = true
  · rw [if_pos hempty] at h
    cases h
    exact List.isEmpty_iff.1 hempty
  · rw [if_neg hempty] at h
    rcases hrun : flushOps port s.ops s with ⟨es', s', _ | u⟩
    · rw [Proc.bind_apply_none hrun] at h
      cases h
    · rw [Proc.bind_apply_some hrun] at h
      cases h
      rfl

theorem leaveBatch_run (s : Shard σ) :
    leaveBatch s = ⟨s.ops.map fun op => .abandoned op.ack, { s with ops := [] }, some ()⟩ := by
  unfold leaveBatch
  rw [Proc.bind_apply_some (Proc.get_apply s), Proc.bind_apply_some (Proc.forEach_emit_apply _ s.ops s)]
  simp [Proc.modify_apply, Outcome.after]

/-- No message is in hand. -/
def Between (R : Nat → InboundMessage → Bool → List Event → Shard σ → Prop) (log : List Event)
    (s : Shard σ) : Prop := ∃ id m, R id m false log s

/-- What is asked of the states `R`, with this message in hand or with none, and of the states `H` in which
a run may be found, so that the procedures of a shard lead from the ones to the others. -/
structure MoveRules (e : EnginePorts σ) (R : Nat → InboundMessage → Bool → List Event → Shard σ → Prop)
    (H : List Event → Shard σ → Prop) : Prop where
  quiet : ∀ {id m cur log s t}, R id m cur log s → Steady s t → R id m cur log t
  receive : ∀ {log s}, Between R log s → ∀ m, R s.received m true
    (log ++ [.received s.received m]) { s with received := s.received + 1 }
  settle : ∀ {flushed id m log es s}, R id m true log s → (flushed = true → s.ops = []) →
    Settling e flushed id m es → Between R (log ++ es) s
  queue : ∀ {id m op log s}, R id m true log s → op.ack = id → Emitted op →
    Between R (log ++ [.queued op]) { s with ops := s.ops ++ [op] }
  flushed : ∀ {id m cur log es s t}, R id m cur log s → flush e.toBatchPort s = ⟨es, t, some ()⟩ →
    R id m cur (log ++ es) t
  idle : ∀ {id m cur log s}, R id m cur log s → H log s
  parked : ∀ {id m cur log es s t}, R id m cur log s → flush e.toBatchPort s = ⟨es, t, none⟩ →
    H (log ++ es) t
  left : ∀ {log s}, Between R log s →
    H (log ++ s.ops.map fun op => .abandoned op.ack) { s with ops := [] }

/-- In hand, with nothing pending if `flushed`, or settled. -/
def Dealt (R : Nat → InboundMessage → Bool → List Event → Shard σ → Prop) (flushed : Bool) (id : Nat)
    (m : InboundMessage) (inHand : Bool) (log : List Event) (s : Shard σ) : Prop :=
  if inHand then R id m true log s ∧ (flushed = true → s.ops = []) else Between R log s

section Rules

variable {R : Nat → InboundMessage → Bool → List Event → Shard σ → Prop}
  {H : List Event → Shard σ → Prop} (rules : MoveRules e R H)

include rules

/-- What deals with the message in hand is a quiet move, or settles the message. -/
theorem moves_deals (hp : Deals e flushed id m true p still) :
    Proc.Triple H (Dealt R flushed id m true) p fun a => Dealt R flushed id m (still a) := by
  rintro log s ⟨h, hready⟩
  have hrun := hp.owns s
  have hsettling := (hp s).settling
  rcases hps : p s with ⟨es, t, _ | a⟩ <;> rw [hps] at hrun hsettling
  · obtain ⟨id', m', h'⟩ := rules.settle h hready hsettling
    exact rules.idle (rules.quiet h' hrun.steady)
  · dsimp only
    cases hstill : still a with
    | false =>
      obtain ⟨id', m', h'⟩ := rules.settle h hready hsettling
      exact ⟨id', m', rules.quiet h' hrun.steady⟩
    | true =>
      obtain ⟨-, hes⟩ := hrun.inHand a rfl hstill
      obtain rfl : es = [] := hes
      rw [List.append_nil]
      exact ⟨rules.quiet h hrun.steady, fun hf => hrun.steady.ops.trans (hready hf)⟩

/-- Disarming the timer and flushing. -/
theorem moves_flushShard : Proc.Triple H (R id m cur) (flushShard e)
    fun _ log s => R id m cur log s ∧ s.ops = [] := by
  intro log s h
  have hdisarmed : R id m cur log { s with armed := false } :=
    rules.quiet h ⟨rfl, rfl, List.suffix_rfl⟩
  have hshard : flushShard e s = flush e.toBatchPort { s with armed := false } :=
    Proc.bind_apply_some (Proc.modify_apply _ s)
  rw [hshard]
  rcases hrun : flush e.toBatchPort { s with armed := false } with ⟨es, t, _ | u⟩
  · exact rules.parked hdisarmed hrun
  · exact ⟨rules.flushed hdisarmed hrun, flush_returns hrun⟩

theorem moves_flush_between : Proc.Triple H (Between R) (flushShard e) fun _ => Between R := by
  rintro log s ⟨id, m, h⟩
  exact (moves_flushShard rules).consequence (fun _ _ h => h) (fun _ _ _ h => ⟨id, m, h.1⟩) log s h

/-- A handler finds the batch flushed; without one the message is consumed. -/
theorem moves_dispatch (kind : TopicKind) (hm : ¬ m.CarriesData) {handler : Proc Event (Shard σ) Unit}
    (hhandler : Deals e true id m true handler fun _ => false) :
    Proc.Triple H (Dealt R false id m true) (dispatch e id kind (e.wired kind) handler) fun _ => Between R := by
  cases hwired : e.wired kind with
  | true =>
    exact ((moves_flushShard rules).consequence (fun _ _ h => h.1) fun _ _ _ h =>
      (⟨h.1, fun _ => h.2⟩ : Dealt R true id m true _ _)).bind fun _ => moves_deals rules hhandler
  | false =>
    have hdue : m.Due .unhandled := fun _ _ => trivial
    exact moves_deals rules (deals_consume hm hdue (.inr hwired))

/-- The operation of an accepted message joins the batch. -/
theorem moves_acceptData (dev : DeviceState) {ci : InterfaceSchema.CompiledInterface}
    {mapping : Option InterfaceSchema.CompiledMapping} {path : Bytes} {dp : Payload.DecodedPayload}
    (hop : Emitted (newOp id m realm.id ci mapping path dp)) :
    Proc.Triple H (Dealt R flushed id m true) (acceptData e id m realm dev ci mapping path dp)
      fun _ => Between R := by
  apply Proc.Triple.bind (moves_deals rules (deals_noteFormat dev dp.format))
  intro _ log s h
  obtain ⟨t, op, hrun, hsteady, hack, hemitted, -⟩ := trackPrevious_run e realm hop s
  rw [Proc.bind_apply_some hrun, Proc.after_nil]
  exact rules.queue (rules.quiet h.1 hsteady) hack hemitted

theorem moves_processData (dev : DeviceState) (rest : Bytes) :
    Proc.Triple H (Dealt R flushed id m true) (processData e id m realm dev rest) fun _ => Between R := by
  rcases processData_cases e id m realm dev rest with
    ⟨reason, detail, heq⟩ | ⟨ci, mapping, path, dp, heq, hop⟩ <;> rw [heq]
  · exact moves_deals rules (deals_reject reason detail)
  · exact moves_acceptData rules dev hop

theorem moves_handleTopic {rest : Bytes} (htopic : splitDeviceTopic m.topic m.realm m.deviceID = some rest) :
    Proc.Triple H (Dealt R false id m true) (handleTopic e id m realm rest) fun _ => Between R := by
  have hm : (classify rest).1 ≠ .data → ¬ m.CarriesData := by
    rintro hkind ⟨rest', hrest', hdata⟩
    rw [htopic, Option.some.injEq] at hrest'
    subst hrest'
    exact hkind hdata
  have hidle : callsStore (classify rest) = false → m.Due .idle := by
    intro h rest' hrest'
    rw [htopic, Option.some.injEq] at hrest'
    exact hrest' ▸ h
  unfold handleTopic
  rcases hclass : classify rest with ⟨kind, subpath⟩
  rw [hclass] at hm hidle
  cases kind with
  | introspection =>
    have hm := hm TopicKind.noConfusion
    exact moves_dispatch rules .introspection hm (deals_handleIntrospection hm)
  | control =>
    have hm := hm TopicKind.noConfusion
    exact moves_dispatch rules .control hm (deals_handleControl hm hidle)
  | capabilities =>
    have hm := hm TopicKind.noConfusion
    exact moves_dispatch rules .capabilities hm (deals_handleCapabilities hm (hidle rfl))
  | data =>
    apply Proc.Triple.bind (moves_deals rules deals_deviceState)
    intro r
    cases r with
    | none => exact Proc.triple_pure fun _ _ h => h
    | some dev => exact moves_processData rules dev rest

theorem moves_handle (m : InboundMessage) : Proc.Triple H (Between R) (handle e m) fun _ => Between R := by
  apply Proc.Triple.bind (R := fun id log s => ∃ s₀ : Shard σ, Between R log s₀ ∧
    id = s₀.received ∧ s = { s₀ with received := s₀.received + 1 })
  · exact Proc.triple_modifyGet fun _ s h => ⟨s, h, rfl, rfl⟩
  intro id
  apply Proc.Triple.bind (R := fun _ => Dealt R false id m true)
  · apply Proc.triple_emit
    rintro log s ⟨s₀, h, rfl, rfl⟩
    exact ⟨rules.receive h m, fun hf => by cases hf⟩
  intro _
  apply Proc.Triple.bind (moves_deals rules (deals_withEnv _))
  intro r
  cases r with
  | none => exact moves_deals rules (deals_reject _ _)
  | some realm =>
    dsimp only
    split
    · exact moves_deals rules (deals_reject _ _)
    · next rest htopic => exact moves_handleTopic rules htopic

theorem moves_afterHandle : Proc.Triple H (Between R) (afterHandle e) fun _ => Between R := by
  apply Proc.triple_get_bind
  intro s₀
  refine Proc.Triple.consequence (?_ : Proc.Triple H (Between R) _ _) (fun _ _ h => h.1) fun _ _ _ h => h
  split_ifs
  · exact moves_flush_between rules
  · apply Proc.triple_modify
    rintro _ _ ⟨id, m, h⟩
    exact ⟨id, m, rules.quiet h ⟨rfl, rfl, List.suffix_rfl⟩⟩
  · exact Proc.triple_pure fun _ _ h => h

theorem moves_fireTimer : Proc.Triple H (Between R) (fireTimer e) fun _ => Between R := by
  apply Proc.triple_get_bind
  intro s₀
  refine Proc.Triple.consequence (?_ : Proc.Triple H (Between R) _ _) (fun _ _ h => h.1) fun _ _ _ h => h
  split_ifs
  · exact moves_flush_between rules
  · exact Proc.triple_pure fun _ _ h => h

/-- Every input is answered by moves, so every sequence of inputs is. -/
theorem moves_shardPass (inputs : List Input) : Proc.Triple H (Between R) (shardPass e inputs) fun _ => H := by
  induction inputs with
  | nil => exact Proc.triple_pure fun _ _ ⟨_, _, h⟩ => rules.idle h
  | cons input inputs ih =>
    cases input with
    | message m =>
      exact (moves_handle rules m).bind fun _ => (moves_afterHandle rules).bind fun _ => ih
    | timer => exact (moves_fireTimer rules).bind fun _ => ih
    | done =>
      intro log s h
      rw [show shardPass e (.done :: inputs) s = leaveBatch s from rfl, leaveBatch_run]
      exact rules.left h
    | closed =>
      exact (moves_flush_between rules).consequence (fun _ _ h => h) fun _ _ _ ⟨_, _, h⟩ => rules.idle h

end Rules

/-! ## Reached states -/

/-- The logs and states that moves of the shard lead to; the message received last is in hand, or
not. -/
inductive Reached (e : EnginePorts σ) (env : σ) (parks : List Park) :
    Bool → List Event → Shard σ → Prop where
  | start : Reached e env parks false [] { env := env, parks := parks }
  /-- What lies behind the ports changes, and parkings end. -/
  | quiet {cur : Bool} {log : List Event} {s t : Shard σ} (before : Reached e env parks cur log s)
      (steady : Steady s t) : Reached e env parks cur log t
  | receive {log : List Event} {s : Shard σ} (before : Reached e env parks false log s)
      (m : InboundMessage) :
      Reached e env parks true (log ++ [.received s.received m])
        { s with received := s.received + 1 }
  | settle {flushed : Bool} {id : Nat} {log es : List Event} {s t : Shard σ}
      (before : Reached e env parks true log s) (current : id + 1 = s.received)
      (ready : flushed = true → s.ops = []) (steady : Steady s t)
      (own : ∀ ev ∈ es, ev.Own e flushed id) : Reached e env parks false (log ++ es) t
  | queue {op : PersistOp} {log : List Event} {s : Shard σ} (before : Reached e env parks true log s)
      (current : op.ack + 1 = s.received) (emitted : Emitted op) :
      Reached e env parks false (log ++ [.queued op]) { s with ops := s.ops ++ [op] }
  | flush {cur : Bool} {log es : List Event} {s t : Shard σ} (before : Reached e env parks cur log s)
      (run : flush e.toBatchPort s = ⟨es, t, some ()⟩) : Reached e env parks cur (log ++ es) t

/-- Where a run may be found: after its moves, parked in a flush, or with the batch left behind. -/
inductive Halted (e : EnginePorts σ) (env : σ) (parks : List Park) : List Event → Shard σ → Prop where
  | idle {cur : Bool} {log : List Event} {s : Shard σ} (before : Reached e env parks cur log s) :
      Halted e env parks log s
  | parked {cur : Bool} {log es : List Event} {s t : Shard σ} (before : Reached e env parks cur log s)
      (run : flush e.toBatchPort s = ⟨es, t, none⟩) : Halted e env parks (log ++ es) t
  | left {log : List Event} {s : Shard σ} (before : Reached e env parks false log s) :
      Halted e env parks (log ++ s.ops.map fun op => .abandoned op.ack) { s with ops := [] }

section Runs

variable {env : σ} {parks : List Park}

/-- Only operations of the pipeline wait in the batch. -/
theorem Reached.ready {log : List Event} {s : Shard σ} (h : Reached e env parks cur log s) :
    ∀ op ∈ s.ops, op.Ready := by
  induction h with
  | start => exact fun op hop => by cases hop
  | quiet _ steady ih => exact steady.ops ▸ ih
  | receive _ m ih => exact ih
  | settle _ _ _ steady _ ih => exact steady.ops ▸ ih
  | queue _ _ emitted ih =>
    refine List.forall_mem_append.2 ⟨ih, fun op hop => ?_⟩
    exact List.mem_singleton.1 hop ▸ emitted.ready
  | flush _ run =>
    rw [flush_returns run]
    exact fun op hop => by cases hop

/-- The message `id` is in hand; `flushed` says that nothing is pending. -/
structure Working (e : EnginePorts σ) (env : σ) (parks : List Park) (flushed : Bool) (id : Nat)
    (log : List Event) (s : Shard σ) : Prop where
  reached : Reached e env parks true log s
  current : id + 1 = s.received
  ready : flushed = true → s.ops = []

/-- A procedure made of moves. -/
def Moves (e : EnginePorts σ) (env : σ) (parks : List Park) (P : List Event → Shard σ → Prop)
    (p : Proc Event (Shard σ) α) (Q : α → List Event → Shard σ → Prop) : Prop :=
  Proc.Triple (Halted e env parks) P p Q

/-- In hand as before, or settled. -/
def WorkingIf (e : EnginePorts σ) (env : σ) (parks : List Park) (flushed : Bool) (id : Nat)
    (inHand : Bool) (log : List Event) (s : Shard σ) : Prop :=
  if inHand then Working e env parks flushed id log s else Reached e env parks false log s

theorem WorkingIf.working {log : List Event} {s : Shard σ}
    (h : WorkingIf e env parks flushed id true log s) : Working e env parks flushed id log s := h

/-- The moves of `Reached` and the ends of `Halted` follow the rules. -/
theorem reached_rules : MoveRules e
    (fun id _ inHand => WorkingIf e env parks false id inHand) (Halted e env parks) where
  quiet {id m cur log s t} h hst := by
    cases cur with
    | false => exact Reached.quiet h hst
    | true =>
      exact ⟨.quiet h.reached hst, h.current.trans hst.received.symm, nofun⟩
  receive := fun ⟨_, _, h⟩ m => ⟨.receive h m, rfl, nofun⟩
  settle {flushed id m log es s} h hready hes :=
    ⟨id, m, Reached.settle h.working.reached h.working.current hready (Steady.refl s) hes.own⟩
  queue {id m op log s} h hack hop :=
    ⟨id, m, Reached.queue h.working.reached (hack ▸ h.working.current) hop⟩
  flushed {id m cur log es s t} h hrun := by
    cases cur with
    | false => exact Reached.flush h hrun
    | true =>
      have hreceived := flush_received e.toBatchPort s h.reached.ready
      rw [hrun] at hreceived
      exact ⟨.flush h.reached hrun, h.current.trans hreceived.symm, nofun⟩
  idle {id m cur log s} h := by
    cases cur with
    | false => exact .idle h
    | true => exact .idle h.working.reached
  parked {id m cur log es s t} h hrun := by
    cases cur with
    | false => exact .parked h hrun
    | true => exact .parked h.working.reached hrun
  left := fun ⟨_, _, h⟩ => .left h

/-- No message is in hand before the first one. -/
theorem moves_inputs (e : EnginePorts σ) (env : σ) (parks : List Park) (inputs : List Input) :
    Moves e env parks (Reached e env parks false) (shardPass e inputs) fun _ => Halted e env parks :=
  (moves_shardPass reached_rules inputs).consequence
    (fun _ _ h => ⟨0, ⟨[], Vector.replicate 16 0, [], [], ⟨0⟩⟩, h⟩) fun _ _ _ h => h

end Runs

/-- Every run is made of moves. -/
theorem runShard_halted (e : EnginePorts σ) (env : σ) (parks : List Park) (inputs : List Input) :
    Halted e env parks (runShard e env parks inputs).events (runShard e env parks inputs).state := by
  have hrun := moves_inputs e env parks inputs [] _ .start
  unfold runShard
  rcases hpass : shardPass e inputs { env := env, parks := parks } with ⟨es, s, _ | _⟩ <;>
    rw [hpass] at hrun <;> exact hrun

end

end Astrate.Engine
