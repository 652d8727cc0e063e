import Astrate.Engine.Topics
import Astrate.GoLib.Chan
import Astrate.GoLib.Lanes
import Astrate.GoLib.Schedule

/-!
# Submission and drain

`Submit`, `shardOf`, the loops of the shards and `drain` of `internal/engine/router.go`, as a machine of
any number of calls and shards. `Submit` holds the read lock while it looks at `closed` and sends to the
channel of the shard of its device; `drain` takes the write lock to set `closed` and close the channels,
and then waits for the shards.

A call that sends holds the read lock and saw `closed` unset, so no channel is closed under it
(`LockSound`). A shard receives what was sent to it in this order (`LogSound`), and ends when its channel
is closed and empty.
-/

set_option autoImplicit false

namespace Astrate.Engine

open Astrate.GoLib

/-- One octet of FNV-1a. -/
def fnvStep (h : UInt64) (b : UInt8) : UInt64 := (h ^^^ b.toUInt64) * 1099511628211

def shardOf (id : Bytes) (n : Nat) : Nat := (id.foldl fnvStep 14695981039346656037).toNat % n

/-- Without a configuration. -/
def defaultShards : Nat := 16

def defaultShardQueue : Nat := 4096

/-- What became of the message of a `Submit`. -/
inductive SubmitOutcome where
  | enqueued
  /-- QoS 0 on a full shard. -/
  | dropped
  /-- The engine is closed. -/
  | refused
  deriving DecidableEq, Repr

/-- Where a call of `Submit` is. -/
inductive SubmitPoint where
  | idle
  /-- Behind `RLock`. -/
  | locked
  /-- Behind the check of `closed`. -/
  | sending
  /-- Before `RUnlock`. -/
  | unlocking (outcome : SubmitOutcome)
  | returned (outcome : SubmitOutcome)
  deriving DecidableEq, Repr

/-- The call holds the read lock. -/
def SubmitPoint.inside : SubmitPoint → Bool
  | .locked | .sending | .unlocking _ => true
  | .idle | .returned _ => false

/-- What the call returns. -/
def SubmitPoint.outcome : SubmitPoint → Option SubmitOutcome
  | .unlocking outcome | .returned outcome => some outcome
  | _ => none

/-- Where the loop of a shard is. -/
inductive LanePoint where
  /-- In `select`. -/
  | waiting
  /-- In `handle`, with the message of this call. -/
  | handling (c : Nat)
  /-- In the flush of the timer. -/
  | flushing
  /-- In the last flush. -/
  | ending
  | exited
  deriving DecidableEq, Repr

/-- A shard: its channel has the numbers of the calls whose messages are queued. -/
structure Lane where
  ch : Chan Nat
  point : LanePoint := .waiting
  deriving DecidableEq

/-- Where a call of `drain` is. -/
inductive DrainPoint where
  | idle
  /-- In `Lock`. -/
  | waiting
  /-- Behind `Lock`, with the channels before this one closed. -/
  | closing (k : Nat)
  /-- Behind `Unlock`. -/
  | unlocked
  /-- All shards have ended. -/
  | returned
  /-- The context of the call has ended. -/
  | interrupted
  deriving DecidableEq, Repr

/-- The call holds the write lock. -/
def DrainPoint.inside : DrainPoint → Bool
  | .closing _ => true
  | _ => false

/-- The call holds the write lock or waits for it, and no other reader gets the lock. -/
def DrainPoint.ahead : DrainPoint → Bool
  | .waiting | .closing _ => true
  | _ => false

/-- The engine. `enqueued` and `handled` list calls with shards: the messages that were sent to a shard,
and those that a shard handed to `handle`. -/
structure Router where
  closed : Bool := false
  points : List SubmitPoint
  lanes : List Lane
  drains : List DrainPoint
  enqueued : List (Nat × Nat) := []
  handled : List (Nat × Nat) := []
  panicked : Bool := false
  deriving DecidableEq

/-- A step of `Submit`. -/
inductive SubmitStep where
  | rlock
  | check
  | send
  | runlock
  deriving DecidableEq, Repr

/-- A step of a shard. -/
inductive LaneStep where
  | take
  | handled
  /-- The timer fires. -/
  | fire
  | flushed
  /-- The channel is closed and empty. -/
  | lastFlush
  | exit
  deriving DecidableEq, Repr

/-- A step of `Drain`. -/
inductive DrainStep where
  | start
  | lock
  | closeLane
  | unlock
  | wait
  | interrupt
  deriving DecidableEq, Repr

/-- A step of one of them. -/
inductive RouterStep where
  | submit (c : Nat) (a : SubmitStep)
  | lane (i : Nat) (a : LaneStep)
  | drain (d : Nat) (a : DrainStep)
  deriving DecidableEq, Repr

/-- The messages of the calls, each with its QoS. -/
abbrev Calls := List (InboundMessage × Nat)

namespace Router

/-- `newEngine`, with the number of shards and the capacity of their channels. -/
def init (shards shardQueue : Nat) (calls : Calls) (drains : Nat) : Router :=
  let cap := if shardQueue = 0 then defaultShardQueue else shardQueue
  { points := calls.map fun _ => .idle
    lanes := List.replicate (if shards = 0 then defaultShards else shards) { ch := { cap := cap } }
    drains := List.replicate drains .idle }

/-- A call goes on. -/
def setPoint (s : Router) (c : Nat) (p : SubmitPoint) : Router := { s with points := s.points.set c p }

/-- A lane is changed. -/
def setLane (s : Router) (i : Nat) (lane : Lane) : Router := { s with lanes := s.lanes.set i lane }

/-- A drain goes on. -/
def setDrain (s : Router) (d : Nat) (p : DrainPoint) : Router := { s with drains := s.drains.set d p }

/-- The send of `Submit`; with QoS 0 it does not wait. -/
def send (s : Router) (c : Nat) (m : InboundMessage × Nat) : Option Router :=
  let i := shardOf m.1.deviceID.toList s.lanes.length
  match s.lanes[i]? with
  | none => some { s with panicked := true }
  | some lane =>
    match lane.ch.send c with
    | .panics => some { s with panicked := true }
    | .blocks => if m.2 = 0 then some (s.setPoint c (.unlocking .dropped)) else none
    | .sent ch =>
      some { (s.setLane i { lane with ch := ch }).setPoint c (.unlocking .enqueued) with
        enqueued := s.enqueued ++ [(c, i)] }

/-- One step of `Submit`. -/
def submitStep (s : Router) (c : Nat) (m : InboundMessage × Nat) (a : SubmitStep) (p : SubmitPoint) :
    Option Router :=
  match a, p with
  | .rlock, .idle => if s.drains.any DrainPoint.ahead then none else some (s.setPoint c .locked)
  | .check, .locked => some (s.setPoint c (if s.closed then .unlocking .refused else .sending))
  | .send, .sending => s.send c m
  | .runlock, .unlocking outcome => some (s.setPoint c (.returned outcome))
  | _, _ => none

/-- One step of a shard. -/
def laneStep (s : Router) (i : Nat) (lane : Lane) (a : LaneStep) : Option Router :=
  match a, lane.point with
  | .take, .waiting =>
    match lane.ch.recv with
    | none => none
    | some r => some { s.setLane i ⟨r.2, .handling r.1⟩ with handled := s.handled ++ [(r.1, i)] }
  | .handled, .handling _ => some (s.setLane i { lane with point := .waiting })
  | .fire, .waiting => some (s.setLane i { lane with point := .flushing })
  | .flushed, .flushing => some (s.setLane i { lane with point := .waiting })
  | .lastFlush, .waiting =>
    if lane.ch.drained then some (s.setLane i { lane with point := .ending }) else none
  | .exit, .ending => some (s.setLane i { lane with point := .exited })
  | _, _ => none

/-- The loop of `drain` closes the next channel. -/
def closeLane (s : Router) (d k : Nat) : Option Router :=
  match s.lanes[k]? with
  | none => none
  | some lane =>
    match lane.ch.close with
    | none => some { s with panicked := true }
    | some ch => some ((s.setLane k { lane with ch := ch }).setDrain d (.closing (k + 1)))

/-- One step of `Drain`. -/
def drainStep (s : Router) (d : Nat) (a : DrainStep) (p : DrainPoint) : Option Router :=
  match a, p with
  | .start, .idle => some (s.setDrain d .waiting)
  | .lock, .waiting =>
    if s.points.any SubmitPoint.inside || s.drains.any DrainPoint.inside then none
    else
      some { s.setDrain d (.closing (if s.closed then s.lanes.length else 0)) with closed := true }
  | .closeLane, .closing k => s.closeLane d k
  | .unlock, .closing k => if k < s.lanes.length then none else some (s.setDrain d .unlocked)
  | .wait, .unlocked =>
    if s.lanes.all fun lane => lane.point == .exited then some (s.setDrain d .returned) else none
  | .interrupt, .unlocked => some (s.setDrain d .interrupted)
  | _, _ => none

/-- One step, if possible. -/
def step (calls : Calls) (s : Router) : RouterStep → Option Router
  | .submit c a =>
    match calls[c]?, s.points[c]? with
    | some m, some p => s.submitStep c m a p
    | _, _ => none
  | .lane i a =>
    match s.lanes[i]? with
    | some lane => s.laneStep i lane a
    | none => none
  | .drain d a =>
    match s.drains[d]? with
    | some p => s.drainStep d a p
    | none => none

/-! ## What a step does -/

variable (calls : Calls)

/-- The steps that are possible, one constructor for each effect. -/
inductive Goes (s : Router) : RouterStep → Router → Prop
  | rlock (c : Nat) (point : s.points[c]? = some .idle) (free : ∀ p ∈ s.drains, p.inside = false) :
      Goes s (.submit c .rlock) (s.setPoint c .locked)
  | refuse (c : Nat) (point : s.points[c]? = some .locked) (closed : s.closed = true) :
      Goes s (.submit c .check) (s.setPoint c (.unlocking .refused))
  | pass (c : Nat) (point : s.points[c]? = some .locked) (closed : s.closed = false) :
      Goes s (.submit c .check) (s.setPoint c .sending)
  | hitClosed (c : Nat) (m : InboundMessage × Nat) (point : s.points[c]? = some .sending)
      (closed : ∀ lane, s.lanes[shardOf m.1.deviceID.toList s.lanes.length]? = some lane →
        lane.ch.closed = true) :
      Goes s (.submit c .send) { s with panicked := true }
  | drop (c : Nat) (m : InboundMessage × Nat) (call : calls[c]? = some m) (qos : m.2 = 0)
      (point : s.points[c]? = some .sending) :
      Goes s (.submit c .send) (s.setPoint c (.unlocking .dropped))
  | enqueue (c : Nat) (m : InboundMessage × Nat) (i : Nat) (lane : Lane) (call : calls[c]? = some m)
      (point : s.points[c]? = some .sending) (shard : i = shardOf m.1.deviceID.toList s.lanes.length)
      (at_ : s.lanes[i]? = some lane) (closed : lane.ch.closed = false) :
      Goes s (.submit c .send)
        { (s.setLane i { lane with ch := { lane.ch with queue := lane.ch.queue ++ [c] } }).setPoint c
            (.unlocking .enqueued) with
          enqueued := s.enqueued ++ [(c, i)] }
  | runlock (c : Nat) (outcome : SubmitOutcome) (point : s.points[c]? = some (.unlocking outcome)) :
      Goes s (.submit c .runlock) (s.setPoint c (.returned outcome))
  | take (i : Nat) (lane : Lane) (c : Nat) (ch : Chan Nat) (at_ : s.lanes[i]? = some lane)
      (point : lane.point = .waiting) (head : lane.ch.queue = c :: ch.queue)
      (same : ch.closed = lane.ch.closed) :
      Goes s (.lane i .take)
        { s.setLane i ⟨ch, .handling c⟩ with handled := s.handled ++ [(c, i)] }
  | move (i : Nat) (a : LaneStep) (lane : Lane) (next : LanePoint) (at_ : s.lanes[i]? = some lane)
      (active : lane.point ≠ .exited) (last : next = .ending ∨ next = .exited →
        lane.ch.drained = true ∨ lane.point = .ending) (notBack : lane.point = .ending → next = .exited) :
      Goes s (.lane i a) (s.setLane i { lane with point := next })
  | lock (d : Nat) (point : s.drains[d]? = some .waiting) (readers : ∀ p ∈ s.points, p.inside = false)
      (writers : ∀ p ∈ s.drains, p.inside = false) :
      Goes s (.drain d .lock)
        { s.setDrain d (.closing (if s.closed then s.lanes.length else 0)) with closed := true }
  | closeLane (d k : Nat) (lane : Lane) (point : s.drains[d]? = some (.closing k))
      (at_ : s.lanes[k]? = some lane) (closed : lane.ch.closed = false) :
      Goes s (.drain d .closeLane)
        ((s.setLane k { lane with ch := { lane.ch with closed := true } }).setDrain d (.closing (k + 1)))
  | closeTwice (d k : Nat) (lane : Lane) (point : s.drains[d]? = some (.closing k))
      (at_ : s.lanes[k]? = some lane) (closed : lane.ch.closed = true) :
      Goes s (.drain d .closeLane) { s with panicked := true }
  | unlock (d k : Nat) (point : s.drains[d]? = some (.closing k)) (all : s.lanes.length ≤ k) :
      Goes s (.drain d .unlock) (s.setDrain d .unlocked)
  | finish (d : Nat) (point : s.drains[d]? = some .unlocked)
      (exited : ∀ lane ∈ s.lanes, lane.point = .exited) :
      Goes s (.drain d .wait) (s.setDrain d .returned)
  | other (d : Nat) (a : DrainStep) (p next : DrainPoint) (point : s.drains[d]? = some p)
      (outside : p.inside = false) (stays : next.inside = false) (notDone : next ≠ .returned) :
      Goes s (.drain d a) (s.setDrain d next)

variable {calls} {s s' : Router} {c i d : Nat}

theorem goes_of_submitStep {m : InboundMessage × Nat} {a : SubmitStep} {p : SubmitPoint}
    (hcall : calls[c]? = some m) (hpoint : s.points[c]? = some p)
    (h : s.submitStep c m a p = some s') : Goes calls s (.submit c a) s' := by
  unfold submitStep at h
  split at h
  · split_ifs at h with hahead
    cases h
    refine .rlock c hpoint fun p hp => ?_
    simp only [List.any_eq_true, not_exists, not_and, Bool.not_eq_true] at hahead
    have := hahead p hp
    cases p <;> first | rfl | cases this
  · cases h
    split_ifs with hclosed
    · exact .refuse c hpoint hclosed
    · exact .pass c hpoint (by simpa using hclosed)
  · rw [send] at h
    split at h
    · next hnone =>
      cases h
      exact .hitClosed c m hpoint fun lane hlane => by
        rw [hnone] at hlane
        cases hlane
    · next lane hlane =>
      split at h
      · next hsend =>
        cases h
        refine .hitClosed c m hpoint fun lane' hlane' => ?_
        obtain rfl := Option.some.inj (hlane.symm.trans hlane')
        exact Chan.send_eq_panics hsend
      · split_ifs at h with hqos
        cases h
        exact .drop c m hcall hqos hpoint
      · next ch hsend =>
        cases h
        obtain ⟨hopen, rfl⟩ := Chan.send_eq_sent hsend
        exact .enqueue c m _ lane hcall hpoint rfl hlane hopen
  · next outcome =>
    cases h
    exact .runlock c outcome hpoint
  · cases h

theorem goes_of_laneStep {lane : Lane} {a : LaneStep} (hlane : s.lanes[i]? = some lane)
    (h : s.laneStep i lane a = some s') : Goes calls s (.lane i a) s' := by
  unfold laneStep at h
  split at h
  · next hpoint =>
    split at h
    · cases h
    · next r hrecv =>
      cases h
      obtain ⟨hhead, hsame⟩ := Chan.recv_eq_some hrecv
      exact .take i lane r.1 r.2 hlane hpoint hhead hsame
  · next c hpoint =>
    cases h
    exact .move i _ lane .waiting hlane (by simp [hpoint]) (by simp) (by simp [hpoint])
  · next hpoint =>
    cases h
    exact .move i _ lane .flushing hlane (by simp [hpoint]) (by simp) (by simp [hpoint])
  · next hpoint =>
    cases h
    exact .move i _ lane .waiting hlane (by simp [hpoint]) (by simp) (by simp [hpoint])
  · next hpoint =>
    split_ifs at h with hdrained
    cases h
    exact .move i _ lane .ending hlane (by simp [hpoint]) (fun _ => Or.inl hdrained) (by simp [hpoint])
  · next hpoint =>
    cases h
    exact .move i _ lane .exited hlane (by simp [hpoint]) (fun _ => Or.inr hpoint) (fun _ => rfl)
  · cases h

theorem any_eq_false {α : Type} {f : α → Bool} {xs : List α} (h : xs.any f = false) :
    ∀ x ∈ xs, f x = false := by
  simpa using h

theorem goes_of_drainStep {p : DrainPoint} {a : DrainStep} (hpoint : s.drains[d]? = some p)
    (h : s.drainStep d a p = some s') : Goes calls s (.drain d a) s' := by
  unfold drainStep at h
  split at h
  · cases h
    exact .other d _ .idle .waiting hpoint rfl rfl nofun
  · cases hheld : s.points.any SubmitPoint.inside || s.drains.any DrainPoint.inside with
    | true =>
      rw [hheld] at h
      cases h
    | false =>
      rw [hheld] at h
      cases h
      rw [Bool.or_eq_false_iff] at hheld
      exact .lock d hpoint (any_eq_false hheld.1) (any_eq_false hheld.2)
  · next k =>
    rw [closeLane] at h
    split at h
    · cases h
    · next lane hlane =>
      rw [Chan.close] at h
      split_ifs at h with hclosed
      · cases h
        exact .closeTwice d k lane hpoint hlane hclosed
      · cases h
        exact .closeLane d k lane hpoint hlane (by simpa using hclosed)
  · next k =>
    split_ifs at h with hk
    cases h
    exact .unlock d k hpoint (Nat.le_of_not_lt hk)
  · split_ifs at h with hexited
    cases h
    exact .finish d hpoint (by simpa using hexited)
  · cases h
    exact .other d _ .unlocked .interrupted hpoint rfl rfl nofun
  · cases h

theorem goes_of_step {a : RouterStep} (h : s.step calls a = some s') : Goes calls s a s' := by
  cases a with
  | submit c a =>
    rw [step] at h
    split at h
    · next m p hcall hpoint => exact goes_of_submitStep hcall hpoint h
    · cases h
  | lane i a =>
    rw [step] at h
    split at h
    · next lane hlane => exact goes_of_laneStep hlane h
    · cases h
  | drain d a =>
    rw [step] at h
    split at h
    · next p hpoint => exact goes_of_drainStep hpoint h
    · cases h

/-! ## The lock -/

/-- Readers and writers of the lock, with `shut` for the channels that are closed. -/
structure LockSound (closed : Bool) (points : List SubmitPoint) (drains : List DrainPoint)
    (shut : List Bool) : Prop where
  exclusive : ∀ p ∈ drains, p.inside = true → closed = true ∧ ∀ q ∈ points, q.inside = false
  unique : ∀ (d d' : Nat) p p', drains[d]? = some p → drains[d']? = some p' → p.inside = true →
    p'.inside = true → d = d'
  sending : .sending ∈ points → closed = false
  refused : ∀ p ∈ points, p.outcome = some .refused → closed = true
  closedLanes : ∀ b ∈ shut, b = true → closed = true
  closing : ∀ (d k : Nat), drains[d]? = some (.closing k) → ∀ (i : Nat) b, shut[i]? = some b →
    (b = true ↔ i < k)
  settled : closed = true → (∀ p ∈ drains, p.inside = false) → ∀ b ∈ shut, b = true

section Lock

variable {closed : Bool} {points : List SubmitPoint} {drains : List DrainPoint} {shut : List Bool}
  {p p' : SubmitPoint} {w w' : DrainPoint} {k : Nat}

section

variable (h : LockSound closed points drains shut)

include h

/-- While a reader is inside, no writer is. -/
theorem LockSound.free (hp : p ∈ points) (hinside : p.inside = true) : ∀ q ∈ drains, q.inside = false := by
  intro q hq
  by_contra hwriter
  rw [Bool.not_eq_false] at hwriter
  rw [(h.exclusive q hq hwriter).2 p hp] at hinside
  cases hinside

theorem LockSound.setPoint (hinside : p'.inside = true → ∀ q ∈ drains, q.inside = false)
    (hsending : p' = .sending → closed = false)
    (hrefused : p'.outcome = some .refused → closed = true) :
    LockSound closed (points.set c p') drains shut where
  exclusive := by
    intro q hq hwriter
    refine ⟨(h.exclusive q hq hwriter).1, fun r hr => ?_⟩
    rcases List.mem_or_eq_of_mem_set hr with hr | rfl
    · exact (h.exclusive q hq hwriter).2 r hr
    · by_contra hin
      rw [hinside (by simpa using hin) q hq] at hwriter
      cases hwriter
  unique := h.unique
  sending := of_mem_set h.sending hsending
  refused := forall_mem_set h.refused hrefused
  closedLanes := h.closedLanes
  closing := h.closing
  settled := h.settled

/-- A writer outside the lock stays outside. -/
theorem LockSound.setDrain (hw : drains[d]? = some w)
    (houtside : w.inside = false) (hnext : w'.inside = false) :
    LockSound closed points (drains.set d w') shut where
  exclusive := forall_mem_set h.exclusive fun hwriter => by
    rw [hnext] at hwriter
    cases hwriter
  unique := by
    intro i j q q' hi hj hq hq'
    rcases getElem?_set_cases hi with ⟨rfl, rfl⟩ | ⟨-, hi'⟩
    · rw [hnext] at hq
      cases hq
    · rcases getElem?_set_cases hj with ⟨rfl, rfl⟩ | ⟨-, hj'⟩
      · rw [hnext] at hq'
        cases hq'
      · exact h.unique i j q q' hi' hj' hq hq'
  sending := h.sending
  refused := h.refused
  closedLanes := h.closedLanes
  closing := by
    intro i k hi
    rcases getElem?_set_cases hi with ⟨rfl, rfl⟩ | ⟨-, hi'⟩
    · cases hnext
    · exact h.closing i k hi'
  settled := by
    intro hclosed hall
    apply h.settled hclosed
    intro q hq
    obtain ⟨i, hi⟩ := List.mem_iff_getElem?.1 hq
    by_cases hid : i = d
    · subst hid
      rw [Option.some.inj (hi.symm.trans hw)]
      exact houtside
    · exact hall q (List.mem_of_getElem? ((List.getElem?_set_ne (Ne.symm hid)).trans hi))

/-- `Lock`: nobody is inside, and the channels are all open or all closed. -/
theorem LockSound.lock (hw : drains[d]? = some w)
    (hreaders : ∀ p ∈ points, p.inside = false) (hwriters : ∀ p ∈ drains, p.inside = false) :
    LockSound true points (drains.set d (.closing (if closed then shut.length else 0))) shut := by
  have hself : (drains.set d (.closing (if closed then shut.length else 0)))[d]? =
      some (.closing (if closed then shut.length else 0)) :=
    List.getElem?_set_self (List.getElem?_eq_some_iff.1 hw).1
  -- the writer that has come in is the only one
  have honly : ∀ (i : Nat) q, (drains.set d (.closing (if closed then shut.length else 0)))[i]? = some q →
      q.inside = true → i = d ∧ q = .closing (if closed then shut.length else 0) := by
    intro i q hi hq
    rcases getElem?_set_cases hi with ⟨rfl, rfl⟩ | ⟨-, hi'⟩
    · exact ⟨rfl, rfl⟩
    · rw [hwriters q (List.mem_of_getElem? hi')] at hq
      cases hq
  refine ⟨fun _ _ _ => ⟨rfl, hreaders⟩, fun i j q q' hi hj hq hq' => ?_, fun hmem => ?_, fun _ _ _ => rfl,
    fun _ _ _ => rfl, fun i k hi j b hb => ?_, fun _ hall => ?_⟩
  · rw [(honly i q hi hq).1, (honly j q' hj hq').1]
  · cases hreaders _ hmem
  · obtain ⟨rfl, hk⟩ := honly i _ hi rfl
    cases hk
    have hlt := (List.getElem?_eq_some_iff.1 hb).1
    cases closed with
    | true => exact iff_of_true (h.settled rfl hwriters b (List.mem_of_getElem? hb)) hlt
    | false =>
      refine iff_of_false (fun hb' => ?_) (Nat.not_lt_zero j)
      cases h.closedLanes b (List.mem_of_getElem? hb) hb'
  · cases hall _ (List.mem_of_getElem? hself)

theorem LockSound.closeLane (hw : drains[d]? = some (.closing k)) :
    LockSound closed points (drains.set d (.closing (k + 1))) (shut.set k true) := by
  have hself : (drains.set d (.closing (k + 1)))[d]? = some (.closing (k + 1)) :=
    List.getElem?_set_self (List.getElem?_eq_some_iff.1 hw).1
  obtain ⟨hclosed, hreaders⟩ := h.exclusive _ (List.mem_of_getElem? hw) rfl
  have honly : ∀ (i : Nat) q, (drains.set d (.closing (k + 1)))[i]? = some q → q.inside = true →
      i = d ∧ q = .closing (k + 1) := by
    intro i q hi hq
    rcases getElem?_set_cases hi with ⟨rfl, rfl⟩ | ⟨hne, hi'⟩
    · exact ⟨rfl, rfl⟩
    · exact absurd (h.unique i d q _ hi' hw hq rfl) hne
  refine ⟨fun _ _ _ => ⟨hclosed, hreaders⟩, fun i j q q' hi hj hq hq' => ?_, h.sending, h.refused,
    fun _ _ _ => hclosed, fun i k' hi j b hb => ?_, fun _ hall => ?_⟩
  · rw [(honly i q hi hq).1, (honly j q' hj hq').1]
  · obtain ⟨rfl, hk⟩ := honly i _ hi rfl
    cases hk
    rcases getElem?_set_cases hb with ⟨rfl, rfl⟩ | ⟨hne, hb'⟩
    · exact iff_of_true rfl (Nat.lt_succ_self j)
    · rw [h.closing i k hw j b hb']
      omega
  · cases hall _ (List.mem_of_getElem? hself)

theorem LockSound.unlock (hw : drains[d]? = some (.closing k)) (hall : shut.length ≤ k) :
    LockSound closed points (drains.set d .unlocked) shut := by
  have hold : ∀ (i : Nat) q, (drains.set d .unlocked)[i]? = some q → q.inside = true →
      drains[i]? = some q := by
    intro i q hi hq
    rcases getElem?_set_cases hi with ⟨rfl, rfl⟩ | ⟨-, hi'⟩
    · cases hq
    · exact hi'
  refine ⟨fun q hq hin => ?_, fun i j q q' hi hj hq hq' => ?_, h.sending, h.refused, h.closedLanes,
    fun i k' hi => h.closing i k' (hold i _ hi rfl), fun _ _ b hb => ?_⟩
  · obtain ⟨i, hi⟩ := List.mem_iff_getElem?.1 hq
    exact h.exclusive q (List.mem_of_getElem? (hold i q hi hin)) hin
  · exact h.unique i j q q' (hold i q hi hq) (hold j q' hj hq') hq hq'
  · obtain ⟨j, hj⟩ := List.mem_iff_getElem?.1 hb
    have hlt := (List.getElem?_eq_some_iff.1 hj).1
    exact (h.closing d k hw j b hj).2 (by omega)

end

end Lock

/-! ## The logs -/

/-- The entries of one shard. -/
def onLane (i : Nat) (es : List (Nat × Nat)) : List (Nat × Nat) := es.filter fun e => e.2 == i

/-- What was sent to a shard is what it has handled, followed by what is in its queue. -/
structure LogSound (calls : Calls) (enqueued handled : List (Nat × Nat)) (queues : List (List Nat))
    (points : List SubmitPoint) : Prop where
  lanes : ∀ (i : Nat) q, queues[i]? = some q →
    onLane i enqueued = onLane i handled ++ q.map fun c => (c, i)
  placed : ∀ e ∈ enqueued, e.2 < queues.length ∧
    ∃ m, calls[e.1]? = some m ∧ e.2 = shardOf m.1.deviceID.toList queues.length
  nodup : (enqueued.map Prod.fst).Nodup
  known : ∀ e ∈ handled, e.2 < queues.length
  sent : ∀ (c : Nat) p, points[c]? = some p →
    (c ∈ enqueued.map Prod.fst ↔ p.outcome = some .enqueued)
  blocking : ∀ (c : Nat) m p, calls[c]? = some m → points[c]? = some p →
    p.outcome = some .dropped → m.2 = 0

section Log

variable {enqueued handled : List (Nat × Nat)} {queues : List (List Nat)} {points : List SubmitPoint}
  {p p' : SubmitPoint} {q : List Nat} {m : InboundMessage × Nat}

theorem onLane_append (es es' : List (Nat × Nat)) : onLane i (es ++ es') = onLane i es ++ onLane i es' :=
  List.filter_append ..

theorem onLane_self (c i : Nat) : onLane i [(c, i)] = [(c, i)] := by simp [onLane]

theorem onLane_other {j : Nat} (h : j ≠ i) : onLane j [(c, i)] = [] := by
  simpa [onLane] using Ne.symm h

section

variable (h : LogSound calls enqueued handled queues points)

include h

theorem LogSound.setPoint (hp : points[c]? = some p)
    (hsent : p'.outcome = some .enqueued ↔ p.outcome = some .enqueued)
    (hdropped : p'.outcome = some .dropped →
      p.outcome = some .dropped ∨ ∀ m, calls[c]? = some m → m.2 = 0) :
    LogSound calls enqueued handled queues (points.set c p') where
  lanes := h.lanes
  placed := h.placed
  nodup := h.nodup
  known := h.known
  sent := by
    intro j r hr
    rcases getElem?_set_cases hr with ⟨rfl, rfl⟩ | ⟨-, hr'⟩
    · rw [h.sent j p hp, hsent]
    · exact h.sent j r hr'
  blocking := by
    intro j m r hm hr hout
    rcases getElem?_set_cases hr with ⟨rfl, rfl⟩ | ⟨-, hr'⟩
    · rcases hdropped hout with hold | hqos
      · exact h.blocking j m p hm hp hold
      · exact hqos m hm
    · exact h.blocking j m r hm hr' hout

theorem LogSound.enqueue
    (hp : points[c]? = some .sending) (hcall : calls[c]? = some m) (hq : queues[i]? = some q)
    (hi : i = shardOf m.1.deviceID.toList queues.length) :
    LogSound calls (enqueued ++ [(c, i)]) handled (queues.set i (q ++ [c]))
      (points.set c (.unlocking .enqueued)) where
  lanes := by
    intro j r hr
    rw [onLane_append]
    rcases getElem?_set_cases hr with ⟨rfl, rfl⟩ | ⟨hne, hr'⟩
    · rw [h.lanes j q hq, onLane_self, List.map_append, List.append_assoc]
      rfl
    · rw [onLane_other hne, List.append_nil]
      exact h.lanes j r hr'
  placed := by
    rw [List.length_set]
    exact forall_mem_concat h.placed ⟨(List.getElem?_eq_some_iff.1 hq).1, m, hcall, hi⟩
  nodup := by
    -- a call that is sending has not sent
    have hnew : c ∉ enqueued.map Prod.fst := by
      rw [h.sent c _ hp]
      exact nofun
    rw [List.map_append]
    exact nodup_concat h.nodup hnew
  known := by
    rw [List.length_set]
    exact h.known
  sent := by
    intro j r hr
    rw [List.map_append, List.mem_append, List.map_singleton, List.mem_singleton]
    rcases getElem?_set_cases hr with ⟨rfl, rfl⟩ | ⟨hne, hr'⟩
    · exact iff_of_true (Or.inr rfl) rfl
    · rw [h.sent j r hr', or_iff_left hne]
  blocking := by
    intro j m' r hm hr hout
    rcases getElem?_set_cases hr with ⟨rfl, rfl⟩ | ⟨-, hr'⟩
    · cases hout
    · exact h.blocking j m' r hm hr' hout

theorem LogSound.take (hq : queues[i]? = some (c :: q)) :
    LogSound calls enqueued (handled ++ [(c, i)]) (queues.set i q) points where
  lanes := by
    intro j r hr
    rw [onLane_append]
    rcases getElem?_set_cases hr with ⟨rfl, rfl⟩ | ⟨hne, hr'⟩
    · rw [h.lanes j _ hq, onLane_self, List.append_assoc]
      rfl
    · rw [onLane_other hne, List.append_nil]
      exact h.lanes j r hr'
  placed := by
    rw [List.length_set]
    exact h.placed
  nodup := h.nodup
  known := by
    rw [List.length_set]
    exact forall_mem_concat h.known (List.getElem?_eq_some_iff.1 hq).1
  sent := h.sent
  blocking := h.blocking

/-! ## What the logs say -/

/-- The shards are lanes, with the entries of their queues. -/
theorem LogSound.fifo : Fifo Prod.snd enqueued handled (queues.mapIdx fun i q => q.map fun c => (c, i)) where
  split := by
    intro i q hq
    rw [List.getElem?_mapIdx] at hq
    obtain ⟨cs, hcs, rfl⟩ := Option.map_eq_some_iff.1 hq
    exact h.lanes i cs hcs
  placed := by
    rw [List.length_mapIdx]
    exact fun e he => (h.placed e he).1
  known := by
    rw [List.length_mapIdx]
    exact h.known

/-- No message is handled twice. -/
theorem LogSound.nodup_handled : (handled.map Prod.fst).Nodup := by
  refine (h.fifo.nodup (List.Nodup.of_map _ h.nodup)).map_on fun a ha b hb hab => ?_
  exact List.inj_on_of_nodup_map h.nodup (h.fifo.subset ha) (h.fifo.subset hb) hab

end

/-- The entries of one device. -/
def ofDevice (calls : Calls) (id : DeviceID) (es : List (Nat × Nat)) : List (Nat × Nat) :=
  es.filter fun e => (calls[e.1]?).any fun m => m.1.deviceID == id

theorem LogSound.lane_of_device (h : LogSound calls enqueued handled queues points) {id : DeviceID}
    {e : Nat × Nat} (he : e ∈ ofDevice calls id enqueued) :
    e.2 < queues.length ∧ e.2 = shardOf id.toList queues.length := by
  obtain ⟨hmem, hid⟩ := List.mem_filter.1 he
  obtain ⟨hlt, m, hcall, hlane⟩ := h.placed e hmem
  rw [hcall, Option.any_some, beq_iff_eq] at hid
  exact ⟨hlt, hid ▸ hlane⟩

/-- The messages of a device are handled in the order in which they were sent. -/
theorem LogSound.ofDevice_initial (h : LogSound calls enqueued handled queues points) (id : DeviceID) :
    ofDevice calls id handled <+: ofDevice calls id enqueued :=
  h.fifo.filter_initial _ fun _ he hid => (h.lane_of_device (List.mem_filter.2 ⟨he, hid⟩)).2

end Log

/-! ## The machine -/

/-- What every step keeps. -/
structure Sound (calls : Calls) (s : Router) : Prop where
  lock : LockSound s.closed s.points s.drains (s.lanes.map fun lane => lane.ch.closed)
  log : LogSound calls s.enqueued s.handled (s.lanes.map fun lane => lane.ch.queue) s.points
  leaving : ∀ lane ∈ s.lanes, lane.point = .ending ∨ lane.point = .exited →
    lane.ch.closed = true ∧ lane.ch.queue = []
  done : .returned ∈ s.drains → ∀ lane ∈ s.lanes, lane.point = .exited
  lanes : 0 < s.lanes.length
  panicked : s.panicked = false

section Machine

variable {p p' : SubmitPoint} {lane lane' : Lane} {w w' : DrainPoint} {a : RouterStep}

section

variable (hs : Sound calls s)

include hs

/-- A call goes on without a send. -/
theorem Sound.setPoint (hp : s.points[c]? = some p)
    (hinside : p'.inside = true → p.inside = true ∨ ∀ q ∈ s.drains, q.inside = false)
    (hsending : p' = .sending → s.closed = false)
    (hrefused : p'.outcome = some .refused → p.outcome = some .refused ∨ s.closed = true)
    (hsent : p'.outcome = some .enqueued ↔ p.outcome = some .enqueued)
    (hdropped : p'.outcome = some .dropped →
      p.outcome = some .dropped ∨ ∀ m, calls[c]? = some m → m.2 = 0) :
    Sound calls (s.setPoint c p') where
  lock := by
    have hmem := List.mem_of_getElem? hp
    apply hs.lock.setPoint _ hsending
    · intro hout
      exact (hrefused hout).elim (hs.lock.refused p hmem) id
    · intro hin
      exact (hinside hin).elim (fun hin => hs.lock.free hmem hin) id
  log := hs.log.setPoint hp hsent hdropped
  leaving := hs.leaving
  done := hs.done
  lanes := hs.lanes
  panicked := hs.panicked

/-- A shard goes on, without a change of its channel. -/
theorem Sound.moveLane (hlane : s.lanes[i]? = some lane) (hch : lane'.ch = lane.ch)
    (hleaving : lane'.point = .ending ∨ lane'.point = .exited → lane.ch.closed = true ∧ lane.ch.queue = [])
    (hactive : lane.point ≠ .exited) : Sound calls (s.setLane i lane') where
  lock := by
    rw [setLane, map_set_of_eq hlane (by rw [hch])]
    exact hs.lock
  log := by
    rw [setLane, map_set_of_eq hlane (by rw [hch])]
    exact hs.log
  leaving := by
    refine forall_mem_set hs.leaving ?_
    rw [hch]
    exact hleaving
  done := fun hdone => absurd (hs.done hdone lane (List.mem_of_getElem? hlane)) hactive
  lanes := by
    rw [setLane, List.length_set]
    exact hs.lanes
  panicked := hs.panicked

theorem Sound.enqueue {m : InboundMessage × Nat} (hcall : calls[c]? = some m)
    (hp : s.points[c]? = some .sending) (hshard : i = shardOf m.1.deviceID.toList s.lanes.length)
    (hlane : s.lanes[i]? = some lane) (hopen : lane.ch.closed = false) :
    Sound calls
      { (s.setLane i { lane with ch := { lane.ch with queue := lane.ch.queue ++ [c] } }).setPoint c
          (.unlocking .enqueued) with
        enqueued := s.enqueued ++ [(c, i)] } := by
  -- a shard whose channel is open is not leaving
  have hstays : ¬ (lane.point = .ending ∨ lane.point = .exited) := by
    intro hpoint
    rw [(hs.leaving lane (List.mem_of_getElem? hlane) hpoint).1] at hopen
    cases hopen
  refine ⟨?_, ?_, fun l hl => ?_, fun hdone => ?_, ?_, hs.panicked⟩
  · dsimp only [Router.setLane, Router.setPoint]
    rw [map_set_of_eq hlane (by rfl)]
    exact hs.lock.setPoint (fun _ => hs.lock.free (List.mem_of_getElem? hp) rfl) nofun nofun
  · dsimp only [Router.setLane, Router.setPoint]
    rw [List.map_set]
    exact hs.log.enqueue hp hcall (by rw [List.getElem?_map, hlane, Option.map_some])
      (by rw [List.length_map, hshard])
  · refine forall_mem_set hs.leaving ?_ l hl
    exact fun hpoint => absurd hpoint hstays
  · exact absurd (Or.inr (hs.done hdone lane (List.mem_of_getElem? hlane))) hstays
  · dsimp only [Router.setLane, Router.setPoint]
    rw [List.length_set]
    exact hs.lanes

theorem Sound.take {ch : Chan Nat} (hlane : s.lanes[i]? = some lane)
    (hpoint : lane.point = .waiting) (hhead : lane.ch.queue = c :: ch.queue)
    (hsame : ch.closed = lane.ch.closed) :
    Sound calls { s.setLane i ⟨ch, .handling c⟩ with handled := s.handled ++ [(c, i)] } := by
  refine ⟨?_, ?_, fun l hl => ?_, fun hdone => ?_, ?_, hs.panicked⟩
  · dsimp only [Router.setLane]
    rw [map_set_of_eq hlane hsame]
    exact hs.lock
  · dsimp only [Router.setLane]
    rw [List.map_set]
    exact hs.log.take (by rw [List.getElem?_map, hlane, Option.map_some, hhead])
  · exact forall_mem_set hs.leaving (by simp) l hl
  · have hexited := hs.done hdone lane (List.mem_of_getElem? hlane)
    rw [hpoint] at hexited
    cases hexited
  · dsimp only [Router.setLane]
    rw [List.length_set]
    exact hs.lanes

/-- A call of `drain` goes on. -/
theorem Sound.setDrain
    (hlock : LockSound s.closed s.points (s.drains.set d w') (s.lanes.map fun lane => lane.ch.closed))
    (hdone : w' = .returned → ∀ lane ∈ s.lanes, lane.point = .exited) : Sound calls (s.setDrain d w') where
  lock := hlock
  log := hs.log
  leaving := hs.leaving
  done := of_mem_set hs.done hdone
  lanes := hs.lanes
  panicked := hs.panicked

theorem Sound.lockDrain (hw : s.drains[d]? = some w)
    (hreaders : ∀ p ∈ s.points, p.inside = false) (hwriters : ∀ p ∈ s.drains, p.inside = false) :
    Sound calls { s.setDrain d (.closing (if s.closed then s.lanes.length else 0)) with closed := true } where
  lock := by
    have := hs.lock.lock hw hreaders hwriters
    rwa [List.length_map] at this
  log := hs.log
  leaving := hs.leaving
  done := of_mem_set hs.done nofun
  lanes := hs.lanes
  panicked := hs.panicked

theorem Sound.closeLane {k : Nat} (hw : s.drains[d]? = some (.closing k)) (hlane : s.lanes[k]? = some lane) :
    Sound calls ((s.setLane k { lane with ch := { lane.ch with closed := true } }).setDrain d
      (.closing (k + 1))) := by
  have hmem := List.mem_of_getElem? hlane
  refine ⟨?_, ?_, fun l hl => ?_, fun hdone l hl => ?_, ?_, hs.panicked⟩
  · dsimp only [Router.setLane, Router.setDrain]
    rw [List.map_set]
    exact hs.lock.closeLane hw
  · dsimp only [Router.setLane, Router.setDrain]
    rw [map_set_of_eq hlane (by rfl)]
    exact hs.log
  · refine forall_mem_set hs.leaving ?_ l hl
    exact fun hpoint => ⟨rfl, (hs.leaving lane hmem hpoint).2⟩
  · have hdone : .returned ∈ s.drains :=
      of_mem_set (y := .closing (k + 1)) id nofun hdone
    refine forall_mem_set (hs.done hdone) ?_ l hl
    exact hs.done hdone lane hmem
  · dsimp only [Router.setLane, Router.setDrain]
    rw [List.length_set]
    exact hs.lanes

theorem Sound.goes (h : Goes calls s a s') : Sound calls s' := by
  cases h with
  | rlock c hp hfree =>
    exact hs.setPoint hp (fun _ => Or.inr hfree) nofun nofun (by simp [SubmitPoint.outcome]) nofun
  | refuse c hp hclosed =>
    exact hs.setPoint hp (fun _ => Or.inl rfl) nofun (fun _ => Or.inr hclosed)
      (by simp [SubmitPoint.outcome]) nofun
  | pass c hp hclosed =>
    exact hs.setPoint hp (fun _ => Or.inl rfl) (fun _ => hclosed) nofun
      (by simp [SubmitPoint.outcome]) nofun
  | hitClosed c m hp hclosed =>
    -- the channel is open as long as a call is sending
    have hopen := hs.lock.sending (List.mem_of_getElem? hp)
    have hlt : shardOf m.1.deviceID.toList s.lanes.length < s.lanes.length := Nat.mod_lt _ hs.lanes
    have hlane := List.getElem?_eq_getElem hlt
    rw [hs.lock.closedLanes true (List.mem_map.2 ⟨_, List.getElem_mem hlt, hclosed _ hlane⟩) rfl] at hopen
    cases hopen
  | drop c m hcall hqos hp =>
    refine hs.setPoint hp (fun _ => Or.inl rfl) nofun nofun (by simp [SubmitPoint.outcome])
      fun _ => Or.inr fun m' hm' => ?_
    rw [← Option.some.inj (hcall.symm.trans hm')]
    exact hqos
  | enqueue c m i lane hcall hp hshard hlane hopen => exact hs.enqueue hcall hp hshard hlane hopen
  | runlock c outcome hp =>
    exact hs.setPoint hp nofun nofun (fun h => Or.inl h) Iff.rfl fun h => Or.inl h
  | take i lane c ch hlane hpoint hhead hsame => exact hs.take hlane hpoint hhead hsame
  | move i _ lane next hlane hactive hlast hback =>
    refine hs.moveLane hlane rfl (fun hnext => ?_) hactive
    rcases hlast hnext with hdrained | hending
    · simpa [Chan.drained] using hdrained
    · exact hs.leaving lane (List.mem_of_getElem? hlane) (Or.inl hending)
  | lock d hw hreaders hwriters => exact hs.lockDrain hw hreaders hwriters
  | closeLane d k lane hw hlane hopen => exact hs.closeLane hw hlane
  | closeTwice d k lane hw hlane hclosed =>
    have := (hs.lock.closing d k hw k true (by rw [List.getElem?_map, hlane, Option.map_some, hclosed])).1 rfl
    exact absurd this (lt_irrefl k)
  | unlock d k hw hall => exact hs.setDrain (hs.lock.unlock hw (by rwa [List.length_map])) nofun
  | finish d hw hexited => exact hs.setDrain (hs.lock.setDrain hw rfl rfl) fun _ => hexited
  | other d _ w next hw houtside hnext hnotDone =>
    exact hs.setDrain (hs.lock.setDrain hw houtside hnext) fun hdone => absurd hdone hnotDone

theorem Sound.step (h : s.step calls a = some s') : Sound calls s' :=
  hs.goes (goes_of_step h)

omit hs in
theorem sound_init (shards shardQueue : Nat) (calls : Calls) (drains : Nat) :
    Sound calls (init shards shardQueue calls drains) := by
  have hpoints : ∀ p ∈ (init shards shardQueue calls drains).points, p = .idle := by
    intro p hp
    obtain ⟨-, -, rfl⟩ := List.mem_map.1 hp
    rfl
  have hdrains : ∀ p ∈ (init shards shardQueue calls drains).drains, p = .idle :=
    fun p hp => List.eq_of_mem_replicate hp
  have hlanes : ∀ lane ∈ (init shards shardQueue calls drains).lanes,
      lane.point = .waiting ∧ lane.ch.closed = false ∧ lane.ch.queue = [] := by
    intro lane hlane
    rw [List.eq_of_mem_replicate hlane]
    exact ⟨rfl, rfl, rfl⟩
  refine ⟨⟨fun p hp hin => ?_, fun d d' p p' hp _ hin => ?_, fun hmem => ?_, fun p hp hout => ?_,
    fun b hb hb' => ?_, fun d k hd => ?_, nofun⟩, ⟨fun i q hq => ?_, nofun, List.nodup_nil, nofun,
    fun c p hp => ?_, fun c m p _ hp hout => ?_⟩, fun lane hlane hpoint => ?_, fun hmem => ?_, ?_, rfl⟩
  · rw [hdrains p hp] at hin
    cases hin
  · rw [hdrains p (List.mem_of_getElem? hp)] at hin
    cases hin
  · cases hpoints _ hmem
  · rw [hpoints p hp] at hout
    cases hout
  · obtain ⟨lane, hlane, rfl⟩ := List.mem_map.1 hb
    rw [(hlanes lane hlane).2.1] at hb'
    cases hb'
  · cases hdrains _ (List.mem_of_getElem? hd)
  · obtain ⟨lane, hlane, rfl⟩ := List.mem_map.1 (List.mem_of_getElem? hq)
    rw [(hlanes lane hlane).2.2]
    rfl
  · rw [hpoints p (List.mem_of_getElem? hp)]
    simp [init, SubmitPoint.outcome]
  · rw [hpoints p (List.mem_of_getElem? hp)] at hout
    cases hout
  · rw [(hlanes lane hlane).1] at hpoint
    simp at hpoint
  · cases hdrains _ hmem
  · simp only [init, List.length_replicate]
    split_ifs with hshards
    · decide
    · omega

omit hs in
/-- A call that has returned stays so. -/
theorem returned_goes {outcome : SubmitOutcome} (h : Goes calls s a s')
    (hc : s.points[c]? = some (.returned outcome)) : s'.points[c]? = some (.returned outcome) := by
  have hset : ∀ {j p p'}, s.points[j]? = some p → p ≠ .returned outcome →
      (s.points.set j p')[c]? = some (.returned outcome) := by
    intro j p p' hj hp
    have hne : j ≠ c := by
      rintro rfl
      exact hp (Option.some.inj (hj.symm.trans hc))
    exact (List.getElem?_set_ne hne).trans hc
  cases h with
  | rlock _ hp => exact hset hp nofun
  | refuse _ hp => exact hset hp nofun
  | pass _ hp => exact hset hp nofun
  | drop _ _ _ _ hp => exact hset hp nofun
  | enqueue _ _ _ _ _ hp => exact hset hp nofun
  | runlock _ _ hp => exact hset hp nofun
  | _ => exact hc

/-- Nothing is sent once the engine is closed. -/
theorem Sound.closed_goes (h : Goes calls s a s') (hclosed : s.closed = true) :
    s'.closed = true ∧ s'.enqueued = s.enqueued := by
  cases h with
  | enqueue c _ _ _ _ hp =>
    rw [hs.lock.sending (List.mem_of_getElem? hp)] at hclosed
    cases hclosed
  | lock => exact ⟨rfl, rfl⟩
  | _ => exact ⟨hclosed, rfl⟩

/-- When all shards have ended, everything that was sent has been handled. -/
theorem Sound.handled_of_exited (hexited : ∀ lane ∈ s.lanes, lane.point = .exited)
    {e : Nat × Nat} (he : e ∈ s.enqueued) : e ∈ s.handled := by
  refine (hs.log.fifo.perm (List.Nodup.of_map _ hs.log.nodup) fun q hq => ?_).mem_iff.2 he
  obtain ⟨i, hi, rfl⟩ := List.mem_mapIdx.1 hq
  rw [List.getElem_map, (hs.leaving _ (List.getElem_mem _) (Or.inr (hexited _ (List.getElem_mem _)))).2]
  rfl

theorem sound_run {schedule : List RouterStep}
    (h : exec (Router.step calls) s schedule = some s') : Sound calls s' :=
  exec_preserves (fun _ _ _ hs h => hs.step h) hs h

end

/-- **Submission and drain.** With any number of shards and calls, in every interleaving:
no send hits a closed channel (nor does any other panic happen); a message is handed to `handle` at most
once; the messages of a device are handled by one shard, in the order in which they were sent; when
`drain` returns, every message of QoS 1 or 2 whose `Submit` had returned before `drain` closed the engine
under the lock has been handled; and from then on no message is sent to a shard. -/
theorem submit_drain (shards shardQueue : Nat) (calls : Calls) (drains : Nat)
    (schedule : List RouterStep) (s : Router)
    (hrun : exec (Router.step calls) (init shards shardQueue calls drains) schedule = some s) :
    s.panicked = false ∧ (s.handled.map Prod.fst).Nodup ∧
    (∀ id, ofDevice calls id s.handled <+: ofDevice calls id s.enqueued ∧
      ∀ e ∈ ofDevice calls id s.enqueued, e.2 = shardOf id.toList s.lanes.length) ∧
    (∀ later s₁ (d c : Nat) m outcome, exec (Router.step calls) s later = some s₁ → s.closed = false →
      calls[c]? = some m → 1 ≤ m.2 → s.points[c]? = some (.returned outcome) →
      s₁.drains[d]? = some .returned →
      c ∈ s₁.handled.map Prod.fst ∧ ∀ lane ∈ s₁.lanes, lane.point = .exited) ∧
    (∀ later s₁, exec (Router.step calls) s later = some s₁ → s.closed = true → s₁.enqueued = s.enqueued) := by
  have hs := sound_run (sound_init shards shardQueue calls drains) hrun
  refine ⟨hs.panicked, hs.log.nodup_handled, fun id => ⟨hs.log.ofDevice_initial id, fun e he => ?_⟩, ?_, ?_⟩
  · have := (hs.log.lane_of_device he).2
    rwa [List.length_map] at this
  · intro later s₁ d c m outcome hlater hopen hm hqos hc hd
    have hs₁ := sound_run hs hlater
    have hexited := hs₁.done (List.mem_of_getElem? hd)
    -- the call neither found the engine closed nor dropped its message
    obtain rfl : outcome = .enqueued := by
      cases outcome with
      | enqueued => rfl
      | dropped =>
        have := hs.log.blocking c m _ hm hc rfl
        omega
      | refused =>
        rw [hs.lock.refused _ (List.mem_of_getElem? hc) rfl] at hopen
        cases hopen
    have hc₁ : s₁.points[c]? = some (.returned .enqueued) :=
      exec_preserves (I := fun t => t.points[c]? = some (.returned .enqueued))
        (fun _ _ _ hc h => returned_goes (goes_of_step h) hc) hc hlater
    obtain ⟨e, he, rfl⟩ := List.mem_map.1 ((hs₁.log.sent c _ hc₁).2 rfl)
    exact ⟨List.mem_map.2 ⟨e, hs₁.handled_of_exited hexited he, rfl⟩, hexited⟩
  · intro later s₁ hlater hclosed
    have hkept : Sound calls s₁ ∧ s₁.closed = true ∧ s₁.enqueued = s.enqueued := by
      refine exec_preserves (I := fun t => Sound calls t ∧ t.closed = true ∧ t.enqueued = s.enqueued)
        (fun t a t' ht h => ?_) ⟨hs, hclosed, rfl⟩ hlater
      obtain ⟨hst, hct, het⟩ := ht
      obtain ⟨hct', het'⟩ := hst.closed_goes (goes_of_step h) hct
      exact ⟨hst.step h, hct', het'.trans het⟩
    exact hkept.2.2

end Machine

/-- A call of QoS 1 with the identifier of ones. -/
def oneCall : Calls := [(⟨utf8 "acme", Vector.replicate 16 255, utf8 "acme/_____________________w", [], ⟨0⟩⟩, 1)]

/-- The message is sent before the drain, and handled when the drain returns. -/
theorem submit_drain_one :
    ∃ s s₁ : Router, exec (Router.step oneCall) (init 2 1 oneCall 1)
        [.submit 0 .rlock, .submit 0 .check, .submit 0 .send, .submit 0 .runlock, .drain 0 .start] = some s ∧
      exec (Router.step oneCall) s
        [.drain 0 .lock, .drain 0 .closeLane, .lane 1 .take, .drain 0 .closeLane, .drain 0 .unlock,
          .lane 0 .lastFlush, .lane 0 .exit, .lane 1 .handled, .lane 1 .lastFlush, .lane 1 .exit,
          .drain 0 .wait] = some s₁ ∧
      0 ∈ s₁.handled.map Prod.fst := by
  have hrun : (exec (Router.step oneCall) (init 2 1 oneCall 1)
      [.submit 0 .rlock, .submit 0 .check, .submit 0 .send, .submit 0 .runlock, .drain 0 .start]).bind
        (fun s => (exec (Router.step oneCall) s
          [.drain 0 .lock, .drain 0 .closeLane, .lane 1 .take, .drain 0 .closeLane, .drain 0 .unlock,
            .lane 0 .lastFlush, .lane 0 .exit, .lane 1 .handled, .lane 1 .lastFlush, .lane 1 .exit,
            .drain 0 .wait]).map fun s₁ => (s.closed, s.points, s₁.drains)) =
      some (false, [.returned .enqueued], [.returned]) := by
    decide +kernel
  obtain ⟨s, hs, hlater⟩ := Option.bind_eq_some_iff.1 hrun
  obtain ⟨s₁, hs₁, hfacts⟩ := Option.map_eq_some_iff.1 hlater
  obtain ⟨hopen, hpoints, hdrains⟩ : s.closed = false ∧ s.points = [.returned .enqueued] ∧
      s₁.drains = [.returned] := by
    simpa using hfacts
  refine ⟨s, s₁, hs, hs₁, ?_⟩
  exact ((submit_drain 2 1 oneCall 1 _ s hs).2.2.2.1 _ s₁ 0 0 _ .enqueued hs₁ hopen rfl (by decide)
    (by rw [hpoints]; rfl) (by rw [hdrains]; rfl)).1

end Router

end Astrate.Engine
