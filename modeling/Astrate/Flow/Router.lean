import Astrate.Engine.Submit
import Astrate.Flow.Graph

/-!
# The router of a flow

`internal/flow/router.go`: `Submit` sends a message to the lane of its key, the goroutine of the lane
runs it through the block graph, and `Drain` ends the lanes. `Submit` holds the read lock from the check
of `closed` to the end of the send. `Drain` takes the write lock to set `closed` and to close the channel
`quit`; a lane that sees `quit` takes what is left in its channel and returns.

The lanes share one graph. A lane is in one call of `Process` at a time, and different lanes may be in
the same block (`process_overlaps`).
-/

set_option autoImplicit false

namespace Astrate.Flow

open Astrate.GoLib

/-- The lanes by default. -/
def defaultLaneCount : Nat := 16

/-- The messages that a lane holds. -/
def defaultLaneCapacity : Nat := 256

/-- What happens at a full lane. -/
inductive OverflowPolicy where
  | block
  | drop
  deriving DecidableEq, Repr

/-- `RouterConfig`. -/
structure RouterConfig where
  lanes : Int := 0
  laneCapacity : Int := 0
  qos0Overflow : OverflowPolicy := .block
  qos1Overflow : OverflowPolicy := .block
  deriving DecidableEq, Repr

namespace RouterConfig

/-- The number of lanes with the default of `NewRouter`. -/
def laneCount (cfg : RouterConfig) : Nat := if cfg.lanes ≤ 0 then defaultLaneCount else cfg.lanes.toNat

/-- The capacity of a lane. -/
def capacity (cfg : RouterConfig) : Nat :=
  if cfg.laneCapacity ≤ 0 then defaultLaneCapacity else cfg.laneCapacity.toNat

/-- A full lane drops a message of this QoS. -/
def drops (cfg : RouterConfig) (qos : Nat) : Bool :=
  (qos == 0 && cfg.qos0Overflow == .drop) || (decide (1 ≤ qos) && cfg.qos1Overflow == .drop)

theorem laneCount_pos (cfg : RouterConfig) : 0 < cfg.laneCount := by
  rw [laneCount]
  split_ifs with h
  · decide
  · omega

theorem capacity_pos (cfg : RouterConfig) : 0 < cfg.capacity := by
  rw [capacity]
  split_ifs with h
  · decide
  · omega

end RouterConfig

/-- The lane of a key, by its hash. -/
def laneOf (key : Bytes) (n : Nat) : Nat := (key.foldl Engine.fnvStep 14695981039346656037).toNat % n

/-- What became of the message of a `Submit`. -/
inductive SubmitOutcome where
  | enqueued
  | dropped
  /-- The router is closed. -/
  | refused
  deriving DecidableEq, Repr

/-- Where a call of `Submit` is. -/
inductive SubmitPoint where
  | idle
  /-- Behind `RLock`. -/
  | locked
  /-- Behind the check of `closed`. -/
  | sending
  /-- Before `RUnlock`. -/
  | unlocking (outcome : SubmitOutcome)
  | returned (outcome : SubmitOutcome)
  deriving DecidableEq, Repr

/-- The call holds the read lock. -/
def SubmitPoint.inside : SubmitPoint → Bool
  | .locked | .sending | .unlocking _ => true
  | .idle | .returned _ => false

/-- What the call returns. -/
def SubmitPoint.outcome : SubmitPoint → Option SubmitOutcome
  | .unlocking outcome | .returned outcome => some outcome
  | _ => none

/-- Where the goroutine of a lane is; `quitting` says that it has seen `quit`. -/
inductive LanePoint (μ : Type) where
  /-- In `select`. -/
  | waiting (quitting : Bool)
  /-- In `processOne`, with the message of call `c`. -/
  | running (c : Nat) (quitting : Bool) (run : GraphRun μ)
  | exited
  deriving DecidableEq

/-- The lane has seen `quit`. -/
def LanePoint.leaving {μ : Type} : LanePoint μ → Bool
  | .waiting quitting | .running _ quitting _ => quitting
  | .exited => true

/-- The goroutine is gone. -/
def LanePoint.hasExited {μ : Type} : LanePoint μ → Bool
  | .exited => true
  | _ => false

/-- A lane: its channel has the numbers of the calls whose messages are queued. -/
structure Lane (μ : Type) where
  ch : Chan Nat
  point : LanePoint μ := .waiting false
  deriving DecidableEq

/-- The block whose `Process` the lane is in. -/
def Lane.calling {μ : Type} (blocks : List Block) (lane : Lane μ) : Option Block :=
  match lane.point with
  | .running _ _ run => run.calling blocks
  | _ => none

/-- Where a call of `Drain` is. -/
inductive DrainPoint where
  | idle
  /-- In `Lock`. -/
  | waiting
  /-- Behind `Lock`. -/
  | locked
  /-- Before `Unlock`. -/
  | unlocking
  /-- Behind `Unlock`. -/
  | unlocked
  /-- All lanes have ended. -/
  | returned
  /-- The context of the call has ended. -/
  | interrupted
  deriving DecidableEq, Repr

/-- The call holds the write lock. -/
def DrainPoint.inside : DrainPoint → Bool
  | .locked | .unlocking => true
  | _ => false

/-- The call holds the write lock or waits for it, and no other reader gets the lock. -/
def DrainPoint.ahead : DrainPoint → Bool
  | .waiting | .locked | .unlocking => true
  | _ => false

/-- The call has set `closed`, or found it set. -/
def DrainPoint.past : DrainPoint → Bool
  | .unlocking | .unlocked | .returned | .interrupted => true
  | _ => false

/-- The call has released the write lock. -/
def DrainPoint.released : DrainPoint → Bool
  | .unlocked | .returned | .interrupted => true
  | _ => false

/-- The router. `enqueued` lists the calls whose messages were sent to a lane, and `handled` those whose
messages a lane has passed to the graph. -/
structure Router (μ : Type) where
  closed : Bool := false
  /-- The channel `quit` is closed. -/
  quit : Bool := false
  points : List SubmitPoint
  lanes : List (Lane μ)
  drains : List DrainPoint
  enqueued : List Nat := []
  handled : List Nat := []
  panicked : Bool := false
  deriving DecidableEq

/-- A step of `Submit`. -/
inductive SubmitStep where
  | rlock
  | check
  | send
  | runlock
  deriving DecidableEq, Repr

/-- A step of a lane. -/
inductive LaneStep (μ : Type) where
  | take
  | quit
  | exit
  /-- `Run` goes on to the next call of `Process`. -/
  | advance
  /-- `Process` returns these messages. -/
  | ret (out : List μ)
  /-- `Process` returns an error, or panics. -/
  | fail
  deriving DecidableEq

/-- A step of `Drain`. -/
inductive DrainStep where
  | start
  | lock
  | shut
  | unlock
  | wait
  | interrupt
  deriving DecidableEq, Repr

/-- A step of one of them. -/
inductive RouterStep (μ : Type) where
  | submit (c : Nat) (a : SubmitStep)
  | lane (i : Nat) (a : LaneStep μ)
  | drain (d : Nat) (a : DrainStep)
  deriving DecidableEq

/-- What a router is built from and given: its configuration and its graph, and the messages of the
calls of `Submit`, each with its QoS. -/
structure Traffic (μ : Type) where
  cfg : RouterConfig
  graph : BlockGraph
  key : μ → Bytes
  calls : List (μ × Nat)

/-- The lane of a call. -/
def Traffic.laneOfCall {μ : Type} (t : Traffic μ) (c : Nat) : Nat :=
  match t.calls[c]? with
  | some m => laneOf (t.key m.1) t.cfg.laneCount
  | none => 0

namespace Router

variable {μ : Type} (t : Traffic μ)

/-- `NewRouter` and `Run`, with calls of `Submit` and `Drain` to come. -/
def init (drains : Nat) : Router μ where
  points := t.calls.map fun _ => .idle
  lanes := List.replicate t.cfg.laneCount { ch := { cap := t.cfg.capacity } }
  drains := List.replicate drains .idle

/-- A call goes on. -/
def setPoint (s : Router μ) (c : Nat) (p : SubmitPoint) : Router μ := { s with points := s.points.set c p }

/-- A lane is changed. -/
def setLane (s : Router μ) (i : Nat) (lane : Lane μ) : Router μ := { s with lanes := s.lanes.set i lane }

/-- A drain goes on. -/
def setDrain (s : Router μ) (d : Nat) (p : DrainPoint) : Router μ := { s with drains := s.drains.set d p }

/-- The send of `Submit`; where the policy is to drop, it does not wait. -/
def send (s : Router μ) (c : Nat) (m : μ × Nat) : Option (Router μ) :=
  let i := laneOf (t.key m.1) s.lanes.length
  match s.lanes[i]? with
  | none => some { s with panicked := true }
  | some lane =>
    match lane.ch.send c with
    | .panics => some { s with panicked := true }
    | .blocks => if t.cfg.drops m.2 then some (s.setPoint c (.unlocking .dropped)) else none
    | .sent ch =>
      some { (s.setLane i { lane with ch := ch }).setPoint c (.unlocking .enqueued) with
        enqueued := s.enqueued ++ [c] }

/-- One step of `Submit`. -/
def submitStep (s : Router μ) (c : Nat) (m : μ × Nat) (a : SubmitStep) (p : SubmitPoint) : Option (Router μ) :=
  match a, p with
  | .rlock, .idle => if s.drains.any DrainPoint.ahead then none else some (s.setPoint c .locked)
  | .check, .locked => some (s.setPoint c (if s.closed then .unlocking .refused else .sending))
  | .send, .sending => s.send t c m
  | .runlock, .unlocking outcome => some (s.setPoint c (.returned outcome))
  | _, _ => none

/-- A lane receives a message and passes it to the graph. -/
def take (s : Router μ) (i : Nat) (lane : Lane μ) (quitting : Bool) : Option (Router μ) :=
  match lane.ch.recv with
  | none => none
  | some r =>
    match t.calls[r.1]? with
    | none => none
    | some m =>
      some { s.setLane i ⟨r.2, .running r.1 quitting (.start m.1)⟩ with handled := s.handled ++ [r.1] }

/-- The run of the lane goes on; without a run the lane is back in its loop. -/
def proceed (s : Router μ) (i : Nat) (lane : Lane μ) (c : Nat) (quitting : Bool)
    (run : Option (GraphRun μ)) : Router μ :=
  s.setLane i
    { lane with
      point :=
        match run with
        | some r => .running c quitting r
        | none => .waiting quitting }

/-- One step of a lane. -/
def laneStep (s : Router μ) (i : Nat) (lane : Lane μ) (a : LaneStep μ) : Option (Router μ) :=
  match a, lane.point with
  | .take, .waiting quitting => s.take t i lane quitting
  | .quit, .waiting false =>
    if s.quit then some (s.setLane i { lane with point := .waiting true }) else none
  | .exit, .waiting true =>
    if lane.ch.queue.isEmpty then some (s.setLane i { lane with point := .exited }) else none
  | .advance, .running c quitting r =>
    if r.busy then none else some (s.proceed i lane c quitting (r.advance t.graph.blocks))
  | .ret out, .running c quitting r =>
    if r.busy then some (s.proceed i lane c quitting (some (r.collect out))) else none
  | .fail, .running c quitting r => if r.busy then some (s.proceed i lane c quitting none) else none
  | _, _ => none

/-- One step of `Drain`. -/
def drainStep (s : Router μ) (d : Nat) (a : DrainStep) (p : DrainPoint) : Option (Router μ) :=
  match a, p with
  | .start, .idle => some (s.setDrain d .waiting)
  | .lock, .waiting =>
    if s.points.any SubmitPoint.inside || s.drains.any DrainPoint.inside then none
    else some (s.setDrain d .locked)
  | .shut, .locked =>
    if s.closed then some (s.setDrain d .unlocking)
    -- `close(r.quit)` panics on a closed channel
    else if s.quit then some { s with panicked := true }
    else some { s.setDrain d .unlocking with closed := true, quit := true }
  | .unlock, .unlocking => some (s.setDrain d .unlocked)
  | .wait, .unlocked =>
    if s.lanes.all fun lane => lane.point.hasExited then some (s.setDrain d .returned) else none
  | .interrupt, .unlocked => some (s.setDrain d .interrupted)
  | _, _ => none

/-- One step, if possible. -/
def step (s : Router μ) : RouterStep μ → Option (Router μ)
  | .submit c a =>
    match t.calls[c]?, s.points[c]? with
    | some m, some p => s.submitStep t c m a p
    | _, _ => none
  | .lane i a =>
    match s.lanes[i]? with
    | some lane => s.laneStep t i lane a
    | none => none
  | .drain d a =>
    match s.drains[d]? with
    | some p => s.drainStep d a p
    | none => none

/-! ## What a step does -/

/-- The steps that are possible, one constructor for each effect. -/
inductive Goes (s : Router μ) : RouterStep μ → Router μ → Prop
  | rlock (c : Nat) (point : s.points[c]? = some .idle) (free : ∀ w ∈ s.drains, w.inside = false) :
      Goes s (.submit c .rlock) (s.setPoint c .locked)
  | refuse (c : Nat) (point : s.points[c]? = some .locked) (closed : s.closed = true) :
      Goes s (.submit c .check) (s.setPoint c (.unlocking .refused))
  | pass (c : Nat) (point : s.points[c]? = some .locked) (closed : s.closed = false) :
      Goes s (.submit c .check) (s.setPoint c .sending)
  | crash (c : Nat) (m : μ × Nat) (point : s.points[c]? = some .sending)
      (closed : ∀ lane, s.lanes[laneOf (t.key m.1) s.lanes.length]? = some lane → lane.ch.closed = true) :
      Goes s (.submit c .send) { s with panicked := true }
  | drop (c : Nat) (point : s.points[c]? = some .sending) :
      Goes s (.submit c .send) (s.setPoint c (.unlocking .dropped))
  | enqueue (c : Nat) (m : μ × Nat) (i : Nat) (lane : Lane μ) (call : t.calls[c]? = some m)
      (point : s.points[c]? = some .sending) (home : i = laneOf (t.key m.1) s.lanes.length)
      (at_ : s.lanes[i]? = some lane) :
      Goes s (.submit c .send)
        { (s.setLane i { lane with ch := { lane.ch with queue := lane.ch.queue ++ [c] } }).setPoint c
            (.unlocking .enqueued) with
          enqueued := s.enqueued ++ [c] }
  | runlock (c : Nat) (outcome : SubmitOutcome) (point : s.points[c]? = some (.unlocking outcome)) :
      Goes s (.submit c .runlock) (s.setPoint c (.returned outcome))
  | take (i : Nat) (lane : Lane μ) (quitting : Bool) (c : Nat) (m : μ × Nat) (ch : Chan Nat)
      (at_ : s.lanes[i]? = some lane) (point : lane.point = .waiting quitting)
      (head : lane.ch.queue = c :: ch.queue) (same : ch.closed = lane.ch.closed) :
      Goes s (.lane i .take)
        { s.setLane i ⟨ch, .running c quitting (.start m.1)⟩ with handled := s.handled ++ [c] }
  | move (i : Nat) (a : LaneStep μ) (lane : Lane μ) (next : LanePoint μ)
      (at_ : s.lanes[i]? = some lane) (active : lane.point ≠ .exited)
      (leaving : next.leaving = true → lane.point.leaving = true ∨ s.quit = true)
      (exited : next = .exited → lane.ch.queue = [])
      (run : ∀ c quitting r, next = .running c quitting r →
        r.Valid t.graph.blocks ∧ ∃ quitting' r', lane.point = .running c quitting' r') :
      Goes s (.lane i a) (s.setLane i { lane with point := next })
  | lock (d : Nat) (point : s.drains[d]? = some .waiting) (readers : ∀ p ∈ s.points, p.inside = false) :
      Goes s (.drain d .lock) (s.setDrain d .locked)
  | shut (d : Nat) (point : s.drains[d]? = some .locked) (closed : s.closed = false) :
      Goes s (.drain d .shut) { s.setDrain d .unlocking with closed := true, quit := true }
  | shutTwice (d : Nat) (closed : s.closed = false) (quit : s.quit = true) :
      Goes s (.drain d .shut) { s with panicked := true }
  | finish (d : Nat) (point : s.drains[d]? = some .unlocked)
      (exited : ∀ lane ∈ s.lanes, lane.point = .exited) :
      Goes s (.drain d .wait) (s.setDrain d .returned)
  | other (d : Nat) (a : DrainStep) (w next : DrainPoint) (point : s.drains[d]? = some w)
      (inside : next.inside = true → w.inside = true)
      (past : next.past = true → w.past = true ∨ s.closed = true) (notDone : next ≠ .returned) :
      Goes s (.drain d a) (s.setDrain d next)

variable {t} {s s' : Router μ} {c i d : Nat}

theorem goes_of_submitStep {m : μ × Nat} {a : SubmitStep} {p : SubmitPoint}
    (hcall : t.calls[c]? = some m) (hpoint : s.points[c]? = some p)
    (h : s.submitStep t c m a p = some s') : Goes t s (.submit c a) s' := by
  unfold submitStep at h
  split at h
  · split_ifs at h with hahead
    cases h
    refine .rlock c hpoint fun w hw => ?_
    simp only [List.any_eq_true, not_exists, not_and, Bool.not_eq_true] at hahead
    have := hahead w hw
    cases w <;> first | rfl | cases this
  · cases h
    split_ifs with hclosed
    · exact .refuse c hpoint hclosed
    · exact .pass c hpoint (by simpa using hclosed)
  · rw [send] at h
    split at h
    · next hnone =>
      cases h
      exact .crash c m hpoint fun lane hlane => by
        rw [hnone] at hlane
        cases hlane
    · next lane hlane =>
      split at h
      · next hsend =>
        cases h
        refine .crash c m hpoint fun lane' hlane' => ?_
        obtain rfl := Option.some.inj (hlane.symm.trans hlane')
        exact Chan.send_eq_panics hsend
      · split_ifs at h with hdrops
        cases h
        exact .drop c hpoint
      · next ch hsend =>
        cases h
        obtain ⟨-, rfl⟩ := Chan.send_eq_sent hsend
        exact .enqueue c m _ lane hcall hpoint rfl hlane
  · next outcome =>
    cases h
    exact .runlock c outcome hpoint
  · cases h

theorem goes_of_proceed {lane : Lane μ} {a : LaneStep μ} {quitting : Bool} {r : GraphRun μ}
    (hlane : s.lanes[i]? = some lane) (hpoint : lane.point = .running c quitting r)
    {run : Option (GraphRun μ)} (hrun : ∀ r', run = some r' → r'.Valid t.graph.blocks) :
    Goes t s (.lane i a) (s.proceed i lane c quitting run) := by
  have hactive : lane.point ≠ .exited := by
    rw [hpoint]
    exact nofun
  cases run with
  | none =>
    exact .move i a lane (.waiting quitting) hlane hactive
      (fun h => Or.inl (by rw [hpoint]; exact h)) nofun nofun
  | some r' =>
    refine .move i a lane (.running c quitting r') hlane hactive
      (fun h => Or.inl (by rw [hpoint]; exact h)) nofun fun c' quitting' r'' hnext => ?_
    cases hnext
    exact ⟨hrun r' rfl, quitting, r, hpoint⟩

theorem goes_of_laneStep {lane : Lane μ} {a : LaneStep μ} (hlane : s.lanes[i]? = some lane)
    (h : s.laneStep t i lane a = some s') : Goes t s (.lane i a) s' := by
  unfold laneStep at h
  split at h
  · next quitting hpoint =>
    rw [take] at h
    split at h
    · cases h
    · next r hrecv =>
      split at h
      · cases h
      · next m _ =>
        cases h
        obtain ⟨hhead, hsame⟩ := Chan.recv_eq_some hrecv
        exact .take i lane quitting r.1 m r.2 hlane hpoint hhead hsame
  · next hpoint =>
    split_ifs at h with hquit
    cases h
    exact .move i _ lane (.waiting true) hlane (by simp [hpoint]) (fun _ => Or.inr hquit) nofun nofun
  · next hpoint =>
    split_ifs at h with hempty
    cases h
    exact .move i _ lane .exited hlane (by simp [hpoint]) (fun _ => Or.inl (by rw [hpoint]; rfl))
      (fun _ => List.isEmpty_iff.1 hempty) nofun
  · next hpoint =>
    split_ifs at h with hbusy
    cases h
    exact goes_of_proceed hlane hpoint fun r' => GraphRun.valid_advance (by simpa using hbusy)
  · next hpoint =>
    split_ifs at h
    cases h
    refine goes_of_proceed hlane hpoint fun r' hr' => ?_
    cases hr'
    exact nofun
  · next hpoint =>
    split_ifs at h
    cases h
    exact goes_of_proceed hlane hpoint nofun
  · cases h

theorem eq_exited {p : LanePoint μ} (h : p.hasExited = true) : p = .exited := by
  cases p <;> first | rfl | cases h

theorem goes_of_drainStep {w : DrainPoint} {a : DrainStep} (hpoint : s.drains[d]? = some w)
    (h : s.drainStep d a w = some s') : Goes t s (.drain d a) s' := by
  unfold drainStep at h
  split at h
  · cases h
    exact .other d _ .idle .waiting hpoint nofun nofun nofun
  · cases hheld : s.points.any SubmitPoint.inside || s.drains.any DrainPoint.inside with
    | true =>
      rw [hheld] at h
      cases h
    | false =>
      rw [hheld] at h
      cases h
      rw [Bool.or_eq_false_iff] at hheld
      exact .lock d hpoint (by simpa using hheld.1)
  · split_ifs at h with hclosed hquit
    · cases h
      exact .other d _ .locked .unlocking hpoint (fun _ => rfl) (fun _ => Or.inr hclosed) nofun
    · cases h
      exact .shutTwice d (by simpa using hclosed) hquit
    · cases h
      exact .shut d hpoint (by simpa using hclosed)
  · cases h
    exact .other d _ .unlocking .unlocked hpoint nofun (fun _ => Or.inl rfl) nofun
  · split_ifs at h with hexited
    cases h
    refine .finish d hpoint fun lane hlane => eq_exited ?_
    exact List.all_eq_true.1 hexited lane hlane
  · cases h
    exact .other d _ .unlocked .interrupted hpoint nofun (fun _ => Or.inl rfl) nofun
  · cases h

theorem goes_of_step {a : RouterStep μ} (h : s.step t a = some s') : Goes t s a s' := by
  cases a with
  | submit c a =>
    rw [step] at h
    split at h
    · next m p hcall hpoint => exact goes_of_submitStep hcall hpoint h
    · cases h
  | lane i a =>
    rw [step] at h
    split at h
    · next lane hlane => exact goes_of_laneStep hlane h
    · cases h
  | drain d a =>
    rw [step] at h
    split at h
    · next w hpoint => exact goes_of_drainStep hpoint h
    · cases h

/-! ## The invariant -/

/-- The lock and what it guards. -/
structure LockSound (closed quit : Bool) (points : List SubmitPoint) (drains : List DrainPoint) :
    Prop where
  exclusive : ∀ w ∈ drains, w.inside = true → ∀ p ∈ points, p.inside = false
  sending : .sending ∈ points → closed = false
  quit : quit = closed
  past : ∀ w ∈ drains, w.past = true → closed = true

/-- The logs of the calls, and the channels of the lanes. -/
structure LogSound (t : Traffic μ) (enqueued handled : List Nat) (queues : List (List Nat))
    (points : List SubmitPoint) : Prop where
  fifo : Fifo t.laneOfCall enqueued handled queues
  nodup : enqueued.Nodup
  known : ∀ c ∈ enqueued, c < t.calls.length
  sent : ∀ (c : Nat) p, points[c]? = some p → (c ∈ enqueued ↔ p.outcome = some .enqueued)

/-- A lane leaves only when the router is closed, and with an empty channel. -/
structure LanesSound (closed : Bool) (lanes : List (Lane μ)) : Prop where
  channels : ∀ lane ∈ lanes, lane.ch.closed = false
  leaving : ∀ lane ∈ lanes, lane.point.leaving = true → closed = true
  exited : ∀ lane ∈ lanes, lane.point = .exited → lane.ch.queue = []

/-- What every step keeps. -/
structure Sound (t : Traffic μ) (s : Router μ) : Prop where
  lock : LockSound s.closed s.quit s.points s.drains
  log : LogSound t s.enqueued s.handled (s.lanes.map fun lane => lane.ch.queue) s.points
  lanes : LanesSound s.closed s.lanes
  done : .returned ∈ s.drains → ∀ lane ∈ s.lanes, lane.point = .exited
  count : s.lanes.length = t.cfg.laneCount
  panicked : s.panicked = false

section Parts

variable {closed quit : Bool} {points : List SubmitPoint} {drains : List DrainPoint}
  {p p' : SubmitPoint} {w w' : DrainPoint} {lanes : List (Lane μ)} {lane lane' : Lane μ}

section

variable (h : LockSound closed quit points drains)

include h

/-- While a reader is inside, no writer is. -/
theorem LockSound.free (hp : p ∈ points) (hinside : p.inside = true) : ∀ w ∈ drains, w.inside = false := by
  intro w hw
  by_contra hwriter
  rw [Bool.not_eq_false] at hwriter
  rw [h.exclusive w hw hwriter p hp] at hinside
  cases hinside

theorem LockSound.setPoint (hinside : p'.inside = true → ∀ w ∈ drains, w.inside = false)
    (hsending : p' = .sending → closed = false) : LockSound closed quit (points.set c p') drains where
  exclusive := by
    intro w hw hwriter q hq
    rcases List.mem_or_eq_of_mem_set hq with hq | rfl
    · exact h.exclusive w hw hwriter q hq
    · by_contra hin
      rw [Bool.not_eq_false] at hin
      rw [hinside hin w hw] at hwriter
      cases hwriter
  sending := of_mem_set h.sending hsending
  quit := h.quit
  past := h.past

theorem LockSound.setDrain (hinside : w'.inside = true → ∀ p ∈ points, p.inside = false)
    (hpast : w'.past = true → closed = true) : LockSound closed quit points (drains.set d w') where
  exclusive := forall_mem_set h.exclusive hinside
  sending := h.sending
  quit := h.quit
  past := forall_mem_set h.past hpast

/-- The writer that has the lock closes the router. -/
theorem LockSound.shut (hw : drains[d]? = some .locked) :
    LockSound true true points (drains.set d .unlocking) where
  exclusive := by
    intro w _ _
    exact h.exclusive .locked (List.mem_of_getElem? hw) rfl
  sending := by
    intro hmem
    cases h.exclusive .locked (List.mem_of_getElem? hw) rfl _ hmem
  quit := rfl
  past := fun _ _ _ => rfl

end

variable {enqueued handled : List Nat} {queues : List (List Nat)} {q : List Nat} {m : μ × Nat}

theorem LogSound.setPoint (h : LogSound t enqueued handled queues points) (hp : points[c]? = some p)
    (hsent : p'.outcome = some .enqueued ↔ p.outcome = some .enqueued) :
    LogSound t enqueued handled queues (points.set c p') where
  fifo := h.fifo
  nodup := h.nodup
  known := h.known
  sent := by
    intro j r hr
    rcases getElem?_set_cases hr with ⟨rfl, rfl⟩ | ⟨-, hr⟩
    · rw [h.sent j p hp, hsent]
    · exact h.sent j r hr

theorem LogSound.enqueue (h : LogSound t enqueued handled queues points)
    (hp : points[c]? = some .sending) (hcall : t.calls[c]? = some m)
    (hq : queues[t.laneOfCall c]? = some q) :
    LogSound t (enqueued ++ [c]) handled (queues.set (t.laneOfCall c) (q ++ [c]))
      (points.set c (.unlocking .enqueued)) where
  fifo := h.fifo.concat hq
  nodup := by
    -- a call that is sending has not sent
    have hnew : c ∉ enqueued := by
      rw [h.sent c _ hp]
      exact nofun
    exact nodup_concat h.nodup hnew
  known := forall_mem_concat h.known (List.getElem?_eq_some_iff.1 hcall).1
  sent := by
    intro j r hr
    rw [List.mem_append, List.mem_singleton]
    rcases getElem?_set_cases hr with ⟨rfl, rfl⟩ | ⟨hne, hr⟩
    · exact iff_of_true (Or.inr rfl) rfl
    · rw [h.sent j r hr, or_iff_left hne]

theorem LanesSound.set (h : LanesSound closed lanes) (hchannel : lane'.ch.closed = false)
    (hleaving : lane'.point.leaving = true → closed = true)
    (hexited : lane'.point = .exited → lane'.ch.queue = []) : LanesSound closed (lanes.set i lane') where
  channels := forall_mem_set h.channels hchannel
  leaving := forall_mem_set h.leaving hleaving
  exited := forall_mem_set h.exited hexited

end Parts

section Machine

variable {p p' : SubmitPoint} {lane lane' : Lane μ} {w w' : DrainPoint} {a : RouterStep μ}

section

variable (hs : Sound t s)

include hs

/-- A call goes on without a send. -/
theorem Sound.setPoint (hp : s.points[c]? = some p)
    (hinside : p'.inside = true → p.inside = true ∨ ∀ w ∈ s.drains, w.inside = false)
    (hsending : p' = .sending → s.closed = false)
    (hsent : p'.outcome = some .enqueued ↔ p.outcome = some .enqueued) : Sound t (s.setPoint c p') where
  lock := by
    apply hs.lock.setPoint _ hsending
    intro hin
    exact (hinside hin).elim (fun hin => hs.lock.free (List.mem_of_getElem? hp) hin) id
  log := hs.log.setPoint hp hsent
  lanes := hs.lanes
  done := hs.done
  count := hs.count
  panicked := hs.panicked

theorem Sound.enqueue {m : μ × Nat} (hcall : t.calls[c]? = some m)
    (hp : s.points[c]? = some .sending) (hhome : i = laneOf (t.key m.1) s.lanes.length)
    (hlane : s.lanes[i]? = some lane) :
    Sound t
      { (s.setLane i { lane with ch := { lane.ch with queue := lane.ch.queue ++ [c] } }).setPoint c
          (.unlocking .enqueued) with
        enqueued := s.enqueued ++ [c] } := by
  have hmem := List.mem_of_getElem? hlane
  have hopen := hs.lock.sending (List.mem_of_getElem? hp)
  -- the lane of an open router is not leaving
  have hstays : lane.point.leaving ≠ true := by
    intro hleaving
    rw [hs.lanes.leaving lane hmem hleaving] at hopen
    cases hopen
  have hhere : lane.point ≠ .exited := by
    intro hexited
    rw [hexited] at hstays
    exact hstays rfl
  have hi : i = t.laneOfCall c := by
    rw [hhome, Traffic.laneOfCall, hcall, hs.count]
  refine ⟨?_, ?_, ?_, fun hdone => ?_, ?_, hs.panicked⟩
  · exact hs.lock.setPoint (fun _ => hs.lock.free (List.mem_of_getElem? hp) rfl) nofun
  · dsimp only [Router.setLane, Router.setPoint]
    rw [List.map_set]
    subst hi
    exact hs.log.enqueue hp hcall (by rw [List.getElem?_map, hlane, Option.map_some])
  · exact hs.lanes.set (hs.lanes.channels lane hmem) (hs.lanes.leaving lane hmem)
      fun hexited => absurd hexited hhere
  · exact absurd (hs.done hdone lane hmem) hhere
  · dsimp only [Router.setLane, Router.setPoint]
    rw [List.length_set]
    exact hs.count

theorem Sound.take {quitting : Bool} {m : μ × Nat} {ch : Chan Nat}
    (hlane : s.lanes[i]? = some lane) (hpoint : lane.point = .waiting quitting)
    (hhead : lane.ch.queue = c :: ch.queue) (hsame : ch.closed = lane.ch.closed) :
    Sound t { s.setLane i ⟨ch, .running c quitting (.start m.1)⟩ with handled := s.handled ++ [c] } := by
  have hmem := List.mem_of_getElem? hlane
  refine ⟨hs.lock, ⟨?_, hs.log.nodup, hs.log.known, hs.log.sent⟩, ?_, fun hdone => ?_, ?_, hs.panicked⟩
  · dsimp only [Router.setLane]
    rw [List.map_set]
    exact hs.log.fifo.take (by rw [List.getElem?_map, hlane, Option.map_some, hhead])
  · refine hs.lanes.set (hsame.trans (hs.lanes.channels lane hmem)) (fun hleaving => ?_) nofun
    exact hs.lanes.leaving lane hmem (by rw [hpoint]; exact hleaving)
  · have hexited := hs.done hdone lane hmem
    rw [hpoint] at hexited
    cases hexited
  · dsimp only [Router.setLane]
    rw [List.length_set]
    exact hs.count

/-- A lane goes on, without a change of its channel. -/
theorem Sound.moveLane {next : LanePoint μ} (hlane : s.lanes[i]? = some lane)
    (hactive : lane.point ≠ .exited) (hleaving : next.leaving = true → s.closed = true)
    (hexited : next = .exited → lane.ch.queue = []) : Sound t (s.setLane i { lane with point := next }) where
  lock := hs.lock
  log := by
    rw [setLane, map_set_of_eq hlane (by rfl)]
    exact hs.log
  lanes := hs.lanes.set (hs.lanes.channels lane (List.mem_of_getElem? hlane)) hleaving hexited
  done := fun hdone => absurd (hs.done hdone lane (List.mem_of_getElem? hlane)) hactive
  count := by
    rw [setLane, List.length_set]
    exact hs.count
  panicked := hs.panicked

/-- A call of `Drain` goes on. -/
theorem Sound.setDrain (hinside : w'.inside = true → ∀ p ∈ s.points, p.inside = false)
    (hpast : w'.past = true → s.closed = true)
    (hdone : w' = .returned → ∀ lane ∈ s.lanes, lane.point = .exited) : Sound t (s.setDrain d w') where
  lock := hs.lock.setDrain hinside hpast
  log := hs.log
  lanes := hs.lanes
  done := of_mem_set hs.done hdone
  count := hs.count
  panicked := hs.panicked

theorem Sound.shut (hw : s.drains[d]? = some .locked) :
    Sound t { s.setDrain d .unlocking with closed := true, quit := true } where
  lock := hs.lock.shut hw
  log := hs.log
  lanes := ⟨hs.lanes.channels, fun _ _ _ => rfl, hs.lanes.exited⟩
  done := of_mem_set hs.done nofun
  count := hs.count
  panicked := hs.panicked

theorem Sound.goes (h : Goes t s a s') : Sound t s' := by
  cases h with
  | rlock c hp hfree =>
    exact hs.setPoint hp (fun _ => Or.inr hfree) nofun (by simp [SubmitPoint.outcome])
  | refuse c hp =>
    exact hs.setPoint hp (fun _ => Or.inl rfl) nofun (by simp [SubmitPoint.outcome])
  | pass c hp hclosed =>
    exact hs.setPoint hp (fun _ => Or.inl rfl) (fun _ => hclosed) (by simp [SubmitPoint.outcome])
  | crash c m hp hclosed =>
    -- there is a lane for every key, and the channel of a lane is never closed
    have hlt : laneOf (t.key m.1) s.lanes.length < s.lanes.length := by
      apply Nat.mod_lt
      rw [hs.count]
      exact t.cfg.laneCount_pos
    have hchannel := hs.lanes.channels _ (List.getElem_mem hlt)
    rw [hclosed _ (List.getElem?_eq_getElem hlt)] at hchannel
    cases hchannel
  | drop c hp => exact hs.setPoint hp (fun _ => Or.inl rfl) nofun (by simp [SubmitPoint.outcome])
  | enqueue c m i lane hcall hp hhome hlane => exact hs.enqueue hcall hp hhome hlane
  | runlock c outcome hp => exact hs.setPoint hp nofun nofun Iff.rfl
  | take i lane quitting c m ch hlane hpoint hhead hsame => exact hs.take hlane hpoint hhead hsame
  | move i _ lane next hlane hactive hleaving hexited =>
    refine hs.moveLane hlane hactive (fun hnext => ?_) hexited
    rcases hleaving hnext with hleaving | hquit
    · exact hs.lanes.leaving lane (List.mem_of_getElem? hlane) hleaving
    · exact hs.lock.quit.symm.trans hquit
  | lock d hw hreaders => exact hs.setDrain (fun _ => hreaders) nofun nofun
  | shut d hw hclosed => exact hs.shut hw
  | shutTwice d hclosed hquit =>
    rw [hs.lock.quit, hclosed] at hquit
    cases hquit
  | finish d hw hexited =>
    exact hs.setDrain nofun (fun _ => hs.lock.past _ (List.mem_of_getElem? hw) rfl) fun _ => hexited
  | other d _ w next hw hinside hpast hnotDone =>
    have hmem := List.mem_of_getElem? hw
    refine hs.setDrain (fun hin => hs.lock.exclusive w hmem (hinside hin)) (fun hnext => ?_)
      fun hdone => absurd hdone hnotDone
    exact (hpast hnext).elim (hs.lock.past w hmem) id

omit hs in
theorem sound_init (t : Traffic μ) (drains : Nat) : Sound t (init t drains) := by
  have hpoints : ∀ p ∈ (init t drains).points, p = .idle := by
    intro p hp
    obtain ⟨-, -, rfl⟩ := List.mem_map.1 hp
    rfl
  have hdrains : ∀ w ∈ (init t drains).drains, w = .idle := fun w hw => List.eq_of_mem_replicate hw
  have hlanes : ∀ lane ∈ (init t drains).lanes, lane = { ch := { cap := t.cfg.capacity } } :=
    fun lane hlane => List.eq_of_mem_replicate hlane
  refine ⟨⟨fun w hw hin => ?_, fun _ => rfl, rfl, fun w hw hpast => ?_⟩,
    ⟨?_, List.nodup_nil, nofun, fun c p hp => ?_⟩, ⟨fun lane hlane => ?_, fun lane hlane hpoint => ?_,
      fun lane hlane hpoint => ?_⟩, fun hmem => ?_, List.length_replicate, rfl⟩
  · rw [hdrains w hw] at hin
    cases hin
  · rw [hdrains w hw] at hpast
    cases hpast
  · rw [init, List.map_replicate]
    exact fifo_nil _
  · rw [hpoints p (List.mem_of_getElem? hp)]
    simp [init, SubmitPoint.outcome]
  · rw [hlanes lane hlane]
  · rw [hlanes lane hlane] at hpoint
    cases hpoint
  · rw [hlanes lane hlane] at hpoint
    cases hpoint
  · cases hdrains _ hmem

theorem sound_run {schedule : List (RouterStep μ)}
    (h : exec (Router.step t) s schedule = some s') : Sound t s' :=
  exec_preserves (fun _ _ _ hs h => hs.goes (goes_of_step h)) hs h

/-- Nothing is sent once the router is closed. -/
theorem Sound.closed_goes (h : Goes t s a s') (hclosed : s.closed = true) :
    s'.closed = true ∧ s'.enqueued = s.enqueued := by
  cases h with
  | enqueue c _ _ _ _ hp =>
    rw [hs.lock.sending (List.mem_of_getElem? hp)] at hclosed
    cases hclosed
  | shut => exact ⟨rfl, rfl⟩
  | _ => exact ⟨hclosed, rfl⟩

/-- When the channels are empty, everything that was sent has been passed to the graph. -/
theorem Sound.perm (hempty : ∀ lane ∈ s.lanes, lane.ch.queue = []) : s.handled.Perm s.enqueued := by
  apply hs.log.fifo.perm hs.log.nodup
  intro q hq
  obtain ⟨lane, hlane, rfl⟩ := List.mem_map.1 hq
  exact hempty lane hlane

omit hs in
theorem lane_step (hlane : s.lanes[i]? = some lane) (a : LaneStep μ) :
    s.step t (.lane i a) = s.laneStep t i lane a := by
  simp only [step, hlane]

/-- A lane that has a message left, or is processing one, can go on. -/
theorem Sound.progress (hlane : s.lanes[i]? = some lane) (hqueue : lane.ch.queue ≠ []) :
    ∃ a s', s.step t (.lane i a) = some s' := by
  cases hpoint : lane.point with
  | waiting quitting =>
    obtain ⟨c, q, hq⟩ := List.exists_cons_of_ne_nil hqueue
    -- what is queued was sent by a call
    have hmem : c ∈ ofLane t.laneOfCall i s.enqueued := by
      have hget : (s.lanes.map fun lane => lane.ch.queue)[i]? = some (c :: q) := by
        rw [List.getElem?_map, hlane, Option.map_some, hq]
      rw [hs.log.fifo.split i _ hget]
      exact List.mem_append_right _ List.mem_cons_self
    have hcall := List.getElem?_eq_getElem (hs.log.known c (mem_ofLane.1 hmem).1)
    refine ⟨.take, ?_⟩
    simp [lane_step hlane, laneStep, hpoint, Router.take, Chan.recv, hq, hcall]
  | running c quitting r =>
    cases hbusy : r.busy with
    | true =>
      refine ⟨.fail, ?_⟩
      simp [lane_step hlane, laneStep, hpoint, hbusy]
    | false =>
      refine ⟨.advance, ?_⟩
      simp [lane_step hlane, laneStep, hpoint, hbusy]
  | exited => exact absurd (hs.lanes.exited lane (List.mem_of_getElem? hlane) hpoint) hqueue

end

/-- The calls whose messages have this key. -/
def ofKey (t : Traffic μ) (key : Bytes) (cs : List Nat) : List Nat :=
  cs.filter fun c => (t.calls[c]?).any fun m => t.key m.1 == key

theorem Sound.ofKey_initial (hs : Sound t s) (key : Bytes) :
    ofKey t key s.handled <+: ofKey t key s.enqueued := by
  have hlane : ∀ c ∈ s.enqueued, ((t.calls[c]?).any fun m => t.key m.1 == key) = true →
      t.laneOfCall c = laneOf key t.cfg.laneCount := by
    intro c _ hkey
    rw [Traffic.laneOfCall]
    cases hcall : t.calls[c]? with
    | none => simp [hcall] at hkey
    | some m =>
      rw [hcall, Option.any_some, beq_iff_eq] at hkey
      dsimp only
      rw [hkey]
  exact hs.log.fifo.filter_initial _ hlane

/-- **Every message once, in order.** With any number of lanes, any capacity and any policies, in every
interleaving of calls of `Submit`, lanes and calls of `Drain`: no send or close hits a closed channel;
what was sent to a lane is passed to the graph at most once, messages of one key in the order in which
they were sent, and the lanes do not stop before all of it has been passed; when `Drain` returns nil,
all of it has been passed and no lane is processing; and nothing is sent after `Drain` has released
the lock. -/
theorem enqueued_processed_once (t : Traffic μ) (drains : Nat) (schedule : List (RouterStep μ)) (s : Router μ)
    (hrun : exec (Router.step t) (init t drains) schedule = some s) :
    s.panicked = false ∧ s.enqueued.Nodup ∧ s.handled.Nodup ∧ s.handled ⊆ s.enqueued ∧
    (∀ key, ofKey t key s.handled <+: ofKey t key s.enqueued) ∧
    ((∀ i a, s.step t (.lane i a) = none) → s.handled.Perm s.enqueued) ∧
    (.returned ∈ s.drains → s.handled.Perm s.enqueued ∧ ∀ lane ∈ s.lanes, lane.point = .exited) ∧
    (∀ w ∈ s.drains, w.released = true → ∀ later s₁, exec (Router.step t) s later = some s₁ →
      s₁.enqueued = s.enqueued) := by
  have hs := sound_run (sound_init t drains) hrun
  refine ⟨hs.panicked, hs.log.nodup, hs.log.fifo.nodup hs.log.nodup, hs.log.fifo.subset,
    hs.ofKey_initial, fun hstuck => ?_, fun hdone => ?_, fun w hw hreleased later s₁ hlater => ?_⟩
  · apply hs.perm
    intro lane hlane
    obtain ⟨i, hi⟩ := List.mem_iff_getElem?.1 hlane
    by_contra hqueue
    obtain ⟨a, s', hstep⟩ := hs.progress hi hqueue
    rw [hstuck i a] at hstep
    cases hstep
  · have hexited := hs.done hdone
    exact ⟨hs.perm fun lane hlane => hs.lanes.exited lane hlane (hexited lane hlane), hexited⟩
  · have hclosed : s.closed = true := by
      apply hs.lock.past w hw
      cases w <;> first | rfl | cases hreleased
    have hkept : Sound t s₁ ∧ s₁.closed = true ∧ s₁.enqueued = s.enqueued := by
      refine exec_preserves (I := fun u => Sound t u ∧ u.closed = true ∧ u.enqueued = s.enqueued)
        (fun u a u' hu h => ?_) ⟨hs, hclosed, rfl⟩ hlater
      obtain ⟨hsu, hcu, heu⟩ := hu
      obtain ⟨hcu', heu'⟩ := hsu.closed_goes (goes_of_step h) hcu
      exact ⟨hsu.goes (goes_of_step h), hcu', heu'.trans heu⟩
    exact hkept.2.2

end Machine

/-- A source, `sort` and a sink, with two messages that are their own keys. -/
def sortTraffic (key key' : Bytes) : Traffic Bytes where
  cfg := {}
  graph := ⟨[{ id := 0, name := utf8 "in", source := true }, { id := 1, name := utf8 "sort" },
    { id := 2, name := utf8 "out" }], List.cons_ne_nil _ _⟩
  key := id
  calls := [(key, 0), (key', 0)]

/-- Two messages of one key are sent; the second one is still queued when `Drain` closes the router. -/
def drainRun : List (RouterStep Bytes) :=
  [.submit 0 .rlock, .submit 0 .check, .submit 0 .send, .submit 0 .runlock, .submit 1 .rlock,
    .submit 1 .check, .submit 1 .send, .submit 1 .runlock, .lane 12 .take, .drain 0 .start,
    .drain 0 .lock, .drain 0 .shut, .drain 0 .unlock, .lane 12 .advance, .lane 12 .advance,
    .lane 12 .fail, .lane 12 .quit, .lane 12 .take, .lane 12 .advance, .lane 12 .advance,
    .lane 12 (.ret []), .lane 12 .advance, .lane 12 .advance, .lane 12 .advance, .lane 12 .exit] ++
  ((List.range 16).erase 12).flatMap (fun i => [.lane i .quit, .lane i .exit]) ++ [.drain 0 .wait]

theorem enqueued_processed_once_two :
    ∃ s : Router Bytes, exec (Router.step (sortTraffic (utf8 "a") (utf8 "a")))
        (init (sortTraffic (utf8 "a") (utf8 "a")) 1) drainRun = some s ∧
      s.drains = [.returned] ∧ s.handled.Perm s.enqueued := by
  have hrun : ((exec (Router.step (sortTraffic (utf8 "a") (utf8 "a")))
      (init (sortTraffic (utf8 "a") (utf8 "a")) 1) drainRun).map fun s => s.drains) =
      some [.returned] := by
    decide +kernel
  obtain ⟨s, hs, hdrains⟩ := Option.map_eq_some_iff.1 hrun
  refine ⟨s, hs, hdrains, ?_⟩
  exact ((enqueued_processed_once _ 1 _ s hs).2.2.2.2.2.2.1
    (by rw [hdrains]; exact List.mem_singleton_self _)).1

/-! ## Calls of `Process` -/

/-- No two lanes are in `Process` of one block. -/
def Exclusive (blocks : List Block) (s : Router μ) : Prop :=
  ∀ (i j : Nat) lane lane' b b', s.lanes[i]? = some lane → s.lanes[j]? = some lane' →
    lane.calling blocks = some b → lane'.calling blocks = some b' → b.id = b'.id → i = j

section Process

variable {lane : Lane μ} {a : RouterStep μ} {m : μ × Nat} {b : Block} {cur : List μ}

/-- A lane processes the messages of its own keys, and calls no source. -/
def OwnCalls (t : Traffic μ) (s : Router μ) : Prop :=
  ∀ (i : Nat) lane c quitting r, s.lanes[i]? = some lane → lane.point = .running c quitting r →
    (t.laneOfCall c = i ∧ c < t.calls.length) ∧ r.Valid t.graph.blocks

theorem OwnCalls.set (h : OwnCalls t s) (lane' : Lane μ)
    (hrun : ∀ c quitting r, lane'.point = .running c quitting r →
      (t.laneOfCall c = i ∧ c < t.calls.length) ∧ r.Valid t.graph.blocks) :
    OwnCalls t (s.setLane i lane') := by
  intro j l c quitting r hl hpoint
  rcases getElem?_set_cases hl with ⟨rfl, rfl⟩ | ⟨-, hl⟩
  · exact hrun c quitting r hpoint
  · exact h j l c quitting r hl hpoint

theorem OwnCalls.goes (h : OwnCalls t s) (hs : Sound t s) (hgoes : Goes t s a s') : OwnCalls t s' := by
  cases hgoes with
  | enqueue c m i lane _ _ _ hlane =>
    exact h.set { lane with ch := { lane.ch with queue := lane.ch.queue ++ [c] } }
      fun c' quitting r hpoint => h i lane c' quitting r hlane hpoint
  | take i lane quitting c m ch hlane hpoint hhead =>
    have hget : (s.lanes.map fun lane => lane.ch.queue)[i]? = some (c :: ch.queue) := by
      rw [List.getElem?_map, hlane, Option.map_some, hhead]
    have hmem : c ∈ ofLane t.laneOfCall i s.enqueued := by
      rw [hs.log.fifo.split i _ hget]
      exact List.mem_append_right _ List.mem_cons_self
    refine h.set ⟨ch, .running c quitting (.start m.1)⟩ fun c' quitting' r hpoint' => ?_
    cases hpoint'
    exact ⟨⟨(mem_ofLane.1 hmem).2, hs.log.known c (mem_ofLane.1 hmem).1⟩, nofun⟩
  | move i _ lane next hlane _ _ _ hrun =>
    refine h.set { lane with point := next } fun c' quitting' r hnext => ?_
    obtain ⟨hvalid, quitting, r', hpoint⟩ := hrun c' quitting' r hnext
    exact ⟨(h i lane c' quitting r' hlane hpoint).1, hvalid⟩
  | _ => exact h

theorem ownCalls_run {schedule : List (RouterStep μ)} {drains : Nat}
    (h : exec (Router.step t) (init t drains) schedule = some s) : OwnCalls t s := by
  have hinit : OwnCalls t (init t drains) := by
    intro i lane c quitting r hlane hpoint
    rw [List.eq_of_mem_replicate (List.mem_of_getElem? hlane)] at hpoint
    cases hpoint
  have hboth : Sound t s ∧ OwnCalls t s :=
    exec_preserves (I := fun u => Sound t u ∧ OwnCalls t u)
      (fun u a u' hu h => ⟨hu.1.goes (goes_of_step h), hu.2.goes hu.1 (goes_of_step h)⟩)
      ⟨sound_init t drains, hinit⟩ h
  exact hboth.2

/-- A lane in `Process` of a block has a message for this lane, and the block is not a source. -/
theorem OwnCalls.calling (h : OwnCalls t s) (hlane : s.lanes[i]? = some lane)
    (hcalling : lane.calling t.graph.blocks = some b) :
    b.source = false ∧ b ∈ t.graph.blocks ∧ ∃ m ∈ t.calls, laneOf (t.key m.1) t.cfg.laneCount = i := by
  rw [Lane.calling] at hcalling
  cases hpoint : lane.point with
  | waiting quitting =>
    rw [hpoint] at hcalling
    cases hcalling
  | exited =>
    rw [hpoint] at hcalling
    cases hcalling
  | running c quitting r =>
    rw [hpoint] at hcalling
    obtain ⟨⟨hown, hlt⟩, hvalid⟩ := h i lane c quitting r hlane hpoint
    have hcall := List.getElem?_eq_getElem hlt
    simp only [GraphRun.calling, Option.ite_none_right_eq_some] at hcalling
    obtain ⟨hbusy, hb⟩ := hcalling
    obtain ⟨b', hb', hsource⟩ := hvalid hbusy
    obtain rfl := Option.some.inj (hb.symm.trans hb')
    refine ⟨hsource, List.mem_of_getElem? hb, _, List.getElem_mem hlt, ?_⟩
    rw [← hown, Traffic.laneOfCall, hcall]

/-! ### Two lanes in one block -/

/-- A call of `Submit` sends its message to a lane that has room. -/
theorem submit_run (hcall : t.calls[c]? = some m) (hpoint : s.points[c]? = some .idle)
    (hdrains : ∀ w ∈ s.drains, w = .idle) (hopen : s.closed = false)
    (hi : laneOf (t.key m.1) s.lanes.length = i) (hlane : s.lanes[i]? = some lane)
    (hch : lane.ch.closed = false) (hroom : lane.ch.queue.length < lane.ch.cap) :
    exec (Router.step t) s [.submit c .rlock, .submit c .check, .submit c .send] =
      some { s with
        points := s.points.set c (.unlocking .enqueued)
        lanes := s.lanes.set i { lane with ch := { lane.ch with queue := lane.ch.queue ++ [c] } }
        enqueued := s.enqueued ++ [c] } := by
  have hlt := (List.getElem?_eq_some_iff.1 hpoint).1
  have hfree : s.drains.any DrainPoint.ahead = false := by
    rw [List.any_eq_false]
    intro w hw
    rw [hdrains w hw]
    exact Bool.false_ne_true
  have hset : ∀ p, (s.points.set c p)[c]? = some p := fun p => List.getElem?_set_self hlt
  have hlock : s.step t (.submit c .rlock) = some (s.setPoint c .locked) := by
    simp [step, submitStep, hcall, hpoint, hfree]
  have hcheck : (s.setPoint c .locked).step t (.submit c .check) = some (s.setPoint c .sending) := by
    simp only [step, submitStep, setPoint, hcall, hset, hopen, Bool.false_eq_true, if_false, List.set_set]
  have hsend : (s.setPoint c .sending).step t (.submit c .send) = some { s with
      points := s.points.set c (.unlocking .enqueued)
      lanes := s.lanes.set i { lane with ch := { lane.ch with queue := lane.ch.queue ++ [c] } }
      enqueued := s.enqueued ++ [c] } := by
    simp [step, submitStep, send, setPoint, setLane, hcall, hset, hi, hlane, Chan.send, hch, hroom]
  simp only [exec, hlock, hcheck, hsend]

@[simp] theorem setLane_setLane (s : Router μ) (i : Nat) (lane lane' : Lane μ) :
    (s.setLane i lane).setLane i lane' = s.setLane i lane' := by
  rw [setLane, setLane, List.set_set]
  rfl

theorem lanes_setLane (hlane : s.lanes[i]? = some lane) (lane' : Lane μ) :
    (s.setLane i lane').lanes[i]? = some lane' :=
  List.getElem?_set_self (List.getElem?_eq_some_iff.1 hlane).1

/-- The run of a lane passes the sources at the head of the graph. -/
theorem skip_sources {k : Nat} {quitting : Bool}
    (hsources : ∀ j < k, ∃ b, t.graph.blocks[j]? = some b ∧ b.source = true)
    (hlane : s.lanes[i]? = some lane) (hpoint : lane.point = .running c quitting ⟨0, cur, [], false⟩) :
    exec (Router.step t) s (List.replicate k (.lane i .advance)) =
      some (s.setLane i { lane with point := .running c quitting ⟨k, cur, [], false⟩ }) := by
  induction k with
  | zero =>
    obtain ⟨hlt, rfl⟩ := List.getElem?_eq_some_iff.1 hlane
    rw [← hpoint, setLane, List.set_getElem_self hlt]
    rfl
  | succ k ih =>
    obtain ⟨b, hb, hsource⟩ := hsources k (Nat.lt_succ_self k)
    have hadvance : (s.setLane i { lane with point := .running c quitting ⟨k, cur, [], false⟩ }).step t
        (.lane i .advance) =
          some (s.setLane i { lane with point := .running c quitting ⟨k + 1, cur, [], false⟩ }) := by
      rw [lane_step (lanes_setLane hlane _)]
      simp [laneStep, proceed, GraphRun.advance, hb, hsource]
    rw [List.replicate_succ', exec_append, ih fun j hj => hsources j (Nat.lt_succ_of_lt hj),
      Option.bind_some, exec, hadvance]
    rfl

/-- A lane that receives a message gets to the first block that is not a source, and calls its
`Process`. -/
theorem process_run {k : Nat} {quitting : Bool} {q : List Nat} (hb : t.graph.blocks[k]? = some b)
    (hprocess : b.source = false)
    (hsources : ∀ j < k, ∃ b, t.graph.blocks[j]? = some b ∧ b.source = true)
    (hlane : s.lanes[i]? = some lane) (hpoint : lane.point = .waiting quitting)
    (hqueue : lane.ch.queue = c :: q) (hcall : t.calls[c]? = some m) :
    ∃ s' lane', exec (Router.step t) s
        (.lane i .take :: (List.replicate k (.lane i .advance) ++ [.lane i .advance])) = some s' ∧
      s'.lanes = s.lanes.set i lane' ∧ lane'.calling t.graph.blocks = some b := by
  let ch : Chan Nat := { lane.ch with queue := q }
  let s₁ : Router μ :=
    { s.setLane i ⟨ch, .running c quitting (.start m.1)⟩ with handled := s.handled ++ [c] }
  have htake : s.step t (.lane i .take) = some s₁ := by
    rw [lane_step hlane]
    simp [laneStep, hpoint, take, Chan.recv, hqueue, hcall, s₁, ch]
  have hlane₁ : s₁.lanes[i]? = some ⟨ch, .running c quitting (.start m.1)⟩ := lanes_setLane hlane _
  have hskip := skip_sources hsources hlane₁ rfl
  have hcalls : (s₁.setLane i ⟨ch, .running c quitting ⟨k, [m.1], [], false⟩⟩).step t (.lane i .advance) =
      some (s₁.setLane i ⟨ch, .running c quitting ⟨k, [m.1], [], true⟩⟩) := by
    rw [lane_step (lanes_setLane hlane₁ _)]
    simp [laneStep, proceed, GraphRun.advance, hb, hprocess]
  refine ⟨s₁.setLane i ⟨ch, .running c quitting ⟨k, [m.1], [], true⟩⟩,
    ⟨ch, .running c quitting ⟨k, [m.1], [], true⟩⟩, ?_, ?_, ?_⟩
  · rw [exec, htake]
    dsimp only
    rw [exec_append, hskip, Option.bind_some, exec, hcalls]
    rfl
  · exact List.set_set _
  · simp [Lane.calling, GraphRun.calling, hb]

/-- Messages of two lanes meet in the first block that is not a source. -/
theorem exists_overlap {k : Nat} {m' : μ × Nat} {c' : Nat} (drains : Nat)
    (hb : t.graph.blocks[k]? = some b) (hprocess : b.source = false)
    (hsources : ∀ j < k, ∃ b, t.graph.blocks[j]? = some b ∧ b.source = true)
    (hcall : t.calls[c]? = some m) (hcall' : t.calls[c']? = some m')
    (hne : laneOf (t.key m.1) t.cfg.laneCount ≠ laneOf (t.key m'.1) t.cfg.laneCount) :
    ∃ schedule s, exec (Router.step t) (init t drains) schedule = some s ∧ ¬ s.Exclusive t.graph.blocks := by
  have hcc' : c ≠ c' := by
    rintro rfl
    obtain rfl := Option.some.inj (hcall.symm.trans hcall')
    exact hne rfl
  let empty : Lane μ := { ch := { cap := t.cfg.capacity } }
  have hroom : empty.ch.queue.length < empty.ch.cap := t.cfg.capacity_pos
  have hlt : ∀ key, laneOf key t.cfg.laneCount < t.cfg.laneCount := fun key =>
    Nat.mod_lt _ t.cfg.laneCount_pos
  have hidle : ∀ {c : Nat} {m}, t.calls[c]? = some m → (init t drains).points[c]? = some SubmitPoint.idle := by
    intro c m hc
    rw [init, List.getElem?_map, hc]
    rfl
  -- both messages are sent
  let s₀ : Router μ := init t drains
  let s₁ : Router μ := { s₀ with
    points := s₀.points.set c (.unlocking .enqueued)
    lanes := s₀.lanes.set (laneOf (t.key m.1) t.cfg.laneCount) { empty with ch := { empty.ch with queue := [c] } }
    enqueued := [c] }
  let s₂ : Router μ := { s₁ with
    points := s₁.points.set c' (.unlocking .enqueued)
    lanes := s₁.lanes.set (laneOf (t.key m'.1) t.cfg.laneCount) { empty with ch := { empty.ch with queue := [c'] } }
    enqueued := [c, c'] }
  have hcount : s₀.lanes.length = t.cfg.laneCount := List.length_replicate
  have hdrains : ∀ w ∈ s₀.drains, w = .idle := fun w hw => List.eq_of_mem_replicate hw
  have hempty : ∀ key, s₀.lanes[laneOf key t.cfg.laneCount]? = some empty := fun key =>
    List.getElem?_replicate_of_lt (hlt key)
  have h₁ : exec (Router.step t) s₀ [.submit c .rlock, .submit c .check, .submit c .send] = some s₁ :=
    submit_run hcall (hidle hcall) hdrains rfl (by rw [hcount]) (hempty _) rfl hroom
  have h₂ : exec (Router.step t) s₁ [.submit c' .rlock, .submit c' .check, .submit c' .send] = some s₂ := by
    refine submit_run hcall' ?_ hdrains rfl (by rw [List.length_set, hcount]) ?_ rfl hroom
    · exact (List.getElem?_set_ne hcc').trans (hidle hcall')
    · exact (List.getElem?_set_ne hne).trans (hempty _)
  -- and both lanes get to the block
  have hcount₂ : s₂.lanes.length = t.cfg.laneCount := by
    simp only [s₂, s₁, List.length_set, hcount]
  have hfirst : s₂.lanes[laneOf (t.key m.1) t.cfg.laneCount]? =
      some { empty with ch := { empty.ch with queue := [c] } } := by
    rw [List.getElem?_set_ne (Ne.symm hne), List.getElem?_set_self (by rw [hcount]; exact hlt _)]
  obtain ⟨s₃, lane₃, h₃, hlanes₃, hcalling₃⟩ := process_run hb hprocess hsources hfirst rfl rfl hcall
  have hsecond : s₃.lanes[laneOf (t.key m'.1) t.cfg.laneCount]? =
      some { empty with ch := { empty.ch with queue := [c'] } } := by
    rw [hlanes₃, List.getElem?_set_ne hne]
    rw [List.getElem?_set_self (by rw [List.length_set, hcount]; exact hlt _)]
  obtain ⟨s₄, lane₄, h₄, hlanes₄, hcalling₄⟩ := process_run hb hprocess hsources hsecond rfl rfl hcall'
  refine ⟨_, s₄, exec_trans h₁ (exec_trans h₂ (exec_trans h₃ h₄)), fun hexclusive => hne ?_⟩
  apply hexclusive _ _ lane₃ lane₄ b b _ _ hcalling₃ hcalling₄ rfl
  · rw [hlanes₄, List.getElem?_set_ne (Ne.symm hne), hlanes₃,
      List.getElem?_set_self (by rw [hcount₂]; exact hlt _)]
  · rw [hlanes₄, List.getElem?_set_self]
    rw [hlanes₃, List.length_set, hcount₂]
    exact hlt _

/-- **One call of `Process` at a time.** A flow keeps the contract of its blocks, in all interleavings of
its router, exactly if it has only sources or all its messages go to one lane. -/
theorem process_exclusive_iff (t : Traffic μ) (drains : Nat) :
    (∀ schedule s, exec (Router.step t) (init t drains) schedule = some s →
      s.Exclusive t.graph.blocks) ↔
    (∀ b ∈ t.graph.blocks, b.source = true) ∨
      ∀ m ∈ t.calls, ∀ m' ∈ t.calls,
        laneOf (t.key m.1) t.cfg.laneCount = laneOf (t.key m'.1) t.cfg.laneCount := by
  constructor
  · intro hall
    by_contra hnot
    push Not at hnot
    obtain ⟨⟨b, hb, hsource⟩, m, hm, m', hm', hne⟩ := hnot
    have hexists : ∃ k : Nat, ∃ b, t.graph.blocks[k]? = some b ∧ b.source = false := by
      obtain ⟨k, hk⟩ := List.mem_iff_getElem?.1 hb
      exact ⟨k, b, hk, by simpa using hsource⟩
    -- the first block that is not a source
    classical
    obtain ⟨b₁, hb₁, hsource₁⟩ := Nat.find_spec hexists
    have hbefore : ∀ j < Nat.find hexists, ∃ b, t.graph.blocks[j]? = some b ∧ b.source = true := by
      intro j hj
      have hlt := hj.trans (List.getElem?_eq_some_iff.1 hb₁).1
      refine ⟨_, List.getElem?_eq_getElem hlt, ?_⟩
      by_contra hnot
      exact Nat.find_min hexists hj ⟨_, List.getElem?_eq_getElem hlt, by simpa using hnot⟩
    obtain ⟨c, hc⟩ := List.mem_iff_getElem?.1 hm
    obtain ⟨c', hc'⟩ := List.mem_iff_getElem?.1 hm'
    obtain ⟨schedule, s, hrun, hoverlap⟩ := exists_overlap drains hb₁ hsource₁ hbefore hc hc' hne
    exact hoverlap (hall schedule s hrun)
  · intro h schedule s hrun i j lane lane' b b' hlane hlane' hcalling hcalling' _
    have hown := ownCalls_run hrun
    obtain ⟨hsource, hb, m, hm, rfl⟩ := hown.calling hlane hcalling
    obtain ⟨-, -, m', hm', rfl⟩ := hown.calling hlane' hcalling'
    rcases h with hsources | hone
    · rw [hsources b hb] at hsource
      cases hsource
    · exact hone m hm m' hm'

/-- The keys `a` and `b` belong to different lanes of the sixteen; their messages are in `sort` at the
same time. -/
theorem process_overlaps :
    ∃ s lane lane' b, exec (Router.step (sortTraffic (utf8 "a") (utf8 "b")))
        (init (sortTraffic (utf8 "a") (utf8 "b")) 0)
        [.submit 0 .rlock, .submit 0 .check, .submit 0 .send, .submit 0 .runlock, .submit 1 .rlock,
          .submit 1 .check, .submit 1 .send, .submit 1 .runlock, .lane 12 .take, .lane 5 .take,
          .lane 12 .advance, .lane 12 .advance, .lane 5 .advance, .lane 5 .advance] = some s ∧
      s.lanes[12]? = some lane ∧ s.lanes[5]? = some lane' ∧ b.name = utf8 "sort" ∧
      lane.calling (sortTraffic (utf8 "a") (utf8 "b")).graph.blocks = some b ∧
      lane'.calling (sortTraffic (utf8 "a") (utf8 "b")).graph.blocks = some b := by
  have hrun : ((exec (Router.step (sortTraffic (utf8 "a") (utf8 "b")))
      (init (sortTraffic (utf8 "a") (utf8 "b")) 0)
      [.submit 0 .rlock, .submit 0 .check, .submit 0 .send, .submit 0 .runlock, .submit 1 .rlock,
        .submit 1 .check, .submit 1 .send, .submit 1 .runlock, .lane 12 .take, .lane 5 .take,
        .lane 12 .advance, .lane 12 .advance, .lane 5 .advance, .lane 5 .advance]).bind fun s =>
      (s.lanes[12]?).bind fun lane => (s.lanes[5]?).map fun lane' =>
        (lane.calling (sortTraffic (utf8 "a") (utf8 "b")).graph.blocks,
          lane'.calling (sortTraffic (utf8 "a") (utf8 "b")).graph.blocks)) =
      some (some { id := 1, name := utf8 "sort" }, some { id := 1, name := utf8 "sort" }) := by
    decide +kernel
  obtain ⟨s, hs, hlanes⟩ := Option.bind_eq_some_iff.1 hrun
  obtain ⟨lane, hlane, hlanes⟩ := Option.bind_eq_some_iff.1 hlanes
  obtain ⟨lane', hlane', hcalling⟩ := Option.map_eq_some_iff.1 hlanes
  obtain ⟨hcalling, hcalling'⟩ := Prod.mk.inj hcalling
  exact ⟨s, lane, lane', _, hs, hlane, hlane', rfl, hcalling, hcalling'⟩

end Process

end Router

end Astrate.Flow
