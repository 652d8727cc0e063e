import Astrate.GoLib.Schedule

/-!
# The connected flag

The lifecycle hooks of one device (`internal/broker/lifecycle.go`) with the session registry
(`internal/broker/authhook.go`) and the flag `devices.connected`. Connections come one after the other
and may overlap; the registry and the flag are changed by separate steps of different goroutines.

A connection that is admitted enters the registry in the place of an older one. The flag is written
later: when the session is established and, unless another connection has taken over, after the entry
was removed. A write that comes when the registry has moved on leaves the wrong flag behind
(`connected_iff_registered` asks that none does).
-/

set_option autoImplicit false

namespace Astrate.Broker

open Astrate.GoLib

/-- Where the hooks of a connection are. -/
inductive HookPoint where
  /-- Not authenticated yet. -/
  | idle
  /-- In the registry, before `OnSessionEstablished`. -/
  | admitted
  /-- In `OnSessionEstablished`, with its own session in hand. -/
  | checked
  /-- Behind `OnSessionEstablished`. -/
  | established
  /-- In `OnDisconnect`, out of the registry. -/
  | removed
  /-- Behind `OnDisconnect`. -/
  | gone
  deriving DecidableEq, Repr

/-- A connection of the device. -/
structure Connection where
  point : HookPoint := .idle
  takenOver : Bool := false
  deriving DecidableEq, Repr

/-- The device as the broker and the database see it. -/
structure DeviceSessions where
  registry : Option Nat
  connected : Bool
  connections : List Connection
  deriving DecidableEq

/-- Connections to come, on a device that is not connected. -/
def DeviceSessions.init (n : Nat) : DeviceSessions := ⟨none, false, List.replicate n {}⟩

/-- A step of a hook. -/
inductive HookStep where
  /-- `admit`, that is `sessionRegistry.put`. -/
  | admitDevice (c : Nat)
  /-- The check of `OnSessionEstablished`. -/
  | check (c : Nat)
  | setDeviceConnected (c : Nat)
  /-- Another connection inherits the session. -/
  | takeOver (c : Nat)
  /-- The start of `OnDisconnect`, with `sessionRegistry.removeIfOwner`. -/
  | disconnect (c : Nat)
  | setDeviceDisconnected (c : Nat)
  deriving DecidableEq, Repr

def HookStep.connection : HookStep → Nat
  | .admitDevice c | .check c | .setDeviceConnected c | .takeOver c | .disconnect c
  | .setDeviceDisconnected c => c

namespace DeviceSessions

/-- The connection goes on to another point. -/
def move (s : DeviceSessions) (c : Nat) (conn : Connection) (point : HookPoint) : DeviceSessions :=
  { s with connections := s.connections.set c { conn with point := point } }

/-- The effect of a step on a connection in this state. -/
def hook (s : DeviceSessions) (conn : Connection) : HookStep → Option DeviceSessions
  | .admitDevice c =>
    if conn.point = .idle then some { s.move c conn .admitted with registry := some c } else none
  | .check c =>
    if conn.point = .admitted then
      some (s.move c conn (if s.registry = some c then .checked else .established))
    else none
  | .setDeviceConnected c =>
    if conn.point = .checked then some { s.move c conn .established with connected := true }
    else none
  | .takeOver c => some { s with connections := s.connections.set c { conn with takenOver := true } }
  | .disconnect c =>
    if conn.point = .established then
      if conn.takenOver then some (s.move c conn .gone)
      else if s.registry = some c then some { s.move c conn .removed with registry := none }
      else some (s.move c conn .gone)
    else none
  | .setDeviceDisconnected c =>
    if conn.point = .removed then some { s.move c conn .gone with connected := false } else none

/-- One step of a connection. -/
def step (s : DeviceSessions) (a : HookStep) : Option DeviceSessions :=
  match s.connections[a.connection]? with
  | none => none
  | some conn => s.hook conn a

/-- The flag is written while the registry says the same. -/
def writesInPlace (s : DeviceSessions) : HookStep → Bool
  | .setDeviceConnected _ => s.registry.isSome
  | .setDeviceDisconnected _ => s.registry.isNone
  | _ => true

/-- No hook has started that has not finished. -/
def Quiet (s : DeviceSessions) : Prop :=
  ∀ conn ∈ s.connections, conn.point ≠ .admitted ∧ conn.point ≠ .checked ∧ conn.point ≠ .removed

/-- The connection is at this point. -/
def At (s : DeviceSessions) (c : Nat) (point : HookPoint) : Prop :=
  ∃ conn, s.connections[c]? = some conn ∧ conn.point = point

/-- Wherever flag and registry disagree, a write is still to come. -/
structure Pending (s : DeviceSessions) : Prop where
  owner : ∀ c, s.registry = some c → s.connected = true ∨ s.At c .admitted ∨ s.At c .checked
  absent : s.registry = none → s.connected = false ∨ ∃ c, s.At c .removed

/-! ## What a step leaves alone -/

theorem at_set_self {s : DeviceSessions} {c : Nat} {conn new : Connection} (h : s.connections[c]? = some conn) :
    (⟨s.registry, s.connected, s.connections.set c new⟩ : DeviceSessions).At c new.point :=
  ⟨new, List.getElem?_set_self (List.getElem?_eq_some_iff.1 h).1, rfl⟩

theorem at_set_of_ne {s : DeviceSessions} {c c' : Nat} {new : Connection} {point : HookPoint}
    (hne : c ≠ c') (h : s.At c' point) (registry : Option Nat) (connected : Bool) :
    (⟨registry, connected, s.connections.set c new⟩ : DeviceSessions).At c' point := by
  obtain ⟨conn, hconn, hpoint⟩ := h
  refine ⟨conn, ?_, hpoint⟩
  rw [← hconn]
  exact List.getElem?_set_ne hne

/-- A connection is at one point. -/
theorem At.unique {s : DeviceSessions} {c : Nat} {conn : Connection} {point : HookPoint}
    (h : s.At c point) (hconn : s.connections[c]? = some conn) : conn.point = point := by
  obtain ⟨conn', hconn', hpoint⟩ := h
  rw [hconn, Option.some.injEq] at hconn'
  rw [hconn', hpoint]

section Step

variable {s : DeviceSessions} {c : Nat} {conn new : Connection}
  (hconn : s.connections[c]? = some conn)

include hconn

/-- Registry and flag stand; a write that was to come is still to come. -/
theorem Pending.keep (h : s.Pending)
    (howner : s.registry = some c → conn.point = .admitted ∨ conn.point = .checked →
      new.point = .admitted ∨ new.point = .checked)
    (hremoved : conn.point = .removed → new.point = .removed) :
    Pending ⟨s.registry, s.connected, s.connections.set c new⟩ where
  owner := fun c' hc' => by
    rcases h.owner c' hc' with hconnected | hat
    · exact .inl hconnected
    · right
      by_cases heq : c = c'
      · subst heq
        rcases howner hc' (hat.imp (fun h => h.unique hconn) fun h => h.unique hconn) with hnew | hnew
        · exact .inl (hnew ▸ at_set_self hconn)
        · exact .inr (hnew ▸ at_set_self hconn)
      · exact hat.imp (fun h => at_set_of_ne heq h _ _) fun h => at_set_of_ne heq h _ _
  absent := fun hnone => by
    rcases h.absent hnone with hconnected | ⟨c', hat⟩
    · exact .inl hconnected
    · right
      by_cases heq : c = c'
      · subst heq
        exact ⟨c, hremoved (hat.unique hconn) ▸ at_set_self hconn⟩
      · exact ⟨c', at_set_of_ne heq hat _ _⟩

theorem Pending.hook (h : s.Pending) {a : HookStep} (ha : a.connection = c)
    (hok : s.writesInPlace a = true) {s' : DeviceSessions} (hstep : s.hook conn a = some s') : s'.Pending := by
  subst ha
  cases a with
  | admitDevice c =>
    rw [DeviceSessions.hook] at hstep
    split_ifs at hstep with hpoint
    cases hstep
    refine ⟨fun c' hc' => ?_, fun hnone => (nomatch hnone)⟩
    obtain rfl : c = c' := Option.some.inj hc'
    exact .inr (.inl (@at_set_self s c conn { conn with point := .admitted } hconn))
  | check c =>
    rw [DeviceSessions.hook] at hstep
    split_ifs at hstep with hpoint howner
    · cases hstep
      exact h.keep hconn (fun _ _ => .inr rfl) (fun hold => by rw [hpoint] at hold; cases hold)
    · cases hstep
      exact h.keep hconn (fun hc => absurd hc howner)
        (fun hold => by rw [hpoint] at hold; cases hold)
  | setDeviceConnected c =>
    rw [DeviceSessions.hook] at hstep
    split_ifs at hstep with hpoint
    cases hstep
    refine ⟨fun c' _ => .inl rfl, fun hnone => ?_⟩
    -- The write comes while there is a session.
    rw [writesInPlace, show s.registry = none from hnone] at hok
    cases hok
  | takeOver c =>
    cases hstep
    exact h.keep hconn (fun _ hold => hold) (fun hold => hold)
  | disconnect c =>
    rw [DeviceSessions.hook] at hstep
    split_ifs at hstep with hpoint htaken howner
    · cases hstep
      exact h.keep hconn (fun _ hold => by rw [hpoint] at hold; simp at hold)
        (fun hold => by rw [hpoint] at hold; cases hold)
    · cases hstep
      refine ⟨fun c' hc' => (nomatch hc'), fun _ => .inr ⟨c, ?_⟩⟩
      exact @at_set_self s c conn { conn with point := .removed } hconn
    · cases hstep
      exact h.keep hconn (fun hc => absurd hc howner)
        (fun hold => by rw [hpoint] at hold; cases hold)
  | setDeviceDisconnected c =>
    rw [DeviceSessions.hook] at hstep
    split_ifs at hstep with hpoint
    cases hstep
    refine ⟨fun c' hc' => ?_, fun _ => .inl rfl⟩
    -- The write comes while there is no session.
    rw [writesInPlace, show s.registry = some c' from hc'] at hok
    cases hok

end Step

theorem Pending.step {s s' : DeviceSessions} {a : HookStep} (h : s.Pending)
    (hok : s.writesInPlace a = true) (hstep : s.step a = some s') : s'.Pending := by
  unfold DeviceSessions.step at hstep
  cases hconn : s.connections[a.connection]? with
  | none =>
    rw [hconn] at hstep
    cases hstep
  | some conn =>
    rw [hconn] at hstep
    exact h.hook hconn rfl hok hstep

theorem pending_init (n : Nat) : (DeviceSessions.init n).Pending :=
  ⟨fun _ hc => (nomatch hc), fun _ => .inl rfl⟩

/-- Without hooks on their way, flag and registry agree. -/
theorem Pending.agree {s : DeviceSessions} (h : s.Pending) (hquiet : s.Quiet) :
    s.connected = true ↔ s.registry.isSome = true := by
  have hpoint : ∀ c point, s.At c point → point ≠ .admitted ∧ point ≠ .checked ∧ point ≠ .removed := by
    rintro c point ⟨conn, hconn, rfl⟩
    exact hquiet conn (List.mem_of_getElem? hconn)
  cases hregistry : s.registry with
  | none =>
    rcases h.absent hregistry with hconnected | ⟨c, hat⟩
    · simp [hconnected]
    · exact absurd rfl (hpoint c _ hat).2.2
  | some c =>
    rcases h.owner c hregistry with hconnected | hat | hat
    · simp [hconnected]
    · exact absurd rfl (hpoint c _ hat).1
    · exact absurd rfl (hpoint c _ hat).2.1

end DeviceSessions

open DeviceSessions

/-- After every interleaving of the hooks in which each write of the flag lands while the registry says
the same, and once all hooks have finished, the device is connected just when it has a session. -/
theorem connected_iff_registered {n : Nat} {schedule : List HookStep} {s : DeviceSessions}
    (hrun : exec DeviceSessions.step (DeviceSessions.init n) schedule = some s)
    (hplace : Throughout DeviceSessions.step (fun s a => s.writesInPlace a = true)
      (DeviceSessions.init n) schedule) (hquiet : s.Quiet) :
    s.connected = true ↔ s.registry.isSome = true :=
  (exec_invariant (fun _ _ _ h hok hstep => Pending.step h hok hstep) (pending_init n) hplace hrun).agree hquiet

/-- A connection is taken over by a second one, which stays. -/
theorem connected_after_takeover :
    ∃ s, exec DeviceSessions.step (DeviceSessions.init 2)
        [.admitDevice 0, .check 0, .setDeviceConnected 0, .admitDevice 1, .takeOver 0, .check 1, .disconnect 0,
          .setDeviceConnected 1] = some s ∧ s.Quiet ∧ (s.connected = true ↔ s.registry.isSome = true) := by
  obtain ⟨s, hrun, hs⟩ : ∃ s, exec DeviceSessions.step (DeviceSessions.init 2)
      [.admitDevice 0, .check 0, .setDeviceConnected 0, .admitDevice 1, .takeOver 0, .check 1, .disconnect 0,
        .setDeviceConnected 1] = some s ∧ s = ⟨some 1, true, [⟨.gone, true⟩, ⟨.established, false⟩]⟩ :=
    ⟨_, rfl, rfl⟩
  have hquiet : s.Quiet := by
    rw [hs]
    unfold Quiet
    decide
  exact ⟨s, hrun, hquiet, connected_iff_registered hrun (by decide +kernel) hquiet⟩

/-- The device reconnects while the end of its first connection is being recorded: the late write says
that it is not connected. -/
theorem late_disconnect_wins :
    ∃ s, exec DeviceSessions.step (DeviceSessions.init 2)
        [.admitDevice 0, .check 0, .setDeviceConnected 0, .disconnect 0, .admitDevice 1, .check 1,
          .setDeviceConnected 1, .setDeviceDisconnected 0] = some s ∧ s.Quiet ∧
      s.registry = some 1 ∧ s.connected = false := by
  refine ⟨⟨some 1, false, [⟨.gone, false⟩, ⟨.established, false⟩]⟩, rfl, ?_, rfl, rfl⟩
  unfold Quiet
  decide

end Astrate.Broker
