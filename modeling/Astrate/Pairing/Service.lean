import Astrate.Broker.Authenticate

/-!
# The pairing service and inhibited devices

`Register`, `Unregister` and `Credentials` of `internal/pairing/service.go`, together with the
authentication of connections and with `SetDeviceInhibited`. A call reads the device, decides, and
writes by a later statement; calls overlap.

`devices.status` is written by several statements, and only `SetDeviceInhibited` is meant to end an
inhibition. `Unregister` and a registration of a device that never asked for credentials end it as
well, and so does a call of `Credentials` whose check came before the inhibition.
`inhibition_sticky_iff` names these statements, and says that there are no others.
-/

set_option autoImplicit false

namespace Astrate.Pairing

open Astrate.GoLib
open Astrate.Engine (FormatHint)
open Astrate.Store
open Astrate.Broker (NetConn AuthHook PoolContent Identity Denial identify checkDevice)

/-- A row of `realms`, as far as the service reads it. -/
structure Realm where
  id : Int
  deviceRegistrationLimit : Option Int
  deriving DecidableEq

/-- The errors of the service. -/
inductive PairingError where
  | invalidHWID
  | invalidPayloadFormat
  | alreadyRegistered
  | registrationLimitReached
  | unauthorized
  | inhibited
  | invalidCSR
  /-- `store.ErrNotFound`. -/
  | notFound
  /-- Anything else that the database or the CA reports. -/
  | other
  deriving DecidableEq, Repr

/-- What `SignCSR` returns. -/
structure SignedCert where
  certPEM : Bytes
  serial : Bytes
  aki : Bytes
  deriving DecidableEq

/-- The service and the hook: the realms, `bcrypt` and the configuration of the broker. -/
structure PairingPorts (χ : Type) where
  getRealmByName : Bytes → Option Realm
  compareHashAndPassword : Bytes → Bytes → Bool
  hook : AuthHook χ
  pools : PoolContent χ

/-- A call, with its arguments and the random secret it will hand out. -/
inductive Request where
  | register (realmName hwID initialFormat secret secretHash : Bytes)
  | unregister (realmName deviceID : Bytes)
  | credentials (realmName deviceID secret ip : Bytes)
  | connect (conn : NetConn) (clientID : Bytes)
  deriving DecidableEq

/-- What a call returns. -/
inductive Outcome where
  | secret (s : Bytes)
  | unregistered
  | certificate (certPEM : Bytes)
  | connected
  | failed (err : PairingError)
  | denied (reason : Denial)
  deriving DecidableEq

/-- Where a call is: its next step, with what it has found out before. -/
inductive CallPoint where
  | start
  /-- `Register`, before `RegisterDevice`. -/
  | counted (key : DeviceKey)
  /-- `Register`, before `SetPayloadFormatHint`. -/
  | stored (key : DeviceKey) (hint : FormatHint)
  /-- `Unregister`, before `UnregisterDevice`. -/
  | addressed (key : DeviceKey)
  /-- `Credentials`, behind the check of the status and before `SetDeviceCredentials`. -/
  | signed (key : DeviceKey) (cert : SignedCert)
  /-- `OnConnectAuthenticate`, before the device is read. -/
  | identified (key : DeviceKey)
  /-- `OnConnectAuthenticate`, before the session is entered in the registry. -/
  | authenticated (key : DeviceKey)
  | returned (outcome : Outcome)
  deriving DecidableEq

/-- The call has returned. -/
def CallPoint.isReturned : CallPoint → Bool
  | .returned _ => true
  | _ => false

/-- A call of the service or the broker. -/
structure Call where
  request : Request
  point : CallPoint := .start
  deriving DecidableEq

/-- What the environment contributes to a step: the answer of the CA and the time. -/
structure Answer where
  signed : Except PairingError SignedCert
  now : Time

/-- The devices, the calls, and what was handed out. -/
structure Fleet where
  devices : Devices
  calls : List Call
  issued : List (DeviceKey × Bytes) := []
  connected : List DeviceKey := []
  deriving DecidableEq

/-- A step of a call. -/
inductive FleetStep where
  /-- A call takes its next step. -/
  | run (c : Nat) (answer : Answer)
  /-- An access of a call to the database fails. -/
  | fail (c : Nat)
  | setDeviceInhibited (key : DeviceKey) (inhibited : Bool)
  | setDeviceConnected (key : DeviceKey) (instant : Time) (ip : Bytes)
  | setDeviceDisconnected (key : DeviceKey) (instant : Time)

/-- `initial_payload_format`: nothing, or one of the two formats. -/
def parseFormat (s : Bytes) : Option (Option FormatHint) :=
  if s = [] then some none
  else if s = utf8 "bson" then some (some .bson)
  else if s = utf8 "json" then some (some .json)
  else none

section

variable {χ : Type} (p : PairingPorts χ)

/-- `Register` up to the registration limit. -/
def registerCheck (t : Devices) (realmName hwID initialFormat : Bytes) : Except PairingError DeviceKey :=
  match DeviceID.parse hwID with
  | .error _ => .error .invalidHWID
  | .ok id =>
    if parseFormat initialFormat = none then .error .invalidPayloadFormat
    else
      match p.getRealmByName realmName with
      | none => .error .notFound
      | some realm =>
        match realm.deviceRegistrationLimit with
        | none => .ok (realm.id, id)
        | some limit =>
          if (countDevices t realm.id : Int) ≥ limit then .error .registrationLimitReached
          else .ok (realm.id, id)

/-- `Unregister` up to its statement. -/
def unregisterCheck (realmName deviceID : Bytes) : Except PairingError DeviceKey :=
  match DeviceID.parse deviceID with
  | .error _ => .error .notFound
  | .ok id =>
    match p.getRealmByName realmName with
    | none => .error .notFound
    | some realm => .ok (realm.id, id)

/-- `authenticateDevice`. -/
def authenticateDevice (t : Devices) (realmName deviceID secret : Bytes) :
    Except PairingError (DeviceKey × Device) :=
  match DeviceID.parse deviceID with
  | .error _ => .error .unauthorized
  | .ok id =>
    match p.getRealmByName realmName with
    | none => .error .unauthorized
    | some realm =>
      match getDevice t (realm.id, id) with
      | .error _ => .error .unauthorized
      | .ok dev =>
        if dev.credentialsSecretHash = [] then .error .unauthorized
        else if p.compareHashAndPassword dev.credentialsSecretHash secret then
          .ok ((realm.id, id), dev)
        else .error .unauthorized

/-- `Credentials` up to the signature. -/
def credentialsCheck (t : Devices) (signed : Except PairingError SignedCert)
    (realmName deviceID secret : Bytes) : Except PairingError (DeviceKey × SignedCert) := do
  let (key, dev) ← authenticateDevice p t realmName deviceID secret
  if dev.status = .inhibited then .error .inhibited
  else
    let cert ← signed
    pure (key, cert)

/-- The errors of the store, as the service passes them on. -/
def storeError : DeviceError → PairingError
  | .notFound _ => .notFound
  | .alreadyConfirmed _ => .alreadyRegistered

/-- The point after a check. -/
def afterCheck {α : Type} (next : α → CallPoint) : Except PairingError α → CallPoint
  | .error err => .returned (.failed err)
  | .ok a => next a

/-- The table and the point after a statement. -/
def afterStatement (t : Devices) (next : CallPoint) :
    Except DeviceError Devices → Devices × CallPoint
  | .error err => (t, .returned (.failed (storeError err)))
  | .ok t' => (t', next)

/-- `Register` behind its statement: the format is stored if there is one. -/
def afterRegister (initialFormat secret : Bytes) (key : DeviceKey) : CallPoint :=
  match parseFormat initialFormat with
  | some (some hint) => .stored key hint
  | _ => .returned (.secret secret)

/-- `OnConnectAuthenticate`, from one half of the check to the other. -/
def afterIdentify (conn : NetConn) (clientID : Bytes) : CallPoint :=
  match identify p.hook p.pools conn clientID with
  | .error reason => .returned (.denied reason)
  | .ok r => .identified (r.2.id, r.1.deviceID)

def afterGetDevice (conn : NetConn) (key : DeviceKey) : Except DeviceError Device → CallPoint
  | .error _ => .returned (.denied .deviceLookup)
  | .ok dev =>
    match checkDevice p.hook conn dev with
    | .error reason => .returned (.denied reason)
    | .ok () => .authenticated key

/-- The next step of a call. -/
def advance (answer : Answer) (t : Devices) : Request → CallPoint → Option (Devices × CallPoint)
  | .register realmName hwID initialFormat _ _, .start =>
    some (t, afterCheck .counted (registerCheck p t realmName hwID initialFormat))
  | .register _ _ initialFormat secret secretHash, .counted key =>
    some (afterStatement t (afterRegister initialFormat secret key) (registerDevice secretHash t key))
  | .register _ _ _ secret _, .stored key hint =>
    some (afterStatement t (.returned (.secret secret)) (setPayloadFormatHint hint t key))
  | .unregister realmName deviceID, .start =>
    some (t, afterCheck .addressed (unregisterCheck p realmName deviceID))
  | .unregister _ _, .addressed key =>
    some (afterStatement t (.returned .unregistered) (unregisterDevice t key))
  | .credentials realmName deviceID secret _, .start =>
    some (t, afterCheck (fun r => .signed r.1 r.2)
      (credentialsCheck p t answer.signed realmName deviceID secret))
  | .credentials _ _ _ ip, .signed key cert =>
    some (afterStatement t (.returned (.certificate cert.certPEM))
      (setDeviceCredentials cert.serial cert.aki ip answer.now t key))
  | .connect conn clientID, .start => some (t, afterIdentify p conn clientID)
  | .connect conn _, .identified key => some (t, afterGetDevice p conn key (getDevice t key))
  | .connect _ _, .authenticated _ => some (t, .returned .connected)
  | _, _ => none

/-- The certificate that a step of a call issues. -/
def issuedBy : CallPoint → CallPoint → List (DeviceKey × Bytes)
  | .signed key _, .returned (.certificate certPEM) => [(key, certPEM)]
  | _, _ => []

/-- The connection that a step of a call admits. -/
def connectedBy : CallPoint → CallPoint → List DeviceKey
  | .authenticated key, .returned .connected => [key]
  | _, _ => []

/-- A call goes on to another point. -/
def Fleet.move (s : Fleet) (c : Nat) (call : Call) (r : Devices × CallPoint) : Fleet where
  devices := r.1
  calls := s.calls.set c { call with point := r.2 }
  issued := s.issued ++ issuedBy call.point r.2
  connected := s.connected ++ connectedBy call.point r.2

/-- A statement outside the calls. -/
def Fleet.statement (s : Fleet) (f : Devices → DeviceKey → Except DeviceError Devices)
    (key : DeviceKey) : Option Fleet :=
  (f s.devices key).toOption.map fun t => { s with devices := t }

/-- One step, if possible. -/
def Fleet.step (s : Fleet) : FleetStep → Option Fleet
  | .run c answer =>
    match s.calls[c]? with
    | none => none
    | some call => (advance p answer s.devices call.request call.point).map (s.move c call)
  | .fail c =>
    match s.calls[c]? with
    | none => none
    | some call =>
      if call.point.isReturned then none
      else some (s.move c call (s.devices, .returned (.failed .other)))
  | .setDeviceInhibited key inhibited => s.statement (setDeviceInhibited inhibited) key
  | .setDeviceConnected key instant ip => s.statement (setDeviceConnected instant ip) key
  | .setDeviceDisconnected key instant => s.statement (setDeviceDisconnected instant) key

variable {p} {s s' : Fleet} {c : Nat}

theorem Fleet.step_run {answer : Answer} (h : s.step p (.run c answer) = some s') :
    ∃ call res, s.calls[c]? = some call ∧ advance p answer s.devices call.request call.point = some res ∧
      s.move c call res = s' := by
  rw [Fleet.step] at h
  split at h
  · cases h
  · next call hcall =>
    obtain ⟨res, hres, hmove⟩ := Option.map_eq_some_iff.1 h
    exact ⟨call, res, hcall, hres, hmove⟩

theorem Fleet.step_fail (h : s.step p (.fail c) = some s') :
    ∃ call, s.calls[c]? = some call ∧ s.move c call (s.devices, .returned (.failed .other)) = s' := by
  rw [Fleet.step] at h
  split at h
  · cases h
  · next call hcall =>
    split_ifs at h
    exact ⟨call, hcall, Option.some.inj h⟩

end

/-! ## What a step does to one device -/

/-- The status of a device. -/
def Fleet.statusOf (s : Fleet) (k : DeviceKey) : Option DeviceStatus :=
  (s.devices.lookup k).map Device.status

/-- The certificates issued to the device. -/
def Fleet.issuedTo (s : Fleet) (k : DeviceKey) : List Bytes :=
  s.issued.filterMap fun e => if e.1 = k then some e.2 else none

/-- How often a connection of the device was admitted. -/
def Fleet.connections (s : Fleet) (k : DeviceKey) : Nat := s.connected.count k

/-- The step of a call at this point leaves an inhibited device, whose row is given, as it is. -/
def CallPoint.spares (k : DeviceKey) (row : Option Device) : CallPoint → Bool
  | .counted key => key != k || row.any fun d => d.firstCredentialsRequest.isSome
  | .addressed key | .signed key _ | .authenticated key => key != k
  | _ => true

/-- The step does not unregister the device, does not register it while it has not asked for
credentials, and neither issues a certificate to it nor admits a connection of it. -/
def Fleet.spares (k : DeviceKey) (s : Fleet) : FleetStep → Bool
  | .run c _ =>
    match s.calls[c]? with
    | none => true
    | some call => call.point.spares k (s.devices.lookup k)
  | _ => true

/-- The device is inhibited, and nothing was handed out to it since the given state. -/
structure Held (k : DeviceKey) (since s : Fleet) : Prop where
  status : s.statusOf k = some .inhibited
  issued : s.issuedTo k = since.issuedTo k
  connections : s.connections k = since.connections k

/-- The step from one point to the other hands nothing out to the device. -/
def KeepsFrom (k : DeviceKey) (before after : CallPoint) : Prop :=
  (∀ e ∈ issuedBy before after, e.1 ≠ k) ∧ k ∉ connectedBy before after

section

variable {k : DeviceKey}

/-- The row of a device after an update, of this device or of another one. -/
theorem lookup_afterStatement (f : Device → Device) (t : Devices) (next : CallPoint) (key : DeviceKey) :
    (afterStatement t next (updateDevice f t key)).1.lookup k =
      if key = k then (t.lookup k).map f else t.lookup k := by
  by_cases hk : key = k
  · subst hk
    cases hd : t.lookup key with
    | none => simp [updateDevice, hd, afterStatement]
    | some d => simp [updateDevice, hd, afterStatement, lookup_mapSet]
  · cases hd : t.lookup key with
    | none => simp [updateDevice, hd, afterStatement, hk]
    | some d => simp [updateDevice, hd, afterStatement, lookup_mapSet, hk, Ne.symm hk]

theorem lookup_afterRegister {t : Devices} {d : Device} (hrow : t.lookup k = some d)
    (secretHash : Bytes) (next : CallPoint) (key : DeviceKey) :
    (afterStatement t next (registerDevice secretHash t key)).1.lookup k =
      if key = k ∧ d.firstCredentialsRequest = none then
        some { d with credentialsSecretHash := secretHash, status := .registered }
      else some d := by
  by_cases hk : key = k
  · subst hk
    by_cases hfirst : d.firstCredentialsRequest = none
    · simp [registerDevice, hrow, hfirst, afterStatement, lookup_mapSet]
    · simp [registerDevice, hrow, hfirst, afterStatement]
  · cases hd : t.lookup key with
    | none => simp [registerDevice, hd, afterStatement, lookup_mapSet, hk, Ne.symm hk, hrow]
    | some d' =>
      by_cases hfirst : d'.firstCredentialsRequest = none
      · simp [registerDevice, hd, hfirst, afterStatement, lookup_mapSet, hk, Ne.symm hk, hrow]
      · simp [registerDevice, hd, hfirst, afterStatement, hk, hrow]

theorem held_move_iff {since s : Fleet} (h : Held k since s) (c : Nat) (call : Call) (r : Devices × CallPoint) :
    Held k since (s.move c call r) ↔
      (r.1.lookup k).map Device.status = some .inhibited ∧ KeepsFrom k call.point r.2 := by
  have hissued : (s.move c call r).issuedTo k = since.issuedTo k ↔
      ∀ e ∈ issuedBy call.point r.2, e.1 ≠ k := by
    rw [← h.issued, Fleet.issuedTo, Fleet.move, List.filterMap_append, Fleet.issuedTo,
      List.append_right_eq_self, List.filterMap_eq_nil_iff]
    simp
  have hconnections : (s.move c call r).connections k = since.connections k ↔
      k ∉ connectedBy call.point r.2 := by
    rw [← h.connections, Fleet.connections, Fleet.move, List.count_append, Fleet.connections,
      Nat.add_eq_left, List.count_eq_zero]
  constructor
  · exact fun h' => ⟨h'.status, hissued.1 h'.issued, hconnections.1 h'.connections⟩
  · exact fun h' => ⟨h'.1, hissued.2 h'.2.1, hconnections.2 h'.2.2⟩

/-- Only the step of a `signed` or an `authenticated` call hands something out. -/
theorem keepsFrom_of_not {before : CallPoint} (hsigned : ∀ key cert, before ≠ .signed key cert)
    (hauthenticated : ∀ key, before ≠ .authenticated key) (after : CallPoint) : KeepsFrom k before after := by
  cases before with
  | signed key cert => exact absurd rfl (hsigned key cert)
  | authenticated key => exact absurd rfl (hauthenticated key)
  | _ => simp [KeepsFrom, issuedBy, connectedBy]

variable {χ : Type} {p : PairingPorts χ}

/-- The step of a call leaves an inhibited device as it is exactly when its point says so. -/
theorem advance_spares_iff {answer : Answer} {t : Devices} {d : Device} {req : Request}
    {point : CallPoint} {r : Devices × CallPoint} (hrow : t.lookup k = some d)
    (hstatus : d.status = .inhibited) (h : advance p answer t req point = some r) :
    (r.1.lookup k).map Device.status = some .inhibited ∧ KeepsFrom k point r.2 ↔
      point.spares k (t.lookup k) = true := by
  -- a step that reads only
  have hreads : ∀ point', KeepsFrom k point point' → point.spares k (t.lookup k) = true →
      ((t.lookup k).map Device.status = some .inhibited ∧ KeepsFrom k point point' ↔
        point.spares k (t.lookup k) = true) := fun point' hkeeps hspares =>
    iff_of_true ⟨by rw [hrow, Option.map_some, hstatus], hkeeps⟩ hspares
  cases point with
  | start =>
    have hkeeps : ∀ point', KeepsFrom k .start point' := keepsFrom_of_not (by simp) (by simp)
    cases req <;> cases h <;> exact hreads _ (hkeeps _) rfl
  | counted key =>
    cases req with
    | register realmName hwID initialFormat secret secretHash =>
      cases h
      rw [lookup_afterRegister hrow, and_iff_left (keepsFrom_of_not (by simp) (by simp) _),
        CallPoint.spares, hrow]
      by_cases hk : key = k
      · cases hfirst : d.firstCredentialsRequest <;> simp [hk, hfirst, hstatus]
      · simp [hk, hstatus]
    | _ => cases h
  | stored key hint =>
    cases req with
    | register realmName hwID initialFormat secret secretHash =>
      cases h
      rw [setPayloadFormatHint, lookup_afterStatement, and_iff_left (keepsFrom_of_not (by simp) (by simp) _)]
      by_cases hk : key = k <;> simp [CallPoint.spares, hk, hrow, hstatus]
    | _ => cases h
  | addressed key =>
    cases req with
    | unregister realmName deviceID =>
      cases h
      rw [unregisterDevice, lookup_afterStatement, and_iff_left (keepsFrom_of_not (by simp) (by simp) _)]
      by_cases hk : key = k <;> simp [CallPoint.spares, hk, hrow, hstatus]
    | _ => cases h
  | signed key cert =>
    cases req with
    | credentials realmName deviceID secret ip =>
      cases h
      rw [setDeviceCredentials, lookup_afterStatement]
      by_cases hk : key = k
      · simp [CallPoint.spares, hk, hrow]
      · -- the certificate of another device, if it is issued
        refine iff_of_true ⟨by simp [hk, hrow, hstatus], ?_, by simp [connectedBy]⟩
          (by simp [CallPoint.spares, hk])
        intro e he
        rw [issuedBy.eq_def] at he
        split at he <;> simp_all
    | _ => cases h
  | identified key =>
    cases req with
    | connect conn clientID =>
      cases h
      exact hreads _ (keepsFrom_of_not (by simp) (by simp) _) rfl
    | _ => cases h
  | authenticated key =>
    cases req with
    | connect conn clientID =>
      cases h
      simp [hrow, hstatus, KeepsFrom, issuedBy, connectedBy, CallPoint.spares, eq_comm (a := k)]
    | _ => cases h
  | returned outcome => cases req <;> cases h

/-- A statement outside the calls changes one row. -/
theorem statement_eq_some {s s' : Fleet} {f : Device → Device} {key : DeviceKey}
    (h : s.statement (updateDevice f) key = some s') :
    ∃ d t, s.devices.lookup key = some d ∧ s' = { s with devices := t } ∧
      ∀ k, t.lookup k = if k == key then some (f d) else s.devices.lookup k := by
  obtain ⟨t, ht, rfl⟩ := Option.map_eq_some_iff.1 h
  obtain ⟨d, hd, hlookup⟩ := lookup_updateDevice (toOption_eq_some_iff.1 ht)
  exact ⟨d, t, hd, rfl, hlookup⟩

/-- One that leaves the status of the device alone. -/
theorem Held.statement {since s s' : Fleet} (h : Held k since s) {f : Device → Device} {key : DeviceKey}
    (hstep : s.statement (updateDevice f) key = some s')
    (hf : ∀ d : Device, d.status = .inhibited → key = k → (f d).status = .inhibited) : Held k since s' := by
  obtain ⟨d, t, hd, rfl, hlookup⟩ := statement_eq_some hstep
  have hstatus := h.status
  rw [Fleet.statusOf] at hstatus
  refine ⟨?_, h.issued, h.connections⟩
  rw [Fleet.statusOf, hlookup]
  by_cases hk : key = k
  · subst hk
    rw [hd, Option.map_some, Option.some.injEq] at hstatus
    simp [hf d hstatus rfl]
  · rw [if_neg (by simpa using Ne.symm hk), hstatus]

/-- A step other than the end of the inhibition keeps to it exactly when it spares the device. -/
theorem held_step_iff {since s s' : Fleet} {a : FleetStep} (ha : a ≠ .setDeviceInhibited k false)
    (h : Held k since s) (hstep : s.step p a = some s') : Held k since s' ↔ s.spares k a = true := by
  obtain ⟨d, hrow, hstatus⟩ := Option.map_eq_some_iff.1 h.status
  cases a with
  | run c answer =>
    obtain ⟨call, r, hcall, hr, rfl⟩ := Fleet.step_run hstep
    rw [held_move_iff h, advance_spares_iff hrow hstatus hr]
    simp only [Fleet.spares, hcall]
  | fail c =>
    obtain ⟨call, -, rfl⟩ := Fleet.step_fail hstep
    refine iff_of_true ((held_move_iff h ..).2 ⟨h.status, ?_, ?_⟩) rfl
    · cases call.point <;> simp [issuedBy]
    · cases call.point <;> simp [connectedBy]
  | setDeviceInhibited key inhibited =>
    refine iff_of_true (h.statement hstep fun d _ hk => ?_) rfl
    cases inhibited with
    | true => rfl
    | false => exact absurd (hk ▸ rfl) ha
  | setDeviceConnected key instant ip =>
    exact iff_of_true (h.statement hstep fun d hd _ => hd) rfl
  | setDeviceDisconnected key instant =>
    exact iff_of_true (h.statement hstep fun d hd _ => hd) rfl

/-- After `SetDeviceInhibited(true)` and until `SetDeviceInhibited(false)`, the device stays inhibited,
gets no certificate and no connection exactly when every step spares it. -/
theorem inhibition_sticky_iff {s₀ s s' : Fleet} (hinhibit : s₀.step p (.setDeviceInhibited k true) = some s)
    {schedule : List FleetStep} (huntil : ∀ a ∈ schedule, a ≠ .setDeviceInhibited k false)
    (hrun : exec (Fleet.step p) s schedule = some s') :
    Always (Fleet.step p) (Held k s) s schedule ↔
      Throughout (Fleet.step p) (fun s₁ a => s₁.spares k a = true) s schedule := by
  have hheld : Held k s s := by
    refine ⟨?_, rfl, rfl⟩
    obtain ⟨d, t, -, rfl, hlookup⟩ := statement_eq_some hinhibit
    simp [Fleet.statusOf, hlookup]
  exact always_iff_throughout (I := fun _ => True) (fun _ _ _ _ _ _ => trivial)
    (fun s₁ a ha s₂ _ h hstep => held_step_iff (huntil a ha) h hstep) trivial hheld hrun

end

/-! ## Runs -/

/-- The call that registers the device whose octets are all `b`, with this secret. -/
def registerAll (b : UInt8) (secret : Bytes) : Call :=
  ⟨.register (utf8 "acme") (DeviceID.string (Vector.replicate 16 b)) [] secret secret, .start⟩

/-- A service with one realm, where a secret is its own hash. -/
def acmePorts : PairingPorts Unit where
  getRealmByName := fun name => if name == utf8 "acme" then some ⟨1, none⟩ else none
  compareHashAndPassword := fun hash secret => hash == secret
  hook := ⟨fun _ _ _ => true, false, []⟩
  pools := ⟨[(utf8 "acme", ⟨1, utf8 "acme", ()⟩)], []⟩

/-- A confirmed device that is inhibited asks for credentials and connects, and is refused both times. -/
theorem inhibition_sticky_refused :
    let id : DeviceID := Vector.replicate 16 7
    let device : Device :=
      { credentialsSecretHash := utf8 "s", status := .confirmed, firstCredentialsRequest := some ⟨0⟩ }
    let leaf : Broker.Certificate := ⟨utf8 "acme/" ++ id.string, 1, [], []⟩
    let calls : List Call :=
      [⟨.credentials (utf8 "acme") id.string (utf8 "s") [], .start⟩,
        ⟨.connect ⟨some [leaf], []⟩ (utf8 "paho"), .start⟩]
    let s : Fleet := ⟨[((1, id), { device with status := .inhibited })], calls, [], []⟩
    let answer : Answer := ⟨.ok ⟨utf8 "cert", utf8 "1", []⟩, ⟨0⟩⟩
    let schedule : List FleetStep := [.run 0 answer, .run 1 answer, .run 1 answer]
    (⟨[((1, id), device)], calls, [], []⟩ : Fleet).step acmePorts (.setDeviceInhibited (1, id) true) =
        some s ∧
      Always (Fleet.step acmePorts) (Held (1, id) s) s schedule := by
  intro id device leaf calls s answer schedule
  have hinhibit : (⟨[((1, id), device)], calls, [], []⟩ : Fleet).step acmePorts
      (.setDeviceInhibited (1, id) true) = some s := by decide +kernel
  have hrun : (exec (Fleet.step acmePorts) s schedule).isSome = true := by decide +kernel
  obtain ⟨s', hs'⟩ := Option.isSome_iff_exists.1 hrun
  refine ⟨hinhibit, (inhibition_sticky_iff hinhibit ?_ hs').2 (by decide +kernel)⟩
  intro a ha
  simp only [schedule, List.mem_cons, List.not_mem_nil, or_false] at ha
  rcases ha with rfl | rfl | rfl <;> exact nofun

/-- An inhibited device is unregistered and registered again, and gets a certificate. -/
theorem unregister_lifts_inhibition :
    let id : DeviceID := Vector.replicate 16 7
    let device : Device :=
      { credentialsSecretHash := utf8 "s", status := .confirmed, firstCredentialsRequest := some ⟨0⟩ }
    let calls : List Call :=
      [⟨.unregister (utf8 "acme") id.string, .start⟩,
        ⟨.register (utf8 "acme") id.string [] (utf8 "t") (utf8 "t"), .start⟩,
        ⟨.credentials (utf8 "acme") id.string (utf8 "t") [], .start⟩]
    let answer : Answer := ⟨.ok ⟨utf8 "cert", utf8 "1", []⟩, ⟨0⟩⟩
    let schedule : List FleetStep :=
      [.setDeviceInhibited (1, id) true, .run 0 answer, .run 0 answer, .run 1 answer, .run 1 answer,
        .run 2 answer, .run 2 answer]
    ((exec (Fleet.step acmePorts) ⟨[((1, id), device)], calls, [], []⟩ (schedule.take 1)).map
        fun s => (s.statusOf (1, id), s.issuedTo (1, id))) = some (some .inhibited, []) ∧
      ((exec (Fleet.step acmePorts) ⟨[((1, id), device)], calls, [], []⟩ schedule).map
        fun s => (s.statusOf (1, id), s.issuedTo (1, id))) = some (some .confirmed, [utf8 "cert"]) := by
  decide +kernel

/-- A device is inhibited between the check and the statement of its call of `Credentials`. -/
example :
    let id : DeviceID := Vector.replicate 16 7
    let device : Device :=
      { credentialsSecretHash := utf8 "s", status := .confirmed, firstCredentialsRequest := some ⟨0⟩ }
    let calls : List Call := [⟨.credentials (utf8 "acme") id.string (utf8 "s") [], .start⟩]
    let answer : Answer := ⟨.ok ⟨utf8 "cert", utf8 "1", []⟩, ⟨0⟩⟩
    ((exec (Fleet.step acmePorts) ⟨[((1, id), device)], calls, [], []⟩
        [.run 0 answer, .setDeviceInhibited (1, id) true, .run 0 answer]).map
      fun s => (s.statusOf (1, id), s.issuedTo (1, id))) = some (some .confirmed, [utf8 "cert"]) := by
  decide +kernel

end Astrate.Pairing
