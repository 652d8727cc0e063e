import Astrate.Pairing.Service

/-!
# Verification of credentials

`VerifyCredentials` answers for a device whether a certificate is valid, and the broker decides by itself when
the certificate is presented. Both verify the chain, but the service does not look at the name in the
certificate, and under `enforce_latest_cert` it compares a serial number only if one is recorded. So it calls
certificates of other devices valid, and any certificate of a device that was registered anew
(`verifyCredentials_disagrees`).

The broker agrees exactly for a certificate that names the device, with a record of the authority that signed it
where the latest certificate is enforced (`verifyCredentials_admits`): by `recorded_exec` a row records a serial
number whenever it records an authority.
-/

set_option autoImplicit false

namespace Astrate.Pairing

open Astrate.GoLib
open Astrate.Store
open Astrate.Broker (Certificate NetConn Identity Denial identify checkDevice parseCN isLatestCert)

/-- A certificate with its validity. -/
structure ClientCertificate where
  cert : Certificate
  notBefore : Time
  notAfter : Time

/-- The service with the parsers of certificates. The verification of `crypto/x509` is that of the broker, at
one instant; `isExpired` says whether the reason of its error is `Expired`. -/
structure VerifyPorts (χ : Type) extends PairingPorts χ where
  parseCertificatePEM : Bytes → Option ClientCertificate
  loadCA : Realm → Option χ
  isExpired : Certificate → χ → Bool

/-- `CauseExpired`, `CauseInvalid` and `CauseRevoked`. -/
inductive Cause where
  | expired
  | invalid
  | revoked
  deriving DecidableEq, Repr

section

variable {χ : Type} (v : VerifyPorts χ)

/-- `CA.Verify`. -/
def caVerify (ca : χ) (certPEM : Bytes) (now : Time) : Except Cause Time :=
  match v.parseCertificatePEM certPEM with
  | none => .error .invalid
  | some c =>
    if c.notAfter.nanos < now.nanos ∨ now.nanos < c.notBefore.nanos then .error .expired
    else if v.hook.verify c.cert [] ca then .ok c.notAfter
    else if v.isExpired c.cert ca then .error .expired
    else .error .invalid

/-- The comparison with the recorded serial number, if there is one. -/
def checkLatest (dev : Device) (clientCrtPEM : Bytes) : Except Cause Unit :=
  match v.hook.enforceLatestCert, dev.certSerial with
  | true, some serial =>
    match v.parseCertificatePEM clientCrtPEM with
    | none => .error .invalid
    | some c => if formatInt c.cert.serialNumber != serial then .error .revoked else .ok ()
  | _, _ => .ok ()

/-- `VerifyCredentials`: the end of the validity, or the cause. -/
def verifyCredentials (t : Devices) (realmName deviceID secret clientCrtPEM : Bytes) (now : Time) :
    Except PairingError (Except Cause Time) := do
  let (_, dev) ← authenticateDevice v.toPairingPorts t realmName deviceID secret
  if dev.status = .inhibited then .error .inhibited
  else
    match (v.getRealmByName realmName).bind v.loadCA with
    | none => .error .other
    | some ca =>
      .ok (do
        let until' ← caVerify v ca clientCrtPEM now
        checkLatest v dev clientCrtPEM
        .ok until')

/-- `OnConnectAuthenticate`: the identity and the row of the device that is admitted. -/
def onConnectAuthenticate (t : Devices) (conn : NetConn) (clientID : Bytes) :
    Except Denial (Identity × DeviceKey) := do
  let (identity, rc) ← identify v.hook v.pools conn clientID
  match getDevice t (rc.id, identity.deviceID) with
  | .error _ => .error .deviceLookup
  | .ok dev => do
      checkDevice v.hook conn dev
      .ok (identity, (rc.id, identity.deviceID))

/-- The broker trusts the CA that the service loads, for every realm. -/
def VerifyPorts.Current : Prop :=
  ∀ name realm, v.getRealmByName name = some realm →
    ∃ rc, v.pools.byName.lookup name = some rc ∧ rc.id = realm.id ∧ v.loadCA realm = some rc.cert

end

/-! ## What the rows record -/

/-- A row records a serial number and an authority, or neither of them. -/
def Recorded (t : Devices) : Prop :=
  ∀ k d, t.lookup k = some d → d.certSerial.isSome = d.certAKI.isSome

variable {t : Devices} {key : DeviceKey}

theorem recorded_updateDevice {f : Device → Device} {t' : Devices} (h : Recorded t)
    (hupdate : updateDevice f t key = .ok t')
    (hf : ∀ d, d.certSerial.isSome = d.certAKI.isSome → (f d).certSerial.isSome = (f d).certAKI.isSome) :
    Recorded t' := by
  intro k d hd
  obtain ⟨d₀, hd₀, hlookup⟩ := lookup_updateDevice hupdate
  rw [hlookup] at hd
  split_ifs at hd
  · cases hd
    exact hf d₀ (h key d₀ hd₀)
  · exact h k d hd

theorem recorded_registerDevice {secretHash : Bytes} {t' : Devices} (h : Recorded t)
    (hregister : registerDevice secretHash t key = .ok t') : Recorded t' := by
  rw [registerDevice] at hregister
  split at hregister
  · cases hregister
    intro k d hd
    rw [lookup_mapSet] at hd
    split_ifs at hd
    · cases hd
      rfl
    · exact h k d hd
  · next d₀ hd₀ =>
    split_ifs at hregister
    cases hregister
    intro k d hd
    rw [lookup_mapSet] at hd
    split_ifs at hd
    · cases hd
      exact h key d₀ hd₀
    · exact h k d hd

section

variable {χ : Type} {p : PairingPorts χ}

theorem recorded_afterStatement (h : Recorded t) {next : CallPoint}
    {res : Except DeviceError Devices} (hres : ∀ t', res = .ok t' → Recorded t') :
    Recorded (afterStatement t next res).1 := by
  cases res with
  | error e => exact h
  | ok t' => exact hres t' rfl

theorem recorded_advance {answer : Answer} {req : Request} {point : CallPoint}
    {res : Devices × CallPoint} (h : Recorded t) (hstep : advance p answer t req point = some res) :
    Recorded res.1 := by
  -- the statements are those of `Register`, `Unregister` and `Credentials`; the other steps read
  unfold advance at hstep
  split at hstep <;> cases hstep
  case h_2 => exact recorded_afterStatement h fun _ ht => recorded_registerDevice h ht
  case h_3 => exact recorded_afterStatement h fun _ ht => recorded_updateDevice h ht fun _ hd => hd
  case h_5 => exact recorded_afterStatement h fun _ ht => recorded_updateDevice h ht fun _ _ => rfl
  case h_7 => exact recorded_afterStatement h fun _ ht => recorded_updateDevice h ht fun _ _ => rfl
  all_goals exact h

theorem recorded_statement {s s' : Fleet} {f : Device → Device} (h : Recorded s.devices)
    (hstep : s.statement (updateDevice f) key = some s')
    (hf : ∀ d, d.certSerial.isSome = d.certAKI.isSome → (f d).certSerial.isSome = (f d).certAKI.isSome) :
    Recorded s'.devices := by
  obtain ⟨t, ht, rfl⟩ := Option.map_eq_some_iff.1 hstep
  exact recorded_updateDevice h (toOption_eq_some_iff.1 ht) hf

theorem recorded_step {s s' : Fleet} {a : FleetStep} (h : Recorded s.devices)
    (hstep : s.step p a = some s') : Recorded s'.devices := by
  cases a with
  | run c answer =>
    obtain ⟨call, res, -, hres, rfl⟩ := Fleet.step_run hstep
    exact recorded_advance h hres
  | fail c =>
    obtain ⟨call, -, rfl⟩ := Fleet.step_fail hstep
    exact h
  | setDeviceInhibited key inhibited => exact recorded_statement h hstep fun _ hd => hd
  | setDeviceConnected key instant ip => exact recorded_statement h hstep fun _ hd => hd
  | setDeviceDisconnected key instant => exact recorded_statement h hstep fun _ hd => hd

theorem recorded_exec {s s' : Fleet} {schedule : List FleetStep} (h : Recorded s.devices)
    (hrun : exec (Fleet.step p) s schedule = some s') : Recorded s'.devices :=
  exec_preserves (I := fun s => Recorded s.devices) (fun _ _ _ hs hstep => recorded_step hs hstep) h hrun

end

/-! ## Agreement -/

section

variable {χ : Type} {v : VerifyPorts χ}

theorem authenticateDevice_eq_ok {realmName deviceID secret : Bytes}
    {dev : Device} (h : authenticateDevice v.toPairingPorts t realmName deviceID secret = .ok (key, dev)) :
    ∃ realm, v.getRealmByName realmName = some realm ∧ key.1 = realm.id ∧
      DeviceID.parse deviceID = .ok key.2 ∧ t.lookup key = some dev := by
  rw [authenticateDevice] at h
  split at h
  · cases h
  · next id hid =>
    split at h
    · cases h
    · next realm hrealm =>
      cases hd : t.lookup (realm.id, id) with
      | none => simp [getDevice, hd] at h
      | some d =>
        simp only [getDevice, hd] at h
        split_ifs at h
        cases h
        exact ⟨realm, hrealm, rfl, hid, hd⟩

/-- What a valid answer rests on. -/
theorem verifyCredentials_eq_ok {realmName deviceID secret clientCrtPEM : Bytes} {now until' : Time}
    (h : verifyCredentials v t realmName deviceID secret clientCrtPEM now = .ok (.ok until')) :
    ∃ realm id dev ca, v.getRealmByName realmName = some realm ∧ DeviceID.parse deviceID = .ok id ∧
      t.lookup (realm.id, id) = some dev ∧ dev.status ≠ .inhibited ∧ v.loadCA realm = some ca ∧
      caVerify v ca clientCrtPEM now = .ok until' ∧ checkLatest v dev clientCrtPEM = .ok () := by
  obtain ⟨⟨key, dev⟩, hauth, h⟩ := bind_eq_ok_iff.1 h
  obtain ⟨realm, hrealm, hkey, hid, hd⟩ := authenticateDevice_eq_ok hauth
  obtain ⟨_, id⟩ := key
  cases hkey
  dsimp only at h
  split_ifs at h with hstatus
  rw [hrealm, Option.bind_some] at h
  cases hca : v.loadCA realm with
  | none =>
    rw [hca] at h
    cases h
  | some ca =>
    rw [hca] at h
    obtain ⟨u, hverify, h⟩ := bind_eq_ok_iff.1 (Except.ok.inj h)
    obtain ⟨⟨⟩, hlatest, h⟩ := bind_eq_ok_iff.1 h
    cases h
    exact ⟨realm, id, dev, ca, hrealm, hid, hd, hstatus, hca, hverify, hlatest⟩

theorem verify_of_caVerify {ca : χ} {certPEM : Bytes} {now until' : Time} {c : ClientCertificate}
    (hparse : v.parseCertificatePEM certPEM = some c) (h : caVerify v ca certPEM now = .ok until') :
    v.hook.verify c.cert [] ca = true := by
  rw [caVerify, hparse] at h
  dsimp only at h
  split_ifs at h with _ hverify
  exact hverify

/-- A serial number that was compared, and an authority that is the recorded one. -/
theorem isLatestCert_of_checkLatest {dev : Device} {certPEM : Bytes} {c : ClientCertificate}
    (hparse : v.parseCertificatePEM certPEM = some c) (hcheck : checkLatest v dev certPEM = .ok ())
    (hrecorded : dev.certSerial.isSome = dev.certAKI.isSome) (henforce : v.hook.enforceLatestCert = true)
    (haki : dev.certAKI = some (hexEncodeToString c.cert.authorityKeyId)) : isLatestCert c.cert dev = true := by
  rw [haki] at hrecorded
  obtain ⟨serial, hserial⟩ := Option.isSome_iff_exists.1 hrecorded
  rw [checkLatest, henforce, hserial] at hcheck
  simp only [hparse] at hcheck
  split_ifs at hcheck with hne
  simp only [isLatestCert, hserial, haki, beq_self_eq_true, Bool.and_true]
  simpa using hne

theorem certAKI_of_checkDevice {leaf : Certificate} {rest : List Certificate} {listener : Bytes} {dev : Device}
    (hcheck : checkDevice v.hook ⟨some (leaf :: rest), listener⟩ dev = .ok ())
    (henforce : v.hook.enforceLatestCert = true) :
    dev.certAKI = some (hexEncodeToString leaf.authorityKeyId) := by
  have hstatus := Broker.status_of_checkDevice hcheck
  simp only [checkDevice, if_neg hstatus, henforce, true_and, isLatestCert] at hcheck
  cases hserial : dev.certSerial <;> cases haki : dev.certAKI <;> simp_all

/-- The certificate of a valid answer is admitted as the device exactly if it names the device and the row of the
device, where the latest certificate is enforced, records the authority of the certificate. -/
theorem verifyCredentials_admits (hcurrent : v.Current) {s₀ s : Fleet} (hinit : Recorded s₀.devices)
    {schedule : List FleetStep} (hrun : exec (Fleet.step v.toPairingPorts) s₀ schedule = some s)
    {realmName deviceID secret clientCrtPEM : Bytes} {now until' : Time}
    (hvalid : verifyCredentials v s.devices realmName deviceID secret clientCrtPEM now = .ok (.ok until'))
    {c : ClientCertificate} (hparse : v.parseCertificatePEM clientCrtPEM = some c) {id : DeviceID}
    (hid : DeviceID.parse deviceID = .ok id) (listener clientID : Bytes) :
    ∃ realm dev, v.getRealmByName realmName = some realm ∧ s.devices.lookup (realm.id, id) = some dev ∧
      (onConnectAuthenticate v s.devices ⟨some [c.cert], listener⟩ clientID =
          .ok (⟨realmName, id⟩, (realm.id, id)) ↔
        parseCN c.cert.commonName = .ok ⟨realmName, id⟩ ∧
          (v.hook.enforceLatestCert = true → dev.certAKI = some (hexEncodeToString c.cert.authorityKeyId))) := by
  obtain ⟨realm, id', dev, ca, hrealm, hid', hd, hstatus, hca, hverify, hlatest⟩ :=
    verifyCredentials_eq_ok hvalid
  cases hid'.symm.trans hid
  obtain ⟨rc, hrc, hrcid, hrcca⟩ := hcurrent realmName realm hrealm
  cases hca.symm.trans hrcca
  have hdevice : getDevice s.devices (rc.id, id) = .ok dev := by
    rw [getDevice, hrcid, hd]
  refine ⟨realm, dev, hrealm, hd, fun hadmitted => ?_, fun ⟨hcn, hrecord⟩ => ?_⟩
  · obtain ⟨⟨identity, rc'⟩, hidentify, hadmitted⟩ := bind_eq_ok_iff.1 hadmitted
    obtain ⟨leaf, rest, hpeers, hcn, -, -⟩ := Broker.identify_tls hidentify rfl
    cases hpeers
    cases hrow : getDevice s.devices (rc'.id, identity.deviceID) with
    | error e => simp [hrow] at hadmitted
    | ok dev' =>
      simp only [hrow] at hadmitted
      obtain ⟨⟨⟩, hcheck, heq⟩ := bind_eq_ok_iff.1 hadmitted
      rw [Except.ok.injEq, Prod.mk.injEq] at heq
      rw [heq.2, getDevice, hd] at hrow
      rw [heq.1] at hcn
      cases hrow
      exact ⟨hcn, certAKI_of_checkDevice hcheck⟩
  · -- the broker finds the same trust anchor and the same row
    have hidentify : identify v.hook v.pools ⟨some [c.cert], listener⟩ clientID = .ok (⟨realmName, id⟩, rc) := by
      simp only [identify, hcn, hrc, verify_of_caVerify hparse hverify, if_true]
    have hcheck : checkDevice v.hook ⟨some [c.cert], listener⟩ dev = .ok () := by
      rw [checkDevice, if_neg hstatus]
      refine if_neg ?_
      rintro ⟨henforce, hfalse⟩
      have := isLatestCert_of_checkLatest hparse hlatest (recorded_exec hinit hrun _ dev hd) henforce
        (hrecord henforce)
      exact Bool.false_ne_true (hfalse.symm.trans this)
    refine bind_eq_ok_iff.2 ⟨_, hidentify, ?_⟩
    simp only [hdevice]
    refine bind_eq_ok_iff.2 ⟨(), hcheck, ?_⟩
    rw [hrcid]

end

/-- A service with one realm whose certificates are written as a serial number and an octet that fills the
device in their name, and are all signed by the authority of no octets. -/
def acmeVerify (enforceLatestCert : Bool) : VerifyPorts Unit where
  toPairingPorts := { acmePorts with hook := ⟨fun _ _ _ => true, enforceLatestCert, []⟩ }
  parseCertificatePEM
    | [serial, b] =>
      some ⟨⟨Identity.cn ⟨utf8 "acme", Vector.replicate 16 b⟩, serial.toNat, [], []⟩, ⟨0⟩, ⟨9⟩⟩
    | _ => none
  loadCA _ := some ()
  isExpired _ _ := false

/-- An empty table; device 7 registers and gets a certificate, device 8 registers, and device 7 is unregistered
and registers again. -/
def twoDevices : Fleet where
  devices := []
  calls :=
    [registerAll 7 (utf8 "s"),
      ⟨.credentials (utf8 "acme") (DeviceID.string (Vector.replicate 16 7)) (utf8 "s") [], .start⟩,
      registerAll 8 (utf8 "s"), ⟨.unregister (utf8 "acme") (DeviceID.string (Vector.replicate 16 7)), .start⟩,
      registerAll 7 (utf8 "s")]

/-- The steps of the first `n` calls, two each, where the CA issues the certificate of the serial number 1. -/
def firstCalls (n : Nat) : List FleetStep :=
  (List.range n).flatMap fun c =>
    [.run c ⟨.ok ⟨[1, 7], utf8 "1", []⟩, ⟨5⟩⟩, .run c ⟨.ok ⟨[1, 7], utf8 "1", []⟩, ⟨5⟩⟩]

/-- The connection of device 7 with the issued certificate. -/
def issuedConn : NetConn := ⟨some [⟨Identity.cn ⟨utf8 "acme", Vector.replicate 16 7⟩, 1, [], []⟩], []⟩

theorem acmeVerify_current (enforceLatestCert : Bool) : (acmeVerify enforceLatestCert).Current := by
  intro name realm hrealm
  by_cases hname : (name == utf8 "acme") = true
  · simp only [acmeVerify, acmePorts, hname, if_true, Option.some.injEq] at hrealm
    subst hrealm
    exact ⟨⟨1, utf8 "acme", ()⟩, by simp only [acmeVerify, acmePorts, lookup_cons_ite, hname, if_true], rfl, rfl⟩
  · simp only [acmeVerify, acmePorts, Option.ite_none_right_eq_some] at hrealm
    exact absurd hrealm.1 hname

/-- Device 7 with its own latest certificate. -/
theorem verifyCredentials_admits_issued :
    ∃ s : Fleet, exec (Fleet.step (acmeVerify true).toPairingPorts) twoDevices (firstCalls 2) = some s ∧
      ∃ realm, (acmeVerify true).getRealmByName (utf8 "acme") = some realm ∧
        onConnectAuthenticate (acmeVerify true) s.devices issuedConn (utf8 "paho") =
          .ok (⟨utf8 "acme", Vector.replicate 16 7⟩, (realm.id, Vector.replicate 16 7)) := by
  let device : Device :=
    { credentialsSecretHash := utf8 "s", status := .confirmed, certSerial := some (utf8 "1"), certAKI := some [],
      firstCredentialsRequest := some ⟨5⟩, lastCredentialsRequestIP := some [] }
  have hrun : (exec (Fleet.step (acmeVerify true).toPairingPorts) twoDevices (firstCalls 2)).map
      Fleet.devices = some [((1, Vector.replicate 16 7), device)] := by decide +kernel
  obtain ⟨s, hs, hdevices⟩ := Option.map_eq_some_iff.1 hrun
  obtain ⟨realm, dev, hrealm, hdev, hiff⟩ := verifyCredentials_admits (acmeVerify_current true)
    (fun _ _ h => by cases h) hs
    (show verifyCredentials (acmeVerify true) _ (utf8 "acme") (DeviceID.string (Vector.replicate 16 7))
      (utf8 "s") [1, 7] ⟨5⟩ = .ok (.ok ⟨9⟩) by rw [hdevices]; rfl) rfl (DeviceID.parse_string _) [] (utf8 "paho")
  refine ⟨s, hs, realm, hrealm, hiff.2 ⟨rfl, fun _ => ?_⟩⟩
  rw [hdevices, lookup_cons_ite] at hdev
  split_ifs at hdev
  · cases hdev
    rfl
  · cases hdev

/-- The certificate of device 7 is valid for device 8, and admits device 7. For device 7, registered anew, it
is valid as well, and it is not admitted. -/
theorem verifyCredentials_disagrees :
    ((exec (Fleet.step (acmeVerify false).toPairingPorts) twoDevices (firstCalls 3)).map fun s =>
        ((verifyCredentials (acmeVerify false) s.devices (utf8 "acme")
            (DeviceID.string (Vector.replicate 16 8)) (utf8 "s") [1, 7] ⟨5⟩).toOption.bind Except.toOption,
          (onConnectAuthenticate (acmeVerify false) s.devices issuedConn []).toOption.map Prod.fst)) =
      some (some ⟨9⟩, some ⟨utf8 "acme", Vector.replicate 16 7⟩) ∧
    ((exec (Fleet.step (acmeVerify true).toPairingPorts) twoDevices (firstCalls 5)).map fun s =>
        ((verifyCredentials (acmeVerify true) s.devices (utf8 "acme")
            (DeviceID.string (Vector.replicate 16 7)) (utf8 "s") [1, 7] ⟨5⟩).toOption.bind Except.toOption,
          (onConnectAuthenticate (acmeVerify true) s.devices issuedConn []).toOption.map Prod.fst)) =
      some (some ⟨9⟩, none) := by
  decide +kernel

end Astrate.Pairing
