import Astrate.Broker.Caches
import Astrate.Store.Devices

/-!
# Authentication of connections

`OnPacketRead` and `OnConnectAuthenticate` of `internal/broker/authhook.go`. The identity of a TLS
connection is the CN of its leaf certificate, and the CONNECT packet is rewritten so that the MQTT
client identifier says the same; a connection without TLS is only accepted by the listener of
`insecure_dev_mode`, and there the client identifier is the identity.

The hook reads the pools, then the device, and only then enters the session in the registry. The two
halves of the check are `identify` and `checkDevice`.
-/

set_option autoImplicit false

namespace Astrate.Broker

open Astrate.GoLib
open Astrate.Store (Device DeviceStatus)

/-- A certificate as the broker reads it. -/
structure Certificate where
  commonName : Bytes
  serialNumber : Int
  authorityKeyId : Bytes
  raw : Bytes := []
  deriving DecidableEq

/-- A network connection: the certificates presented over TLS, or a connection without TLS. -/
structure NetConn where
  peerCertificates : Option (List Certificate)
  listener : Bytes
  deriving DecidableEq

/-- A packet, of which only the client identifier of CONNECT is read here. -/
inductive Packet where
  | connect (clientIdentifier : Bytes)
  | other
  deriving DecidableEq

/-- `OnPacketRead`. -/
def onPacketRead (conn : NetConn) (pk : Packet) : Packet :=
  match pk with
  | .other => pk
  | .connect _ =>
    match conn.peerCertificates with
    | none | some [] => pk
    | some (leaf :: _) =>
      match parseCN leaf.commonName with
      | .error _ => pk
      | .ok _ => .connect leaf.commonName

/-- The reasons of `deny`. -/
inductive Denial where
  | noCertificate
  | commonName
  | unknownRealm
  | chain
  | deviceLookup
  | inhibited
  | superseded
  | plaintext
  | clientID
  deriving DecidableEq, Repr

/-- The text of a denial. -/
def Denial.reason : Denial → String
  | .noCertificate => "no client certificate presented"
  | .commonName => "certificate CN is not a <realm>/<device_id> identity"
  | .unknownRealm => "unknown realm"
  | .chain => "certificate does not chain to the realm CA"
  | .deviceLookup => "device lookup failed"
  | .inhibited => "device is inhibited"
  | .superseded => "certificate superseded by a newer issuance"
  | .plaintext => "plaintext connection outside insecure_dev_mode"
  | .clientID => "client ID is not a <realm>/<device_id> CN"

/-- `authHook`: its configuration, and the verification of `crypto/x509` of a leaf with the other
certificates against the pool that holds one CA certificate. -/
structure AuthHook (χ : Type) where
  verify : Certificate → List Certificate → χ → Bool
  enforceLatestCert : Bool
  devListenerID : Bytes

def isLatestCert (leaf : Certificate) (dev : Device) : Bool :=
  match dev.certSerial, dev.certAKI with
  | some serial, some aki =>
    formatInt leaf.serialNumber == serial && hexEncodeToString leaf.authorityKeyId == aki
  | _, _ => false

section

variable {χ : Type} (h : AuthHook χ)

/-- `OnConnectAuthenticate` before the device is read: the identity and the trust anchor. -/
def identify (pools : PoolContent χ) (conn : NetConn) (clientID : Bytes) :
    Except Denial (Identity × RealmCA χ) :=
  match conn.peerCertificates with
  | some [] => .error .noCertificate
  | some (leaf :: rest) =>
    match parseCN leaf.commonName with
    | .error _ => .error .commonName
    | .ok identity =>
      match pools.byName.lookup identity.realm with
      | none => .error .unknownRealm
      | some rc =>
        if h.verify leaf rest rc.cert then .ok (identity, rc) else .error .chain
  | none =>
    if h.devListenerID = [] ∨ conn.listener ≠ h.devListenerID then .error .plaintext
    else
      match parseCN clientID with
      | .error _ => .error .clientID
      | .ok identity =>
        match pools.byName.lookup identity.realm with
        | none => .error .unknownRealm
        | some rc => .ok (identity, rc)

/-- `OnConnectAuthenticate` after the device was read. -/
def checkDevice (conn : NetConn) (dev : Device) : Except Denial Unit :=
  if dev.status = .inhibited then .error .inhibited
  else
    match conn.peerCertificates with
    | some (leaf :: _) =>
      if h.enforceLatestCert ∧ isLatestCert leaf dev = false then .error .superseded else .ok ()
    | _ => .ok ()

variable {h}

theorem status_of_checkDevice {conn : NetConn} {dev : Device} (hcheck : checkDevice h conn dev = .ok ()) :
    dev.status ≠ .inhibited := by
  intro hstatus
  rw [checkDevice, if_pos hstatus] at hcheck
  cases hcheck

/-- What is known of a connection with a certificate that was identified. -/
theorem identify_tls {pools : PoolContent χ} {conn : NetConn} {clientID : Bytes} {identity : Identity}
    {rc : RealmCA χ} (hok : identify h pools conn clientID = .ok (identity, rc))
    {peers : List Certificate} (htls : conn.peerCertificates = some peers) :
    ∃ leaf rest, peers = leaf :: rest ∧ parseCN leaf.commonName = .ok identity ∧
      pools.byName.lookup identity.realm = some rc ∧ h.verify leaf rest rc.cert = true := by
  rw [identify, htls] at hok
  cases peers with
  | nil => cases hok
  | cons leaf rest =>
    refine ⟨leaf, rest, rfl, ?_⟩
    cases hcn : parseCN leaf.commonName with
    | error e => simp [hcn] at hok
    | ok i =>
      cases hlookup : pools.byName.lookup i.realm with
      | none => simp [hcn, hlookup] at hok
      | some ca =>
        by_cases hverify : h.verify leaf rest ca.cert = true
        · simp only [hcn, hlookup, hverify, if_true, Except.ok.injEq, Prod.mk.injEq] at hok
          obtain ⟨rfl, rfl⟩ := hok
          exact ⟨rfl, hlookup, hverify⟩
        · simp [hcn, hlookup, hverify] at hok

end

end Astrate.Broker
