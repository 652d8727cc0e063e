import Astrate.DeviceID
import Astrate.GoLib.TopicFilter

/-!
# Device identities

`internal/broker/identity.go`: the identity `<realm>/<device_id>` of an authenticated device, which is
its certificate CN, its MQTT client identifier and its base topic at once. Topics below the bases of
different identities are different (`Identity.eq_of_under`), and identifiers have one text each
(`identifiers_read_back`).
-/

set_option autoImplicit false

namespace Astrate.Broker

open Astrate.GoLib

/-- In octets. -/
def maxRealmNameLen : Nat := 48

/-- `Identity`. -/
structure Identity where
  realm : Bytes
  deviceID : DeviceID
  deriving DecidableEq

/-- `Identity.CN`. -/
def Identity.cn (i : Identity) : Bytes := i.realm ++ 47 :: i.deviceID.string

/-- `Identity.BaseTopic`. -/
def Identity.baseTopic (i : Identity) : Bytes := i.cn

/-- The loop of `validRealmName`, from the octet at index `i` on. -/
def validRealmLoop : Nat → Bytes → Bool
  | _, [] => true
  | i, c :: cs =>
    if 97 ≤ c ∧ c ≤ 122 then validRealmLoop (i + 1) cs
    else if 48 ≤ c ∧ c ≤ 57 then if i = 0 then false else validRealmLoop (i + 1) cs
    else false

/-- `ValidRealmName`. -/
def validRealmName (s : Bytes) : Bool :=
  if s.length = 0 ∨ s.length > maxRealmNameLen then false else validRealmLoop 0 s

/-- `ParseCN`. -/
def parseCN (cn : Bytes) : Except FmtError Identity :=
  match cutByte 47 cn with
  | none => errorf "%w: %q has no realm/device separator" [.str cn]
  | some (realm, dev) =>
    if !validRealmName realm then errorf "%w: invalid realm name in %q" [.str cn]
    else
      match DeviceID.parse dev with
      | .error _ => errorf "%w: invalid device ID in %q: %v" [.str cn, .err]
      | .ok id => .ok ⟨realm, id⟩

/-! ## The octets of an identity -/

/-- A lowercase letter or a digit. -/
def realmByte (c : UInt8) : Bool := (97 ≤ c && c ≤ 122) || (48 ≤ c && c ≤ 57)

theorem realmByte_of_validRealmLoop {s : Bytes} :
    ∀ {i : Nat}, validRealmLoop i s = true → ∀ c ∈ s, realmByte c = true := by
  induction s with
  | nil => exact nofun
  | cons b bs ih =>
    intro i h c hc
    rw [validRealmLoop] at h
    split_ifs at h with hletter hdigit
    · rcases List.mem_cons.1 hc with rfl | hc
      · simp [realmByte, hletter.1, hletter.2]
      · exact ih h c hc
    · rcases List.mem_cons.1 hc with rfl | hc
      · simp [realmByte, hdigit.1, hdigit.2]
      · exact ih h c hc

/-- A realm name is short and made of lowercase letters and digits. -/
theorem validRealmName_spec {s : Bytes} (h : validRealmName s = true) :
    s.length ≤ maxRealmNameLen ∧ ∀ c ∈ s, realmByte c = true := by
  rw [validRealmName] at h
  split_ifs at h with hlength
  exact ⟨by omega, realmByte_of_validRealmLoop h⟩

theorem not_mem_realm {s : Bytes} (h : validRealmName s = true) {c : UInt8}
    (hc : realmByte c = false) : c ∉ s := by
  intro hmem
  rw [(validRealmName_spec h).2 c hmem] at hc
  cases hc

/-- What `ParseCN` accepts: the text of an identity with a valid realm name. -/
theorem parseCN_eq_ok {cn : Bytes} {i : Identity} (h : parseCN cn = .ok i) :
    validRealmName i.realm = true ∧ i.cn = cn := by
  rw [parseCN] at h
  cases hcut : cutByte 47 cn with
  | none =>
    rw [hcut] at h
    cases h
  | some p =>
    obtain ⟨realm, dev⟩ := p
    rw [hcut] at h
    dsimp only at h
    by_cases hrealm : validRealmName realm = true
    · rw [hrealm] at h
      cases hid : DeviceID.parse dev with
      | error e =>
        rw [hid] at h
        cases h
      | ok id =>
        rw [hid] at h
        cases h
        refine ⟨hrealm, ?_⟩
        rw [Identity.cn, DeviceID.string_of_parse hid, ((cutByte_eq_some_iff ..).1 hcut).1]
    · rw [Bool.not_eq_true] at hrealm
      rw [hrealm] at h
      cases h

theorem validRealmName_of_parseCN {cn : Bytes} {i : Identity} (h : parseCN cn = .ok i) :
    validRealmName i.realm = true :=
  (parseCN_eq_ok h).1

section Valid

variable {i j : Identity} (hi : validRealmName i.realm = true) (hj : validRealmName j.realm = true)

include hi

/-- The text of a valid identity has no octet outside the two alphabets and the slash. -/
theorem Identity.not_mem_cn {c : UInt8} (hrealm : realmByte c = false)
    (hid : Base64.urlByte c = false) (hslash : c ≠ 47) : c ∉ i.cn := by
  rw [Identity.cn, List.mem_append, List.mem_cons]
  rintro (hc | hc | hc)
  · exact not_mem_realm hi hrealm hc
  · exact hslash hc
  · rw [DeviceID.urlByte_of_mem hc] at hid
    cases hid

theorem Identity.length_cn : i.cn.length ≤ maxRealmNameLen + 1 + DeviceID.encodedLen := by
  have hlength := (validRealmName_spec hi).1
  rw [Identity.cn, List.length_append, List.length_cons, i.deviceID.length_string]
  omega

/-- `ParseCN` reads the text of a valid identity back. -/
theorem Identity.parseCN_cn : parseCN i.cn = .ok i := by
  have hslash : 47 ∉ i.realm := not_mem_realm hi (by decide)
  have hcut : cutByte 47 i.cn = some (i.realm, i.deviceID.string) :=
    (cutByte_eq_some_iff ..).2 ⟨rfl, hslash⟩
  simp [parseCN, hcut, hi, DeviceID.parse_string]

/-- The base topic is all that a topic below it tells about its device. -/
theorem Identity.cut_of_under {topic : Bytes} (h : Under i.baseTopic topic) :
    ∃ tail, cutByte 47 topic = some (i.realm, i.deviceID.string ++ tail) := by
  have hslash : 47 ∉ i.realm := not_mem_realm hi (by decide)
  rcases h with rfl | ⟨rest, rfl⟩
  · exact ⟨[], (cutByte_eq_some_iff ..).2 ⟨by simp [Identity.baseTopic, Identity.cn], hslash⟩⟩
  · exact ⟨47 :: rest, (cutByte_eq_some_iff ..).2 ⟨by simp [Identity.baseTopic, Identity.cn], hslash⟩⟩

include hj

/-- No topic is below the bases of two identities. -/
theorem Identity.eq_of_under {topic : Bytes} (h : Under i.baseTopic topic)
    (h' : Under j.baseTopic topic) : i = j := by
  obtain ⟨tail, hcut⟩ := Identity.cut_of_under hi h
  obtain ⟨tail', hcut'⟩ := Identity.cut_of_under hj h'
  rw [hcut, Option.some.injEq, Prod.mk.injEq] at hcut'
  obtain ⟨hrealm, hids⟩ := hcut'
  have hlength : i.deviceID.string.length = j.deviceID.string.length := by
    rw [DeviceID.length_string, DeviceID.length_string]
  have hid := DeviceID.string_inj (List.append_inj hids hlength).1
  cases i
  cases j
  cases hrealm
  cases hid
  rfl

end Valid

/-- Identifiers have one text each. The text of a device is the only one `Parse` reads as this device, and so
is the text of an identity with a valid realm name for `ParseCN`; the UUID of a device and the token of an
offset with 32 bits are read back. -/
theorem identifiers_read_back :
    (∀ (s : Bytes) (id : DeviceID), DeviceID.parse s = .ok id ↔ s = id.string) ∧
    (∀ id : DeviceID, fromUUID (uuid id.toList) = some id.toList) ∧
    (∀ i : Identity, validRealmName i.realm = true → parseCN i.cn = .ok i) ∧
    (∀ (s : Bytes) (i : Identity), parseCN s = .ok i → i.cn = s) ∧
    ∀ n < 4294967296, parseGroupToken (groupTokenFor n) = some n := by
  refine ⟨fun s id => ⟨fun h => (DeviceID.string_of_parse h).symm, ?_⟩, fromUUID_uuid,
    fun i => Identity.parseCN_cn, fun s i h => (parseCN_eq_ok h).2,
    fun n => parseGroupToken_groupTokenFor⟩
  rintro rfl
  exact id.parse_string

end Astrate.Broker
