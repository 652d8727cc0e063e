import Astrate.GoLib.Base64
import Astrate.GoLib.JsonText

/-!
# Device identifiers

The 128-bit identifier of `pkg/deviceid` and its canonical text, 22 characters of unpadded base64url.
`DeviceID.parse` is the strict parser of the text; it reads every canonical text back
(`DeviceID.parse_string`) and accepts nothing else (`DeviceID.string_of_parse`). Its other text is the UUID
(`fromUUID_uuid`), which is also the form of the tokens of a group.
-/

set_option autoImplicit false

namespace Astrate

open Astrate.GoLib

/-- `deviceid.ID`, an array of sixteen octets. -/
abbrev DeviceID := Vector UInt8 16

/-- `ID.String`. -/
def DeviceID.string (id : DeviceID) : Bytes := Base64.rawURLEncodeToString id.toList

example : DeviceID.string (Vector.replicate 16 255) = utf8 "_____________________w" := by decide

/-- `EncodedLen`. -/
def DeviceID.encodedLen : Nat := 22

/-- `Parse`. -/
def DeviceID.parse (s : Bytes) : Except FmtError DeviceID :=
  if s.length ≠ DeviceID.encodedLen then
    errorf "%w: got %d characters, want %d" [.int s.length, .int DeviceID.encodedLen]
  else
    match Base64.rawURLDecodeString s with
    | none => errorf "%w: not unpadded base64url: %v" [.err]
    | some bytes =>
      if h : bytes.length = 16 then .ok ⟨bytes.toArray, by simp [h]⟩
      else errorf "%w: decoded to %d bytes, want %d" [.int bytes.length, .int 16]

theorem DeviceID.length_string (id : DeviceID) : id.string.length = DeviceID.encodedLen := by
  rw [DeviceID.string, Base64.length_rawURLEncodeToString]
  simp [DeviceID.encodedLen]

theorem DeviceID.urlByte_of_mem {id : DeviceID} {c : UInt8} (h : c ∈ id.string) : Base64.urlByte c = true :=
  Base64.urlByte_of_mem h

theorem DeviceID.parse_string (id : DeviceID) : DeviceID.parse id.string = .ok id := by
  rw [DeviceID.parse, if_neg (not_not.2 id.length_string), DeviceID.string,
    Base64.rawURLDecodeString_rawURLEncodeToString]
  simp [Vector.toList]

theorem DeviceID.string_inj {a b : DeviceID} (h : a.string = b.string) : a = b := by
  have hparse := DeviceID.parse_string a
  rw [h, DeviceID.parse_string] at hparse
  exact (Except.ok.inj hparse).symm

/-- `Parse` accepts canonical texts only. -/
theorem DeviceID.string_of_parse {s : Bytes} {id : DeviceID} (h : DeviceID.parse s = .ok id) :
    id.string = s := by
  rw [DeviceID.parse] at h
  split_ifs at h with hlength
  · cases h
  cases hdecode : Base64.rawURLDecodeString s with
  | none =>
    rw [hdecode] at h
    cases h
  | some bytes =>
    rw [hdecode] at h
    dsimp only at h
    split_ifs at h with hbytes
    · have hencode := Base64.rawURLEncodeToString_of_decode hdecode
      -- sixteen octets need all the characters, so that none of them is a line break
      have hall : s.filter (fun c => c != 13 && c != 10) = s := by
        apply List.filter_eq_self.2
        apply List.length_filter_eq_length_iff.1
        rw [← hencode, Base64.length_rawURLEncodeToString, hbytes, not_not.1 hlength]
        rfl
      rw [hall] at hencode
      rw [← hencode, ← Except.ok.inj h]
      rfl
    · cases h

/-! ## UUIDs -/

/-- `ID.UUID`, of sixteen octets. -/
def uuid (u : Bytes) : Bytes :=
  hexEncodeToString (u.take 4) ++ 45 :: hexEncodeToString ((u.drop 4).take 2) ++
    45 :: hexEncodeToString ((u.drop 6).take 2) ++ 45 :: hexEncodeToString ((u.drop 8).take 2) ++
    45 :: hexEncodeToString (u.drop 10)

/-- `FromUUID`. -/
def fromUUID (s : Bytes) : Option Bytes :=
  if s.length ≠ 36 ∨ s[8]? ≠ some 45 ∨ s[13]? ≠ some 45 ∨ s[18]? ≠ some 45 ∨ s[23]? ≠ some 45 then none
  else do
    let a ← hexDecode (s.take 8)
    let b ← hexDecode ((s.drop 9).take 4)
    let c ← hexDecode ((s.drop 14).take 4)
    let d ← hexDecode ((s.drop 19).take 4)
    let e ← hexDecode (s.drop 24)
    some (a ++ b ++ c ++ d ++ e)

/-- `groupTokenFor` of `internal/appengine`: the lower 32 bits of the offset. -/
def groupTokenFor (offset : Nat) : Bytes :=
  uuid [UInt8.ofNat (offset / 16777216), UInt8.ofNat (offset / 65536), UInt8.ofNat (offset / 256),
    UInt8.ofNat offset, 0, 0, 16, 0, 128, 0, 0, 0, 0, 0, 0, 0]

/-- `parseGroupToken`. -/
def parseGroupToken (s : Bytes) : Option Nat :=
  match fromUUID s with
  | some (a :: b :: c :: d :: _ :: _ :: v :: _) =>
    if v.toNat / 16 = 1 then some (16777216 * a.toNat + 65536 * b.toNat + 256 * c.toNat + d.toNat) else none
  | _ => none

/-- The text of sixteen octets is read back, group by group. -/
theorem fromUUID_uuid (id : DeviceID) : fromUUID (uuid id.toList) = some id.toList := by
  have hlength : id.toList.length = 16 := Vector.length_toList
  match id.toList, hlength with
  | [a, b, c, d, e, f, g, h, i, j, k, l, m, n, o, p], _ =>
    have htext := hexDecode_hexEncodeToString
    have hlow := htext [a, b, c, d]
    have hmid := htext [e, f]
    have hversion := htext [g, h]
    have hclock := htext [i, j]
    have hnode := htext [k, l, m, n, o, p]
    change (do
      let a ← hexDecode (hexEncodeToString [a, b, c, d])
      let b ← hexDecode (hexEncodeToString [e, f])
      let c ← hexDecode (hexEncodeToString [g, h])
      let d ← hexDecode (hexEncodeToString [i, j])
      let e ← hexDecode (hexEncodeToString [k, l, m, n, o, p])
      some (a ++ b ++ c ++ d ++ e)) = _
    rw [hlow, hmid, hversion, hclock, hnode]
    rfl

/-- A token is read back as long as the offset has 32 bits. -/
theorem parseGroupToken_groupTokenFor {offset : Nat} (h : offset < 4294967296) :
    parseGroupToken (groupTokenFor offset) = some offset := by
  have htoken := fromUUID_uuid #v[UInt8.ofNat (offset / 16777216), UInt8.ofNat (offset / 65536),
    UInt8.ofNat (offset / 256), UInt8.ofNat offset, 0, 0, 16, 0, 128, 0, 0, 0, 0, 0, 0, 0]
  rw [Vector.toList_mk] at htoken
  rw [groupTokenFor, parseGroupToken, htoken]
  simp only [UInt8.toNat_ofNat']
  rw [if_pos (by decide)]
  congr 1
  omega

end Astrate
