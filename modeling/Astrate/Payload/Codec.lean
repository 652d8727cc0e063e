import Astrate.Payload.Bson

/-!
# The codec

The facade of `pkg/payload/payload.go` and the format sniffing of `pkg/payload/sniff.go`:
`Decoder.individual` and `Decoder.object` decode a payload against a compiled mapping or against the
leaves of an object-aggregated interface, `encode` builds an outbound document. The sniff tells JSON objects
and BSON documents apart (`detectFormat_exact`).
-/

set_option autoImplicit false

namespace Astrate.Payload

open Astrate.GoLib
open Astrate.GoLib.Bson (Driver maxInt32 readLE)
open Astrate.InterfaceSchema (ValueType CompiledMapping)

/-! ## Sniffing -/

/-- The first octet that is not white space decides for JSON. -/
def sniffJSON : Bytes → Format
  | [] => .invalid
  | c :: s => if Json.isSpace c then sniffJSON s else if c = 123 then .json else .invalid

/-- `DetectFormat`. -/
def detectFormat (p : Bytes) : Format :=
  if p = [] then .empty
  else if 5 ≤ p.length ∧ p.length ≤ maxInt32 ∧ readLE (p.take 4) = p.length ∧
      p.getLast? = some 0 then .bson
  else sniffJSON p

/-- A document as far as its frame goes: it declares its own length and ends with a zero octet. -/
def FramedBSON (p : Bytes) : Prop :=
  ∃ header body, p = header ++ body ++ [0] ∧ header.length = 4 ∧ readLE header = p.length

theorem sniffJSON_eq_json {p cs : Bytes} (h : Json.skipSpace p = 123 :: cs) : sniffJSON p = .json := by
  induction p with
  | nil => cases h
  | cons c p ih =>
    rw [sniffJSON]
    rw [Json.skipSpace, List.dropWhile_cons] at h
    split_ifs at h ⊢ with hspace hbrace
    · exact ih h
    · rfl
    · exact absurd (List.cons.inj h).1 hbrace

theorem FramedBSON.detectFormat_eq {p : Bytes} (h : FramedBSON p) (hp : p.length ≤ maxInt32) :
    detectFormat p = .bson := by
  obtain ⟨header, body, rfl, hheader, hlength⟩ := h
  have htake : (header ++ body ++ [0]).take 4 = header := by
    rw [List.append_assoc, List.take_left' hheader]
  have hlong : 5 ≤ (header ++ body ++ [0]).length := by
    rw [List.length_append, List.length_append, hheader]
    simp
  rw [detectFormat, if_neg (by simp), if_pos ⟨hlong, hp, htake.symm ▸ hlength, List.getLast?_concat⟩]

/-- The sniff takes no valid payload for another: the text of a JSON object is JSON and a framed document is
BSON, whatever its first octet, and no payload is both. -/
theorem detectFormat_exact (p : Bytes) (hp : p.length ≤ maxInt32) :
    (Json.ObjectText p → detectFormat p = .json) ∧ (FramedBSON p → detectFormat p = .bson) ∧
      ¬ (Json.ObjectText p ∧ FramedBSON p) := by
  have hjson : Json.ObjectText p → detectFormat p = .json := by
    intro h
    obtain ⟨⟨cs, hcs⟩, c, hlast, hc⟩ := h.ends
    have hne : p ≠ [] := by
      rintro rfl
      cases hlast
    have hzero : ¬ p.getLast? = some 0 := by
      rw [hlast]
      rintro ⟨⟩
      revert hc
      decide
    rw [detectFormat, if_neg hne, if_neg fun h => hzero h.2.2.2, sniffJSON_eq_json hcs]
  refine ⟨hjson, fun h => h.detectFormat_eq hp, fun ⟨h, h'⟩ => ?_⟩
  cases (hjson h).symm.trans (h'.detectFormat_eq hp)

/-- A text with white space in front of its brace, and a document whose first octet is a space. -/
theorem detectFormat_exact_spaces :
    detectFormat (utf8 " \x7b\"v\":1\x7d ") = .json ∧
      detectFormat ([32, 0, 0, 0] ++ List.replicate 27 1 ++ [0]) = .bson := by
  constructor
  · refine (detectFormat_exact _ (by decide)).1 ⟨1, utf8 "\x7b\"v\":1\x7d", _, utf8 " ", rfl, rfl⟩
  · exact (detectFormat_exact _ (by decide)).2.1 ⟨[32, 0, 0, 0], List.replicate 27 1, rfl, rfl, rfl⟩

/-! ## Decoding -/

/-- The decoder; a cap of zero or less is the default cap. -/
structure Decoder where
  maxSize : Int := 0

/-- The cap on payloads. -/
def Decoder.limit (dec : Decoder) : Int := if dec.maxSize > 0 then dec.maxSize else defaultMaxSize

/-- The size cap and the format sniff. -/
def Decoder.gate (dec : Decoder) (p : Bytes) : Except PayloadError Format :=
  if (p.length : Int) > dec.limit then
    rejectf .tooLarge "%d byte payload exceeds %d byte cap" [.int p.length, .int dec.limit]
  else if detectFormat p = .invalid then
    rejectf .unknownFormat "payload is neither empty, BSON, nor JSON" []
  else .ok (detectFormat p)

/-- The explicit-timestamp policy: required where declared, ignored elsewhere. -/
def finishDecode (val : Option Value) (ts : Option Time) (f : Format) (explicit : Bool) :
    Except PayloadError DecodedPayload :=
  if explicit && ts.isNone then
    rejectf .badTimestamp "mapping declares explicit_timestamp but payload carries no t" []
  else .ok ⟨val, if explicit then ts else none, f⟩

section Decode

variable (drv : Driver)

/-- `Decoder.Individual`. -/
def Decoder.individual (dec : Decoder) (p : Bytes) (m : CompiledMapping) :
    Except PayloadError DecodedPayload := do
  let f ← dec.gate p
  match f with
  | .empty =>
    if !m.allowUnset then
      rejectf .unsetNotAllowed "empty payload on a mapping without allow_unset" []
    else .ok ⟨none, none, .empty⟩
  | .bson => do
      let (rv, ts) ← decodeBSONEnvelope drv p
      let l ← decodeBSONValue drv rv m.valueType
      finishDecode (some (.leaf l)) ts .bson m.explicitTimestamp
  | .json => do
      let (raw, ts) ← decodeJSONEnvelope p
      let l ← decodeJSONValue raw m.valueType
      finishDecode (some (.leaf l)) ts .json m.explicitTimestamp
  -- The gate lets no invalid payload through.
  | .invalid => finishDecode none none .invalid m.explicitTimestamp

/-- The required keys an object lacks, in order. -/
def missingRequired (leaves : Leaves) : Option Value → List Bytes
  | some (.object obj) =>
    ((leaves.filter fun e => e.2.required && (obj.lookup e.1).isNone).map Prod.fst).mergeSort
      fun a b => decide (a ≤ b)
  | _ => []

/-- The explicit-timestamp attribute of any leaf. -/
def objectExplicitTimestamp (leaves : Leaves) : Bool :=
  match leaves with
  | [] => false
  | e :: _ => e.2.explicitTimestamp

/-- The check for required keys, then the timestamp policy. -/
def finishObject (leaves : Leaves) (val : Option Value) (ts : Option Time) (f : Format) :
    Except PayloadError DecodedPayload :=
  let missing := missingRequired leaves val
  if missing ≠ [] then
    rejectf .missingRequired "object-aggregation document is missing required key(s) %s"
      [.str ((utf8 ", ").intercalate missing)]
  else finishDecode val ts f (objectExplicitTimestamp leaves)

/-- `Decoder.Object`. -/
def Decoder.object (dec : Decoder) (p : Bytes) (leaves : Leaves) : Except PayloadError DecodedPayload :=
  if leaves = [] then .error (.plain ⟨"payload: no object leaves", []⟩)
  else do
    let f ← dec.gate p
    match f with
    | .empty => rejectf .unsetNotAllowed "empty payload on an object-aggregated datastream" []
    | .bson => do
        let (rv, ts) ← decodeBSONEnvelope drv p
        let val ← decodeBSONObject drv rv leaves
        finishObject leaves (some val) ts .bson
    | .json => do
        let (raw, ts) ← decodeJSONEnvelope p
        let val ← decodeJSONObject raw leaves
        finishObject leaves (some val) ts .json
    | .invalid => finishObject leaves none none .invalid

end Decode

/-! ## Encoding -/

/-- `Encode`; no value is a property unset. -/
def encode (v : Option Value) (ts : Option Time) (f : Format) : Except PayloadError Bytes :=
  match f, v with
  | .empty, v =>
    if v.isSome || ts.isSome then
      .error (.plain ⟨"payload: FormatEmpty encodes only a nil value (property unset)", []⟩)
    else .ok []
  | .bson, some v => encodeBSON v ts
  | .json, some v => encodeJSON v ts
  | .bson, none | .json, none =>
    .error (.plain ⟨"payload: nil value (use FormatEmpty for property unset)", []⟩)
  | .invalid, _ => .error (.plain ⟨"payload: cannot encode format %s", [.str (utf8 "invalid")]⟩)

end Astrate.Payload
