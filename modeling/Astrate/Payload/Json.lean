import Astrate.GoLib.Base64
import Astrate.InterfaceSchema.Compile
import Astrate.Payload.Value

/-!
# The JSON profile

`pkg/payload/json.go`: decoding a scanned JSON value against a declared type, and rendering a payload
value. A `json.RawMessage` is the scanned value itself, so decoding it once more into a string, an
array or a map never meets a syntax error.
-/

set_option autoImplicit false

namespace Astrate.Payload

open Astrate.GoLib
open Astrate.GoLib.Json (Token Any StructField)
open Astrate.InterfaceSchema (ValueType CompiledMapping)

/-- The leaves of an object-aggregated interface by their last-level names. -/
abbrev Leaves := List (Bytes × CompiledMapping)

/-! ## Tokens -/

/-- A token cut for an error text. -/
def clip (raw : Bytes) : Bytes := if raw.length > 64 then raw.take 64 ++ utf8 "…" else raw

/-- The text of a number token. -/
def jsonNumber (t : Token) : Except PayloadError Bytes :=
  match t.raw with
  | [] => rejectf .typeMismatch "JSON value %s is not a number" [.str (clip t.raw)]
  | c :: _ =>
    if c = 45 ∨ isDigit c then .ok t.raw
    else rejectf .typeMismatch "JSON value %s is not a number" [.str (clip t.raw)]

/-- A number as an integer: exact over the whole range for plain integers; a fraction or an exponent
only where doubles are exact. -/
def jsonInt64 (num : Bytes) : Except PayloadError Int64 :=
  match parseInt num with
  | .ok i => .ok (Int64.ofInt i)
  | .error .range => rejectf .typeMismatch "number %s overflows int64" [.str num]
  | .error .badSyntax =>
    match Float64.parseFloat num with
    | .error _ => rejectf .typeMismatch "number %s is not decodable" [.str num]
    | .ok f =>
      if !f.integral || f.leInt (-2 ^ 53) || !f.ltInt (2 ^ 53) then
        rejectf .typeMismatch "number %s does not coerce to an integer exactly" [.str num]
      else .ok (Int64.ofInt f.toInt)

/-- A datetime: an RFC 3339 string or a number of milliseconds since the epoch. -/
def decodeJSONDateTime (t : Token) : Except PayloadError Time :=
  if t.isNull ∨ t.raw = [] then rejectf .typeMismatch "JSON null is not a datetime" []
  else if t.raw.head? = some 34 then
    match Json.decodeString [] t with
    | none => rejectf .malformed "invalid JSON string: %v" [.err]
    | some s =>
      match Time.parseRFC3339Nano s with
      | none => rejectf .typeMismatch "%q is not an RFC 3339 timestamp" [.str s]
      | some ts => checkDateTime ts
  else
    match jsonNumber t with
    | .error _ =>
      rejectf .typeMismatch "JSON value %s is not an RFC 3339 string or epoch-ms number"
        [.str (clip t.raw)]
    | .ok num => do
        let ms ← jsonInt64 num
        dateTimeFromMillis ms

/-! ## Values -/

/-- `decodeJSONValue` for a scalar type. -/
def decodeJSONScalar (t : ScalarType) (raw : Token) : Except PayloadError t.Carrier :=
  if raw.isNull then
    rejectf .typeMismatch "JSON null is not a value (property unset is an empty payload)" []
  else
    match t with
    | .double => do
        let num ← jsonNumber raw
        match Float64.parseFloat num with
        | .error _ => rejectf .typeMismatch "number %s does not fit double" [.str num]
        | .ok f => checkDouble f
    | .integer => do
        let num ← jsonNumber raw
        let i ← jsonInt64 num
        int32FromInt64 i
    | .longInteger =>
      if raw.raw.head? = some 34 then
        match Json.decodeString [] raw with
        | none => rejectf .malformed "invalid JSON string: %v" [.err]
        | some s =>
          match parseInt s with
          | .error _ => rejectf .typeMismatch "string %q is not a decimal longinteger" [.str s]
          | .ok i => .ok (Int64.ofInt i)
      else do
        let num ← jsonNumber raw
        jsonInt64 num
    | .boolean =>
      match Json.decodeBool false raw with
      | none => rejectf .typeMismatch "JSON value %s is not a boolean" [.str (clip raw.raw)]
      | some b => .ok b
    | .string =>
      match Json.decodeString [] raw with
      | none => rejectf .typeMismatch "JSON value %s is not a string" [.str (clip raw.raw)]
      | some s => checkString s
    | .binaryBlob =>
      match Json.decodeString [] raw with
      | none =>
        rejectf .typeMismatch "binaryblob must be a base64 JSON string, got %s"
          [.str (clip raw.raw)]
      | some s =>
        match Base64.decodeString s with
        | none =>
          rejectf .typeMismatch "invalid base64 (standard alphabet, padded required): %v" [.err]
        | some data => .ok data
    | .dateTime => decodeJSONDateTime raw

/-- `decodeJSONValue`. -/
def decodeJSONValue (raw : Token) (vt : ValueType) : Except PayloadError Leaf :=
  if vt.isArray then
    if raw.isNull then
      rejectf .typeMismatch "JSON null is not a value (property unset is an empty payload)" []
    else
      match raw with
      | .array _ elems => do
          let xs ← collectArray elems (decodeJSONScalar (scalarOf vt))
          .ok (.array (scalarOf vt) xs)
      | _ =>
        rejectf .typeMismatch "JSON value %s does not coerce to %s"
          [.str (clip raw.raw), .str (utf8 vt.wire)]
  else do
    let x ← decodeJSONScalar (scalarOf vt) raw
    .ok (.scalar (scalarOf vt) x)

/-- One member of an object-aggregation document. -/
def decodeJSONEntry (leaves : Leaves) (key : Bytes) (raw : Token) : Except PayloadError Entry :=
  match leaves.lookup key with
  | none => rejectf .badObject "key %q matches no declared object leaf" [.str key]
  | some leaf => do
      let l ← annotate "key %q" [.str key] (decodeJSONValue raw leaf.valueType)
      .ok (.leaf l)

/-- The members of a JSON object as a `map[string]json.RawMessage`: a repeated name keeps its last
value. -/
def rawMembers (members : List (Bytes × Token)) : SortedMap Bytes Token :=
  .ofList (members.filterMap fun m => (Json.unquote m.1).map fun key => (key, m.2))

/-- `decodeJSONObject`. -/
def decodeJSONObject (raw : Token) (leaves : Leaves) : Except PayloadError Value :=
  match raw with
  | .object _ members => do
      let obj := rawMembers members
      if obj.entries = [] then rejectf .badObject "object-aggregation document is empty" []
      -- The source ranges over a map; which of several bad keys it names is arbitrary.
      else do
        let entries ← obj.traverse (decodeJSONEntry leaves)
        .ok (.object entries)
  | _ =>
    rejectf .badObject "JSON value %s where an object-aggregation document was expected"
      [.str (clip raw.raw)]

/-! ## The envelope -/

/-- The members `v` and `t` of the envelope. -/
structure JsonEnvelope where
  v : Option Token := none
  t : Option Token := none

def envelopeFields : List (StructField JsonEnvelope) :=
  [⟨utf8 "v", fun env raw => some { env with v := some raw }⟩,
    ⟨utf8 "t", fun env raw => some { env with t := some raw }⟩]

/-- Failures of `t` are timestamp problems, whatever the token was. -/
def parseJSONTimestamp (raw : Token) : Except PayloadError Time :=
  (decodeJSONDateTime raw).mapError fun e =>
    match e with
    | .reject r =>
      if r.reason ≠ .badTimestamp then .reject ⟨.badTimestamp, ⟨"\"t\"", []⟩ :: r.detail⟩
      else .reject r
    | .plain f => .plain f

/-- `decodeJSONEnvelope`. -/
def decodeJSONEnvelope (p : Bytes) : Except PayloadError (Token × Option Time) :=
  match (Json.scanDocument p).bind (Json.decodeStruct envelopeFields false {}) with
  | none => rejectf .malformed "invalid JSON document: %v" [.err]
  | some env =>
    match env.v with
    | none => rejectf .noValue "JSON document has no \"v\" member" []
    | some v =>
      match env.t with
      | none => .ok (v, none)
      | some t => do
          let ts ← parseJSONTimestamp t
          .ok (v, some ts)

/-! ## The encoder -/

def maxSafeJSONInt : Int := 2 ^ 53

/-- A long integer as a number where doubles are exact, and as a decimal string beyond. -/
def jsonifyInt64 (i : Int64) : Any :=
  if i.toInt > maxSafeJSONInt ∨ i.toInt < -maxSafeJSONInt then .string (formatInt i.toInt)
  else .number (formatInt i.toInt)

/-- A scalar in JSON. -/
def jsonifyScalar (t : ScalarType) (x : t.Carrier) : Except PayloadError Any :=
  match t, x with
  | .double, f => do
      let f ← checkDouble f
      .ok (.number f.appendFloat)
  | .integer, i => .ok (.number (formatInt i.toInt))
  | .longInteger, i => .ok (jsonifyInt64 i)
  | .boolean, b => .ok (.bool b)
  | .string, s => do
      let s ← checkString s
      .ok (.string s)
  | .binaryBlob, data => .ok (.string (Base64.encodeToString data))
  | .dateTime, ts => do
      let ts ← checkDateTime ts
      .ok (.string ts.formatMilli)

/-- A scalar or an array. -/
def jsonifyLeaf : Leaf → Except PayloadError Any
  | .scalar t x => jsonifyScalar t x
  | .array t xs => do
      let elems ← collectArray xs (jsonifyScalar t)
      .ok (.array elems)

/-- A member of an object. -/
def jsonifyEntry (key : Bytes) : Entry → Except PayloadError Any
  | .nested _ => rejectf .badObject "key %q: nested objects are not encodable" [.str key]
  | .leaf l => annotate "key %q" [.str key] (jsonifyLeaf l)

/-- `jsonifyValue`; `json.Marshal` writes the keys of a map in order. -/
def jsonifyValue : Value → Except PayloadError Any
  | .leaf l => jsonifyLeaf l
  | .object entries =>
    if entries.entries = [] then rejectf .badObject "object-aggregation document is empty" []
    else do
      let members ← entries.traverse jsonifyEntry
      .ok (.object members.entries)

/-- `encodeJSON`: the document `v`, then `t`. -/
def encodeJSON (v : Value) (ts : Option Time) : Except PayloadError Bytes := do
  let jv ← jsonifyValue v
  match ts with
  | none => .ok (Json.marshal true (.object [(utf8 "v", jv)]))
  | some ts => do
      let t ← checkDateTime ts
      .ok (Json.marshal true (.object [(utf8 "v", jv), (utf8 "t", .string t.formatMilli)]))

end Astrate.Payload
