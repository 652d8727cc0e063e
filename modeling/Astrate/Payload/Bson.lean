import Astrate.GoLib.Bson
import Astrate.Payload.Json

/-!
# The BSON profile

`pkg/payload/bson.go`: decoding raw values of a BSON driver against a declared type, and the
hand-written encoder, which appends elements to a buffer and patches the length prefix of a document
once its end is known.
-/

set_option autoImplicit false

namespace Astrate.Payload

open Astrate.GoLib
open Astrate.GoLib.Bson
open Astrate.InterfaceSchema (ValueType CompiledMapping)

section Decode

variable (d : Driver)

/-! ## Decoding -/

/-- The raw `v` of an envelope and its timestamp. -/
def decodeBSONEnvelope (p : Bytes) : Except PayloadError (RawValue × Option Time) :=
  if p.length < 5 ∨ readLE (p.take 4) ≠ p.length then
    rejectf .malformed "BSON length prefix does not match the %d byte payload" [.int p.length]
  else if !d.validate p then rejectf .malformed "invalid BSON document: %v" [.err]
  else
    match d.lookupErr p (utf8 "v") with
    | none => rejectf .noValue "BSON document has no \"v\" element" []
    | some v =>
      match d.lookupErr p (utf8 "t") with
      | none => .ok (v, none)
      | some tRaw =>
        match d.dateTimeOK tRaw with
        | none =>
          rejectf .badTimestamp "BSON \"t\" element is %s, want UTC datetime"
            [.str (d.typeName tRaw.type)]
        | some ms => do
            let ts ← dateTimeFromMillis ms
            .ok (v, some ts)

/-- A value of a type that does not coerce to the declared one. -/
def bsonMismatch {α : Type} (rv : RawValue) (vt : ValueType) : Except PayloadError α :=
  rejectf .typeMismatch "BSON %s does not coerce to %s"
    [.str (d.typeName rv.type), .str (utf8 vt.wire)]

/-- `decodeBSONValue` for a scalar type. -/
def decodeBSONScalar (t : ScalarType) (rv : RawValue) : Except PayloadError t.Carrier :=
  match t with
  | .double =>
    if rv.type = typeDouble then checkDouble ((d.doubleOK rv).getD ⟨0⟩)
    -- An `int32` always widens without loss.
    else if rv.type = typeInt32 then .ok (Float64.ofInt ((d.int32OK rv).getD 0).toInt)
    else if rv.type = typeInt64 then doubleFromInt64 ((d.int64OK rv).getD 0)
    else bsonMismatch d rv .double
  | .integer =>
    if rv.type = typeInt32 then .ok ((d.int32OK rv).getD 0)
    else if rv.type = typeInt64 then int32FromInt64 ((d.int64OK rv).getD 0)
    else if rv.type = typeDouble then int32FromFloat64 ((d.doubleOK rv).getD ⟨0⟩)
    else bsonMismatch d rv .integer
  | .longInteger =>
    if rv.type = typeInt64 then .ok ((d.int64OK rv).getD 0)
    else if rv.type = typeInt32 then .ok (Int64.ofInt ((d.int32OK rv).getD 0).toInt)
    else bsonMismatch d rv .longInteger
  | .boolean =>
    match d.booleanOK rv with
    | some b => .ok b
    | none => bsonMismatch d rv .boolean
  | .string =>
    match d.stringValueOK rv with
    | some s => checkString s
    | none => bsonMismatch d rv .string
  | .binaryBlob =>
    match d.binaryOK rv with
    | some (_, data) => .ok data
    | none => bsonMismatch d rv .binaryBlob
  | .dateTime =>
    match d.dateTimeOK rv with
    | some ms => dateTimeFromMillis ms
    | none => bsonMismatch d rv .dateTime

/-- `decodeBSONValue`. -/
def decodeBSONValue (rv : RawValue) (vt : ValueType) : Except PayloadError Leaf :=
  if vt.isArray then
    match d.arrayOK rv with
    | none => bsonMismatch d rv vt
    | some arr =>
      match d.values arr with
      | none => rejectf .malformed "invalid BSON array: %v" [.err]
      | some vals => do
          let xs ← collectArray vals (decodeBSONScalar d (scalarOf vt))
          .ok (.array (scalarOf vt) xs)
  else do
    let x ← decodeBSONScalar d (scalarOf vt) rv
    .ok (.scalar (scalarOf vt) x)

/-- The loop over the elements of an object-aggregation document; `out` is the map so far. -/
def decodeBSONElements (leaves : Leaves) :
    List Bytes → SortedMap Bytes Entry → Except PayloadError (SortedMap Bytes Entry)
  | [], out => .ok out
  | el :: els, out =>
    match d.keyErr el with
    | none => rejectf .malformed "invalid BSON object element: %v" [.err]
    | some key =>
      match leaves.lookup key with
      | none => rejectf .badObject "key %q matches no declared object leaf" [.str key]
      | some leaf =>
        if (out.lookup key).isSome then rejectf .badObject "duplicate object key %q" [.str key]
        else
          match d.valueErr el with
          | none => rejectf .malformed "invalid BSON object element %q: %v" [.str key, .err]
          | some ev => do
              let l ← annotate "key %q" [.str key] (decodeBSONValue d ev leaf.valueType)
              decodeBSONElements leaves els (out.insert key (.leaf l))

/-- `decodeBSONObject`. -/
def decodeBSONObject (rv : RawValue) (leaves : Leaves) : Except PayloadError Value :=
  match d.documentOK rv with
  | none =>
    rejectf .badObject "BSON %s where an object-aggregation document was expected"
      [.str (d.typeName rv.type)]
  | some doc =>
    match d.elements doc with
    | none => rejectf .malformed "invalid BSON object document: %v" [.err]
    | some elems =>
      if elems = [] then rejectf .badObject "object-aggregation document is empty" []
      else do
        let out ← decodeBSONElements d leaves elems SortedMap.empty
        .ok (.object out)

end Decode

/-! ## Encoding -/

/-- One element prelude: the type octet and the name with its terminator. -/
def appendBSONHeader (dst : Bytes) (typ : UInt8) (key : Bytes) : Bytes :=
  dst ++ typ :: (key ++ [0])

def appendBSONMillis (dst : Bytes) (ms : Int) : Bytes :=
  dst ++ leBytes 8 (Int64.ofInt ms).toUInt64.toNat

/-- Append the terminator and patch the length prefix at `start`. -/
def finishBSONDoc (doc : Bytes) (start : Nat) : Except PayloadError Bytes :=
  let doc := doc ++ [0]
  let size := doc.length - start
  if size > maxInt32 then
    .error (.plain ⟨"payload: BSON document of %d bytes overflows the int32 length prefix", [.int size]⟩)
  else .ok (doc.take start ++ leBytes 4 size ++ doc.drop (start + 4))

/-- `appendBSONElement` for a scalar. -/
def appendBSONScalar (dst key : Bytes) (t : ScalarType) (x : t.Carrier) : Except PayloadError Bytes :=
  match t, x with
  | .double, f => do
      let f ← checkDouble f
      .ok (appendBSONHeader dst typeDouble key ++ leBytes 8 f.bits.toNat)
  | .integer, i => .ok (appendBSONHeader dst typeInt32 key ++ leBytes 4 i.toUInt32.toNat)
  | .longInteger, i => .ok (appendBSONHeader dst typeInt64 key ++ leBytes 8 i.toUInt64.toNat)
  | .boolean, b => .ok (appendBSONHeader dst typeBoolean key ++ [if b then 1 else 0])
  | .string, s => do
      let s ← checkString s
      .ok (appendBSONHeader dst typeString key ++ leBytes 4 (s.length + 1) ++ s ++ [0])
  | .binaryBlob, data =>
    if data.length > maxInt32 then
      rejectf .valueTooLarge "binary blob of %d bytes overflows the int32 length prefix"
        [.int data.length]
    -- The generic binary subtype is zero.
    else .ok (appendBSONHeader dst typeBinary key ++ leBytes 4 data.length ++ [0] ++ data)
  | .dateTime, ts => do
      let ts ← checkDateTime ts
      .ok (appendBSONMillis (appendBSONHeader dst typeDateTime key) ts.unixMilli)

/-- The elements of an array from index `i` on. -/
def appendBSONElems (t : ScalarType) : Nat → Bytes → List t.Carrier → Except PayloadError Bytes
  | _, dst, [] => .ok dst
  | i, dst, x :: xs => do
      let dst ← annotate "element %d" [.int i] (appendBSONScalar dst (formatUint i) t x)
      appendBSONElems t (i + 1) dst xs

/-- An array. -/
def appendBSONSlice (dst key : Bytes) (t : ScalarType) (xs : List t.Carrier) : Except PayloadError Bytes :=
  if xs.length > maxArrayLen then
    rejectf .valueTooLarge "array of %d elements exceeds %d element cap"
      [.int xs.length, .int maxArrayLen]
  else do
    let dst := appendBSONHeader dst typeArray key
    let doc ← appendBSONElems t 0 (dst ++ [0, 0, 0, 0]) xs
    finishBSONDoc doc dst.length

/-- A scalar or an array. -/
def appendBSONLeaf (dst key : Bytes) : Leaf → Except PayloadError Bytes
  | .scalar t x => appendBSONScalar dst key t x
  | .array t xs => appendBSONSlice dst key t xs

/-- The entries of an object, in the order of their keys. -/
def appendBSONEntries : Bytes → List (Bytes × Entry) → Except PayloadError Bytes
  | dst, [] => .ok dst
  | dst, (key, entry) :: es =>
    if key = [] ∨ 0 ∈ key then rejectf .badObject "invalid object key %q" [.str key]
    else
      match entry with
      | .nested _ => rejectf .badObject "key %q: nested objects are not encodable" [.str key]
      | .leaf l => do
          let dst ← annotate "key %q" [.str key] (appendBSONLeaf dst key l)
          appendBSONEntries dst es

/-- An object. -/
def appendBSONObject (dst key : Bytes) (obj : SortedMap Bytes Entry) : Except PayloadError Bytes :=
  if obj.entries = [] then rejectf .badObject "object-aggregation document is empty" []
  else do
    let dst := appendBSONHeader dst typeEmbeddedDocument key
    let doc ← appendBSONEntries (dst ++ [0, 0, 0, 0]) obj.entries
    finishBSONDoc doc dst.length

/-- `appendBSONElement`. -/
def appendBSONElement (dst key : Bytes) : Value → Except PayloadError Bytes
  | .leaf l => appendBSONLeaf dst key l
  | .object entries => appendBSONObject dst key entries

/-- `encodeBSON`: the document `v`, then `t`. -/
def encodeBSON (v : Value) (ts : Option Time) : Except PayloadError Bytes := do
  let doc ← appendBSONElement [0, 0, 0, 0] (utf8 "v") v
  match ts with
  | none => finishBSONDoc doc 0
  | some ts => do
      let t ← checkDateTime ts
      finishBSONDoc (appendBSONMillis (appendBSONHeader doc typeDateTime (utf8 "t")) t.unixMilli) 0

end Astrate.Payload
