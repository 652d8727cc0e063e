import Astrate.GoLib.Float64
import Astrate.GoLib.SortedMap
import Astrate.GoLib.Time
import Astrate.GoLib.Utf8
import Astrate.InterfaceSchema.Types

/-!
# Payload values

The closed set of payload values, the reject reasons and the coercion table of
`pkg/payload/value.go`. A value carries its type: `Leaf` is a scalar or a homogeneous array of one of
the seven scalar types, with elements of that type's Go representation, and an object is a map of
entries.

`Leaf.Bounded` collects the limits of decoded values: finite doubles, UTF-8 strings of at most 64 KiB,
arrays of at most 1024 elements, datetimes of the years 1 to 9999 in whole milliseconds.
-/

set_option autoImplicit false

namespace Astrate.Payload

open Astrate.GoLib
open Astrate.InterfaceSchema (ValueType)

/-! ## Formats and rejections -/

/-- The detected wire format of a payload. -/
inductive Format where
  | invalid
  | empty
  | bson
  | json
  deriving DecidableEq, Repr

/-- Why a payload was rejected; `none` is the zero value, carried by no error. -/
inductive RejectReason where
  | none
  | tooLarge
  | unknownFormat
  | malformed
  | noValue
  | badTimestamp
  | typeMismatch
  | valueTooLarge
  | badObject
  | unsetNotAllowed
  | missingRequired
  deriving DecidableEq, Repr

/-- A rejection. The detail is the parts of its text, joined by `": "`. -/
structure RejectError where
  reason : RejectReason
  detail : List FmtError
  deriving DecidableEq, Repr

/-- An error of the codec: a rejection, or a plain error that signals a bug of the caller. -/
inductive PayloadError where
  | reject (e : RejectError)
  | plain (e : FmtError)
  deriving DecidableEq, Repr

/-- `ReasonOf`. -/
def PayloadError.reasonOf : PayloadError → RejectReason
  | .reject e => e.reason
  | .plain _ => .none

/-- A rejection with a formatted text. -/
def rejectf {α : Type} (reason : RejectReason) (format : String) (args : List FmtArg) : Except PayloadError α :=
  .error (.reject ⟨reason, [⟨format, args⟩]⟩)

/-- Prefix the detail of a rejection; other errors pass through. -/
def annotate {α : Type} (format : String) (args : List FmtArg) (x : Except PayloadError α) :
    Except PayloadError α :=
  x.mapError fun e =>
    match e with
    | .reject r => .reject ⟨r.reason, ⟨format, args⟩ :: r.detail⟩
    | .plain f => .plain f

/-! ## Values -/

/-- The scalar types. -/
inductive ScalarType where
  | double
  | integer
  | boolean
  | longInteger
  | string
  | binaryBlob
  | dateTime
  deriving DecidableEq, Repr

/-- The Go representation of a scalar type. -/
abbrev ScalarType.Carrier : ScalarType → Type
  | .double => Float64
  | .integer => Int32
  | .boolean => Bool
  | .longInteger => Int64
  | .string => Bytes
  | .binaryBlob => Bytes
  | .dateTime => Time

instance (t : ScalarType) : DecidableEq t.Carrier := by
  cases t <;> infer_instance

/-- The value type of scalars of this type. -/
def ScalarType.valueType : ScalarType → ValueType
  | .double => .double
  | .integer => .integer
  | .boolean => .boolean
  | .longInteger => .longInteger
  | .string => .string
  | .binaryBlob => .binaryBlob
  | .dateTime => .dateTime

/-- The value type of arrays of this type. -/
def ScalarType.arrayType : ScalarType → ValueType
  | .double => .doubleArray
  | .integer => .integerArray
  | .boolean => .booleanArray
  | .longInteger => .longIntegerArray
  | .string => .stringArray
  | .binaryBlob => .binaryBlobArray
  | .dateTime => .dateTimeArray

/-- The scalar type of a value type, or of its elements. -/
def scalarOf : ValueType → ScalarType
  | .double | .doubleArray => .double
  | .integer | .integerArray => .integer
  | .boolean | .booleanArray => .boolean
  | .longInteger | .longIntegerArray => .longInteger
  | .string | .stringArray => .string
  | .binaryBlob | .binaryBlobArray => .binaryBlob
  | .dateTime | .dateTimeArray => .dateTime

/-- A scalar or a homogeneous array. -/
inductive Leaf where
  | scalar (t : ScalarType) (x : t.Carrier)
  | array (t : ScalarType) (xs : List t.Carrier)
  deriving DecidableEq

/-- The declared type a leaf is a value of. -/
def Leaf.valueType : Leaf → ValueType
  | .scalar t _ => t.valueType
  | .array t _ => t.arrayType

/-- An entry of an object: a leaf, or an object inside it with its entries in the order of their
keys. No decoder builds a nested object and the encoders refuse it. -/
inductive Entry where
  | leaf (l : Leaf)
  | nested (entries : List (Bytes × Entry))

mutual

/-- Entries can be compared. -/
def Entry.decEq : (a b : Entry) → Decidable (a = b)
  | .leaf l, .leaf l' => decidable_of_iff (l = l') (by rw [Entry.leaf.injEq])
  | .nested es, .nested es' =>
    match Entry.decEqEntries es es' with
    | .isTrue h => .isTrue (h ▸ rfl)
    | .isFalse h => .isFalse fun heq => h (Entry.nested.inj heq)
  | .leaf _, .nested _ => .isFalse Entry.noConfusion
  | .nested _, .leaf _ => .isFalse Entry.noConfusion

/-- So can lists of them. -/
def Entry.decEqEntries : (as bs : List (Bytes × Entry)) → Decidable (as = bs)
  | [], [] => .isTrue rfl
  | (k, e) :: es, (k', e') :: es' =>
    match instDecidableEqList k k', Entry.decEq e e', Entry.decEqEntries es es' with
    | .isTrue hk, .isTrue he, .isTrue hes => .isTrue (hk ▸ he ▸ hes ▸ rfl)
    | .isFalse h, _, _ => .isFalse fun heq => h (Prod.mk.inj (List.cons.inj heq).1).1
    | _, .isFalse h, _ => .isFalse fun heq => h (Prod.mk.inj (List.cons.inj heq).1).2
    | _, _, .isFalse h => .isFalse fun heq => h (List.cons.inj heq).2
  | [], _ :: _ => .isFalse (List.cons_ne_nil _ _).symm
  | _ :: _, [] => .isFalse (List.cons_ne_nil _ _)

end

instance : DecidableEq Entry := Entry.decEq

/-- A payload value. -/
inductive Value where
  | leaf (l : Leaf)
  | object (entries : SortedMap Bytes Entry)
  deriving DecidableEq

/-- A decoded payload; no value is a property unset. -/
structure DecodedPayload where
  value : Option Value
  timestamp : Option Time
  format : Format
  deriving DecidableEq

/-- The payload unsets a property. -/
def DecodedPayload.isUnset (d : DecodedPayload) : Bool := d.value.isNone

/-! ## Limits -/

/-- The cap on payloads by default. -/
def defaultMaxSize : Nat := 64 * 1024

/-- The cap on strings, in octets. -/
def maxStringLen : Nat := 64 * 1024

/-- The cap on arrays. -/
def maxArrayLen : Nat := 1024

/-- The beginning of year 1. -/
def minDateTimeMillis : Int := -62135596800000

/-- The end of year 9999. -/
def maxDateTimeMillis : Int := 253402300799999

/-- `MinDateTime`, 0001-01-01T00:00:00Z. -/
def minDateTime : Time := .ofUnixMilli minDateTimeMillis

/-- `MaxDateTime`, 9999-12-31T23:59:59.999Z. -/
def maxDateTime : Time := .ofUnixMilli maxDateTimeMillis

/-- The bounds as the error texts print them. -/
def dateTimeBounds : List FmtArg :=
  [.str (utf8 "0001-01-01T00:00:00Z"), .str (utf8 "9999-12-31T23:59:59Z")]

/-! ## Coercions -/

/-- A double is finite. -/
def checkDouble (f : Float64) : Except PayloadError Float64 :=
  if f.isNaN || f.isInf then rejectf .typeMismatch "double value is %v" [.float f.bits] else .ok f

/-- An integer widens to a double only when nothing is lost. -/
def doubleFromInt64 (i : Int64) : Except PayloadError Float64 :=
  let f := Float64.ofInt i.toInt
  if f.ltInt (-2 ^ 63) || !f.ltInt (2 ^ 63) || f.toInt != i.toInt then
    rejectf .typeMismatch "integer %d does not widen losslessly to double" [.int i.toInt]
  else .ok f

/-- An integer fits into 32 bits. -/
def int32FromInt64 (i : Int64) : Except PayloadError Int32 :=
  if i.toInt < -2 ^ 31 ∨ 2 ^ 31 - 1 < i.toInt then
    rejectf .typeMismatch "integer %d overflows int32" [.int i.toInt]
  else .ok (Int32.ofInt i.toInt)

/-- A double becomes an `int32` only when it is integral and in range. -/
def int32FromFloat64 (f : Float64) : Except PayloadError Int32 :=
  -- NaN differs from its truncation and infinities are out of range.
  if f.isNaN || f.isInf || !f.integral || f.ltInt (-2 ^ 31) || !f.leInt (2 ^ 31 - 1) then
    rejectf .typeMismatch "number %v does not fit int32 exactly" [.float f.bits]
  else .ok (Int32.ofInt f.toInt)

/-- A string is short and valid UTF-8. -/
def checkString (s : Bytes) : Except PayloadError Bytes :=
  if s.length > maxStringLen then
    rejectf .valueTooLarge "string of %d bytes exceeds %d byte cap" [.int s.length, .int maxStringLen]
  else if validString s then .ok s
  else rejectf .typeMismatch "string is not valid UTF-8" []

/-- A datetime is within the bounds. -/
def dateTimeFromMillis (ms : Int64) : Except PayloadError Time :=
  if ms.toInt < minDateTimeMillis ∨ maxDateTimeMillis < ms.toInt then
    rejectf .badTimestamp "epoch-ms timestamp %d outside [%s, %s]" (.int ms.toInt :: dateTimeBounds)
  else .ok (.ofUnixMilli ms.toInt)

/-- The window, and the cut to the millisecond. -/
def checkDateTime (t : Time) : Except PayloadError Time :=
  if t.nanos < minDateTime.nanos ∨ maxDateTime.nanos < t.nanos then
    rejectf .badTimestamp "timestamp %s outside [%s, %s]" (.time t.nanos :: dateTimeBounds)
  else .ok t.truncateMilli

/-! ## Arrays -/

/-- The loop of `collectArray` from index `i` on. -/
def collectElems {α β : Type} (elem : α → Except PayloadError β) :
    Nat → List α → Except PayloadError (List β)
  | _, [] => .ok []
  | i, a :: as => do
      let b ← annotate "element %d" [.int i] (elem a)
      let bs ← collectElems elem (i + 1) as
      .ok (b :: bs)

/-- The elements of an array that is not too long. -/
def collectArray {α β : Type} (as : List α) (elem : α → Except PayloadError β) : Except PayloadError (List β) :=
  if as.length > maxArrayLen then
    rejectf .valueTooLarge "array of %d elements exceeds %d element cap"
      [.int as.length, .int maxArrayLen]
  else collectElems elem 0 as

end Astrate.Payload
