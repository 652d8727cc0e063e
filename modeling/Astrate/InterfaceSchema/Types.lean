import Astrate.GoLib.Bytes

/-!
# Attribute types of interface definitions

The enumerations of `pkg/interfaceschema/types.go` with their wire strings, and the parsed
definition types `Interface` and `Mapping` of `pkg/interfaceschema/parse.go`. Every enumeration is
given by the list of its values in declaration order together with a wire string for each; the
parser of an enumeration looks the string up in that list (`parseWire`).
-/

set_option autoImplicit false

namespace Astrate.InterfaceSchema

open Astrate.GoLib

/-! ## Enumerations -/

/-- Datastream (time-ordered values) or properties (retained key/value state). -/
inductive InterfaceType where
  | datastream
  | properties
  deriving DecidableEq, Repr

/-- The side that publishes on an interface. -/
inductive Ownership where
  | device
  | server
  deriving DecidableEq, Repr

/-- One value per publish, or one document of last-level keys per publish. -/
inductive Aggregation where
  | individual
  | object
  deriving DecidableEq, Repr

/-- Delivery guarantee of a datastream mapping. -/
inductive Reliability where
  | unreliable
  | guaranteed
  | unique
  deriving DecidableEq, Repr

/-- What happens to datastream values that cannot be delivered at once. -/
inductive Retention where
  | discard
  | volatile
  | stored
  deriving DecidableEq, Repr

/-- Whether stored datastream values expire. -/
inductive DatabaseRetentionPolicy where
  | noTTL
  | useTTL
  deriving DecidableEq, Repr

/-- The seven scalar value types and their array counterparts. -/
inductive ValueType where
  | double
  | integer
  | boolean
  | longInteger
  | string
  | binaryBlob
  | dateTime
  | doubleArray
  | integerArray
  | booleanArray
  | longIntegerArray
  | stringArray
  | binaryBlobArray
  | dateTimeArray
  deriving DecidableEq, Repr

/-! ## Wire strings -/

def InterfaceType.wire : InterfaceType → String
  | .datastream => "datastream"
  | .properties => "properties"

def Ownership.wire : Ownership → String
  | .device => "device"
  | .server => "server"

def Aggregation.wire : Aggregation → String
  | .individual => "individual"
  | .object => "object"

def Reliability.wire : Reliability → String
  | .unreliable => "unreliable"
  | .guaranteed => "guaranteed"
  | .unique => "unique"

def Retention.wire : Retention → String
  | .discard => "discard"
  | .volatile => "volatile"
  | .stored => "stored"

def DatabaseRetentionPolicy.wire : DatabaseRetentionPolicy → String
  | .noTTL => "no_ttl"
  | .useTTL => "use_ttl"

def ValueType.wire : ValueType → String
  | .double => "double"
  | .integer => "integer"
  | .boolean => "boolean"
  | .longInteger => "longinteger"
  | .string => "string"
  | .binaryBlob => "binaryblob"
  | .dateTime => "datetime"
  | .doubleArray => "doublearray"
  | .integerArray => "integerarray"
  | .booleanArray => "booleanarray"
  | .longIntegerArray => "longintegerarray"
  | .stringArray => "stringarray"
  | .binaryBlobArray => "binaryblobarray"
  | .dateTimeArray => "datetimearray"

/-- Look a wire string up among the values of an enumeration; `what` names the enumeration in the
error. -/
def parseWire {E : Type} (what : String) (values : List E) (wire : E → String) (s : Bytes) :
    Except FmtError E :=
  match values.find? fun v => utf8 (wire v) = s with
  | some v => .ok v
  | none => errorf ("unknown " ++ what ++ " %q") [.str s]

def parseInterfaceType : Bytes → Except FmtError InterfaceType :=
  parseWire "interface type" [.datastream, .properties] InterfaceType.wire

def parseOwnership : Bytes → Except FmtError Ownership :=
  parseWire "ownership" [.device, .server] Ownership.wire

def parseAggregation : Bytes → Except FmtError Aggregation :=
  parseWire "aggregation" [.individual, .object] Aggregation.wire

def parseReliability : Bytes → Except FmtError Reliability :=
  parseWire "reliability" [.unreliable, .guaranteed, .unique] Reliability.wire

def parseRetention : Bytes → Except FmtError Retention :=
  parseWire "retention" [.discard, .volatile, .stored] Retention.wire

def parseDatabaseRetentionPolicy : Bytes → Except FmtError DatabaseRetentionPolicy :=
  parseWire "database_retention_policy" [.noTTL, .useTTL] DatabaseRetentionPolicy.wire

/-- The value types in the order of the source's name table. -/
def valueTypes : List ValueType :=
  [.double, .integer, .boolean, .longInteger, .string, .binaryBlob, .dateTime,
    .doubleArray, .integerArray, .booleanArray, .longIntegerArray, .stringArray,
    .binaryBlobArray, .dateTimeArray]

def parseValueType : Bytes → Except FmtError ValueType :=
  parseWire "value type" valueTypes ValueType.wire

/-- The MQTT QoS octet of a reliability. -/
def Reliability.qos : Reliability → Nat
  | .unreliable => 0
  | .guaranteed => 1
  | .unique => 2

/-- Array value types. -/
def ValueType.isArray : ValueType → Bool
  | .doubleArray | .integerArray | .booleanArray | .longIntegerArray
  | .stringArray | .binaryBlobArray | .dateTimeArray => true
  | _ => false

/-! ## Parsed definitions -/

/-- One parsed endpoint declaration. -/
structure Mapping where
  endpoint : Bytes
  type : ValueType
  reliability : Reliability := .unreliable
  retention : Retention := .discard
  expiry : Int := 0
  databaseRetentionPolicy : DatabaseRetentionPolicy := .noTTL
  databaseRetentionTTL : Int := 0
  allowUnset : Bool := false
  explicitTimestamp : Bool := false
  required : Bool := false
  encrypted : Bool := false
  description : Bytes := []
  doc : Bytes := []
  deriving DecidableEq, Repr

/-- A parsed interface definition. -/
structure Interface where
  name : Bytes
  major : Int
  minor : Int
  type : InterfaceType
  ownership : Ownership
  aggregation : Aggregation
  description : Bytes := []
  doc : Bytes := []
  mappings : List Mapping
  deriving DecidableEq, Repr

end Astrate.InterfaceSchema
