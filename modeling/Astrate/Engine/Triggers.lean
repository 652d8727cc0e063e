import Astrate.Engine.Data

/-!
# Trigger conditions

`internal/engine/triggers/match.go`: the condition of a trigger is decoded, validated like upstream
does, and compiled into a matcher for data events or for device events. Violations are collected field
by field. The comparison of values is left to a port, for it has no part in where an event comes from.
-/

set_option autoImplicit false

namespace Astrate.Triggers

open Astrate.GoLib
open Astrate.GoLib.Json (StructField Generic)
open Astrate.InterfaceSchema (interfaceNameOK splitEndpoint stringField pointerField)
open Astrate.Engine (DataCondition DataMatcher anyToken deviceIDMatches pathMatches)

/-- `simpleTriggerConfig`. -/
structure SimpleTriggerConfig where
  type : Bytes := []
  on : Bytes := []
  groupName : Bytes := []
  deviceID : Bytes := []
  interfaceName : Option Bytes := none
  interfaceMajor : Option Int := none
  matchPath : Bytes := []
  valueMatchOperator : Bytes := []
  knownValue : Bytes := []

/-- A field that keeps the text of its value. -/
def rawField {σ : Type} (name : String) (set : σ → Bytes → σ) : StructField σ where
  name := utf8 name
  set s t := some (set s t.raw)

/-- The members of a trigger. -/
def simpleTriggerFields : List (StructField SimpleTriggerConfig) :=
  [stringField "type" (·.type) fun c v => { c with type := v },
    stringField "on" (·.on) fun c v => { c with on := v },
    stringField "group_name" (·.groupName) fun c v => { c with groupName := v },
    stringField "device_id" (·.deviceID) fun c v => { c with deviceID := v },
    pointerField "interface_name" (Json.decodeString []) fun c v => { c with interfaceName := v },
    pointerField "interface_major" (Json.decodeInt 0) fun c v => { c with interfaceMajor := v },
    stringField "match_path" (·.matchPath) fun c v => { c with matchPath := v },
    stringField "value_match_operator" (·.valueMatchOperator)
      fun c v => { c with valueMatchOperator := v },
    rawField "known_value" fun c v => { c with knownValue := v }]

/-! ## Conditions -/

/-- The conditions of a device trigger. -/
inductive DeviceCondition where
  | deviceRegistered
  | deviceConnected
  | deviceDisconnected
  | deviceDeletionStarted
  | deviceDeletionFinished
  | deviceEmptyCacheReceived
  | deviceError
  | incomingIntrospection
  | interfaceAdded
  | interfaceRemoved
  | interfaceMinorUpdated
  deriving DecidableEq, Repr

/-- `dataOns`. -/
def dataOns : List (Bytes × DataCondition) :=
  [(utf8 "incoming_data", .incomingData), (utf8 "value_change", .valueChange),
    (utf8 "value_change_applied", .valueChangeApplied), (utf8 "path_created", .pathCreated),
    (utf8 "path_removed", .pathRemoved), (utf8 "value_stored", .valueStored)]

/-- The keys of `deviceOns`. -/
def deviceOns : List (Bytes × DeviceCondition) :=
  [(utf8 "device_registered", .deviceRegistered), (utf8 "device_connected", .deviceConnected),
    (utf8 "device_disconnected", .deviceDisconnected),
    (utf8 "device_deletion_started", .deviceDeletionStarted),
    (utf8 "device_deletion_finished", .deviceDeletionFinished),
    (utf8 "device_empty_cache_received", .deviceEmptyCacheReceived),
    (utf8 "device_error", .deviceError), (utf8 "incoming_introspection", .incomingIntrospection),
    (utf8 "interface_added", .interfaceAdded), (utf8 "interface_removed", .interfaceRemoved),
    (utf8 "interface_minor_updated", .interfaceMinorUpdated)]

/-- The values of `deviceOns`. -/
def DeviceCondition.evaluated : DeviceCondition → Bool
  | .deviceEmptyCacheReceived | .interfaceMinorUpdated => false
  | _ => true

/-- `introspectionOns`. -/
def DeviceCondition.onIntrospection : DeviceCondition → Bool
  | .interfaceAdded | .interfaceRemoved | .interfaceMinorUpdated => true
  | _ => false

def valueOperators : List Bytes :=
  [anyToken, utf8 "==", utf8 "!=", utf8 ">", utf8 ">=", utf8 "<", utf8 "<=", utf8 "contains",
    utf8 "not_contains"]

def anyPath : Bytes := utf8 "/*"

/-! ## Matchers -/

/-- `dataMatcher`: the filters of the gate, with the operator and the value to compare with. -/
structure ValueMatcher extends DataMatcher where
  operator : Bytes
  known : Option Generic

/-- `deviceMatcher`. -/
structure DeviceMatcher where
  on : DeviceCondition
  deviceID : Bytes
  iface : Bytes
  major : Option Int
  evaluated : Bool
  deriving DecidableEq

/-- A trigger compiled from one condition. -/
inductive Condition where
  | data (m : ValueMatcher)
  | device (m : DeviceMatcher)

/-- Why a condition is refused. -/
inductive ConditionError where
  /-- The text is not a condition. -/
  | parse
  /-- `unknown trigger type %q`. -/
  | unknownType (type : Bytes)
  /-- `fieldErrs`, in the order they are found. -/
  | fields (errs : List (String × String))
  /-- `known_value does not parse`. -/
  | knownValue
  deriving DecidableEq

/-- One violation, if there is one. -/
def violation (bad : Bool) (field message : String) : List (String × String) :=
  if bad then [(field, message)] else []

/-- `isExtendedDeviceID`. -/
def isExtendedDeviceID (s : Bytes) : Bool := s.length > DeviceID.encodedLen && s.all Base64.urlByte

/-- The message for a device ID that is neither the wildcard nor an identifier. -/
def deviceIDMessage (deviceID : Bytes) : String :=
  if isExtendedDeviceID deviceID then "is too long, device id must be 128 bits"
  else "is not a valid device id"

def deviceFilterErrs (deviceID groupName : Bytes) : List (String × String) :=
  violation (!deviceID.isEmpty && !groupName.isEmpty) "group_name"
      "must not be defined if device_id is defined" ++
    violation (!deviceID.isEmpty && deviceID != anyToken && (DeviceID.parse deviceID).toOption.isNone)
      "device_id" (deviceIDMessage deviceID)

/-- The violations of a data trigger. -/
def dataErrs (c : SimpleTriggerConfig) : List (String × String) :=
  let iface := c.interfaceName.getD []
  let op := c.valueMatchOperator
  violation c.on.isEmpty "on" "can't be blank" ++
    violation (!c.on.isEmpty && (dataOns.lookup c.on).isNone) "on" "is invalid" ++
    violation iface.isEmpty "interface_name" "can't be blank" ++
    violation c.matchPath.isEmpty "match_path" "can't be blank" ++
    violation op.isEmpty "value_match_operator" "can't be blank" ++
    violation (!op.isEmpty && !valueOperators.contains op) "value_match_operator" "is invalid" ++
    (if iface = anyToken then
      if c.on ≠ utf8 "incoming_data" then [("on", "must be incoming_data when interface_name is *")]
      else violation (c.matchPath != anyPath) "match_path" "must be /* when interface_name is *"
    else
      violation (!iface.isEmpty && !interfaceNameOK iface) "interface_name" "has invalid format" ++
        violation c.interfaceMajor.isNone "interface_major" "can't be blank") ++
    deviceFilterErrs c.deviceID c.groupName ++
    (if c.matchPath = anyPath then
      violation (op != anyToken && !op.isEmpty) "value_match_operator" "must be * when match_path is /*"
    else
      -- the pattern of match paths is that of endpoints
      violation (!c.matchPath.isEmpty && (splitEndpoint c.matchPath).toOption.isNone) "match_path"
        "has invalid format") ++
    violation (op != anyToken && !op.isEmpty && c.knownValue.isEmpty) "known_value" "can't be blank"

/-- `compileData`. -/
def compileData (c : SimpleTriggerConfig) : Except ConditionError ValueMatcher :=
  match dataErrs c, dataOns.lookup c.on with
  | [], some on =>
    let known :=
      if c.knownValue = [] then some none
      else ((Json.scanDocument c.knownValue).bind Json.decodeAny).map some
    match known with
    | none => .error .knownValue
    | some known =>
      .ok { on := on, deviceID := c.deviceID, iface := c.interfaceName.getD [],
            major := c.interfaceMajor.getD 0, anyPath := c.matchPath == anyPath,
            pathSegs := if c.matchPath = anyPath then [] else (c.matchPath.splitOn 47).tail,
            evaluated := c.groupName.isEmpty, operator := c.valueMatchOperator, known := known }
  | errs, _ => .error (.fields errs)

/-- The violations of the interface filter, which introspection triggers have. -/
def filterErrs (on : DeviceCondition) (name : Bytes) (major : Option Int) : List (String × String) :=
  if !on.onIntrospection then []
  else if name = [] then
    violation (on == .interfaceMinorUpdated) "interface_name"
        "must be set in interface_minor_updated triggers" ++
      violation major.isNone "interface_major" "can't be blank"
  else if name = anyToken then
    violation (on == .interfaceMinorUpdated) "interface_name"
      "must not be '*' in interface_minor_updated triggers"
  else
    violation (!interfaceNameOK name) "interface_name" "has invalid format" ++
      violation major.isNone "interface_major" "can't be blank"

/-- The violations of a device trigger. -/
def deviceErrs (c : SimpleTriggerConfig) : List (String × String) :=
  let on := deviceOns.lookup c.on
  let name := c.interfaceName.getD []
  violation c.on.isEmpty "on" "can't be blank" ++
    violation (!c.on.isEmpty && on.isNone) "on" "is invalid" ++
    deviceFilterErrs c.deviceID c.groupName ++
    violation (!name.isEmpty && !on.any DeviceCondition.onIntrospection) "interface_name"
      "is allowed only in if 'on' is one of interface_minor_updated, interface_removed, interface_added" ++
    (on.map fun on => filterErrs on name c.interfaceMajor).getD [] ++
    violation (on == some .incomingIntrospection && !name.isEmpty) "interface_name"
      "must not be set in incoming_introspection triggers"

/-- `compileDevice`. -/
def compileDevice (c : SimpleTriggerConfig) : Except ConditionError DeviceMatcher :=
  match deviceErrs c, deviceOns.lookup c.on with
  | [], some on =>
    let name := c.interfaceName.getD []
    .ok { on := on, deviceID := c.deviceID, iface := name,
          major := if on.onIntrospection ∧ name ≠ anyToken then c.interfaceMajor else none,
          evaluated := on.evaluated && c.groupName.isEmpty }
  | errs, _ => .error (.fields errs)

/-- `CompileSimple`. -/
def compileSimple (c : SimpleTriggerConfig) : Except ConditionError Condition :=
  if c.type = utf8 "data_trigger" then (compileData c).map .data
  else if c.type = utf8 "device_trigger" then (compileDevice c).map .device
  else .error (.unknownType c.type)

/-- `CompileCondition`, of the text of one condition. -/
def compileCondition (raw : Bytes) : Except ConditionError Condition :=
  match (Json.scanDocument raw).bind (Json.decodeStruct simpleTriggerFields false {}) with
  | none => .error .parse
  | some c => compileSimple c

/-! ## Matching -/

/-- `DataEvent`. -/
structure ValueEvent (β : Type) extends Engine.DataEvent where
  on : DataCondition
  value : β

/-- `DeviceEvent`. -/
structure DeviceEvent where
  deviceID : Bytes
  on : DeviceCondition
  iface : Bytes := []
  major : Int := 0

section

variable {β : Type} (valueMatches : Bytes → β → Option Generic → Bool)

/-- `dataMatcher.matches`. -/
def ValueMatcher.matchesEvent (m : ValueMatcher) (ev : ValueEvent β) : Bool :=
  m.evaluated && m.on = ev.on && deviceIDMatches m.deviceID ev.deviceID &&
    (m.iface = anyToken || (m.iface = ev.interface && m.major = ev.major)) &&
    (m.anyPath || pathMatches m.pathSegs ev.path) &&
    (ev.on = .pathRemoved || valueMatches m.operator ev.value m.known)

/-- One pass of the loop of `MatchesDevice`. -/
def DeviceMatcher.matchesEvent (m : DeviceMatcher) (ev : DeviceEvent) : Bool :=
  m.evaluated && m.on = ev.on && deviceIDMatches m.deviceID ev.deviceID &&
    (!m.on.onIntrospection ||
      ((m.iface = [] || m.iface = anyToken || m.iface = ev.iface) &&
        (m.major = none || m.major = some ev.major)))

/-- `MatchesData`. -/
def Condition.matchesData (ev : ValueEvent β) : Condition → Bool
  | .data m => m.matchesEvent valueMatches ev
  | .device _ => false

/-- `MatchesDevice`. -/
def Condition.matchesDevice (ev : DeviceEvent) : Condition → Bool
  | .data _ => false
  | .device m => m.matchesEvent ev

end

end Astrate.Triggers
