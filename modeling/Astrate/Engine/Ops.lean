import Astrate.Payload.Typed
import Astrate.Store.Datastreams

/-!
# Persist operations and their rows

The validated operation `PersistOp` of `internal/engine/data.go` and its conversion into store rows
(`internal/engine/batch.go`). `encodeValueJSON` is the canonical JSON of a stored value; `individualRow`,
`objectRow` and `propertyRow` build the rows. Values that passed the decoder always convert
(`encodeValueJSON_of_finite`, `individualRow_of_typed`): the row of an individual value has exactly the
column of its declared type set.
-/

set_option autoImplicit false

namespace Astrate.Engine

open Astrate.GoLib
open Astrate.GoLib.Json (Any)
open Astrate.InterfaceSchema (ValueType CompiledMapping CompiledInterface)
open Astrate.Payload (ScalarType Leaf Entry Value Format Leaves scalarOf)
open Astrate.Store (IndividualRow ObjectRow Property)

/-! ## Operations -/

/-- `OpKind`. -/
inductive OpKind where
  | individual
  | object
  | propertySet
  | propertyUnset
  deriving DecidableEq, Repr

/-- The kind of an operation with the matched mapping, which only an object publish lacks. -/
inductive OpAction where
  | individual (mapping : CompiledMapping)
  | object
  | propertySet (mapping : CompiledMapping)
  | propertyUnset (mapping : CompiledMapping)

/-- The kind of an action. -/
def OpAction.kind : OpAction → OpKind
  | .individual _ => .individual
  | .object => .object
  | .propertySet _ => .propertySet
  | .propertyUnset _ => .propertyUnset

/-- `PersistOp`. The acknowledgment is named by the number of the message it belongs to. -/
structure PersistOp where
  action : OpAction
  realm : Bytes
  realmID : Int
  deviceID : DeviceID
  interface : CompiledInterface
  path : Bytes
  value : Option Value
  format : Format
  ts : Time
  receptionTS : Time
  tracked : Bool := false
  prevExists : Bool := false
  prev : Bytes := []
  ack : Nat
  broken : Bool := false

/-- The kind of an operation. -/
def PersistOp.kind (op : PersistOp) : OpKind := op.action.kind

/-- The series or property an operation is about. -/
def PersistOp.key (op : PersistOp) : Store.PropertyKey :=
  ⟨op.realmID, op.deviceID, op.interface.id, op.path⟩

/-! ## Canonical JSON -/

/-- The largest integer rendered as a JSON number. -/
def maxSafeJSONInt : Int := 2 ^ 53 - 1

/-- `jsonable`, on a scalar. -/
def jsonableScalar : (t : ScalarType) → t.Carrier → Any
  | .double, f => .number f.appendFloat
  | .integer, i => .number (formatInt i.toInt)
  | .boolean, b => .bool b
  | .string, s => .string s
  | .longInteger, i =>
    if i.toInt > maxSafeJSONInt ∨ i.toInt < -maxSafeJSONInt then .string (formatInt i.toInt)
    else .number (formatInt i.toInt)
  | .binaryBlob, data => .string (Base64.encodeToString data)
  | .dateTime, ts => .string ts.formatMilli

/-- `jsonable`, on a scalar or an array. -/
def jsonableLeaf : Leaf → Any
  | .scalar t x => jsonableScalar t x
  | .array t xs => .array (xs.map (jsonableScalar t))

mutual

/-- `jsonable`, on an entry of an object. -/
def jsonableEntry : Entry → Any
  | .leaf l => jsonableLeaf l
  | .nested entries => .object (jsonableEntries entries)

def jsonableEntries : List (Bytes × Entry) → List (Bytes × Any)
  | [] => []
  | (k, e) :: es => (k, jsonableEntry e) :: jsonableEntries es

end

def jsonable : Value → Any
  | .leaf l => jsonableLeaf l
  | .object entries => .object (jsonableEntries entries.entries)

/-- The doubles of a leaf. -/
def leafDoubles : Leaf → List Float64
  | .scalar .double f => [f]
  | .array .double fs => fs
  | _ => []

mutual

/-- The doubles of an entry. -/
def entryDoubles : Entry → List Float64
  | .leaf l => leafDoubles l
  | .nested entries => entriesDoubles entries

def entriesDoubles : List (Bytes × Entry) → List Float64
  | [] => []
  | (_, e) :: es => entryDoubles e ++ entriesDoubles es

end

/-- The doubles of a value, in the order `json.Marshal` meets them. -/
def doubles : Value → List Float64
  | .leaf l => leafDoubles l
  | .object entries => entriesDoubles entries.entries

/-- `encodeValueJSON`; no value renders as `null`. The one thing `json.Marshal` refuses is a double
that is not finite. -/
def encodeValueJSON : Option Value → Except FmtError Bytes
  | none => .ok (utf8 "null")
  | some v =>
    match (doubles v).find? fun f => !decide f.Finite with
    | some f => errorf "json: unsupported value: %s" [.float f.bits]
    | none => .ok (Json.marshal true (jsonable v))

/-! ## Rows -/

/-- The text of `%T` for a scalar type. -/
def scalarGoType : ScalarType → String
  | .double => "float64"
  | .integer => "int32"
  | .boolean => "bool"
  | .longInteger => "int64"
  | .string => "string"
  | .binaryBlob => "[]uint8"
  | .dateTime => "time.Time"

/-- The text of `%T`. -/
def goType : Option Value → String
  | none => "<nil>"
  | some (.leaf (.scalar t _)) => scalarGoType t
  | some (.leaf (.array t _)) => "[]" ++ scalarGoType t
  | some (.object _) => "map[string]payload.Value"

/-- The column of a scalar. -/
def setColumn (row : IndividualRow) : (t : ScalarType) → t.Carrier → IndividualRow
  | .double, v => { row with valueDouble := some v }
  | .integer, v => { row with valueInteger := some v }
  | .longInteger, v => { row with valueLonginteger := some v }
  | .boolean, v => { row with valueBoolean := some v }
  | .string, v => { row with valueString := some v }
  | .binaryBlob, v => { row with valueBinaryblob := some v }
  | .dateTime, v => { row with valueDatetime := some v }

/-- A row of the operation without a value. -/
def rowHeader (op : PersistOp) (m : CompiledMapping) : IndividualRow where
  realmID := op.realmID
  deviceID := op.deviceID
  interfaceID := op.interface.id
  endpointID := m.endpointID
  path := op.path
  ts := op.ts
  receptionTS := op.receptionTS

/-- A value that is not of the declared type. -/
def columnMismatch (op : PersistOp) (vt : ValueType) : Except FmtError IndividualRow :=
  errorf "engine: %T value on a %s mapping" [.str (utf8 (goType op.value)), .str (utf8 vt.wire)]

/-- `individualRow`: the declared type picks the column, and the value has to be of it. -/
def individualRow (op : PersistOp) (m : CompiledMapping) : Except FmtError IndividualRow :=
  if m.valueType.isArray then do
    let js ← encodeValueJSON op.value
    .ok { rowHeader op m with valueArray := some js }
  else
    match op.value with
    | some (.leaf (.scalar t x)) =>
      if t = scalarOf m.valueType then .ok (setColumn (rowHeader op m) t x)
      else columnMismatch op m.valueType
    | _ => columnMismatch op m.valueType

/-- The row of an object. -/
def objectRow (op : PersistOp) : Except FmtError ObjectRow :=
  match op.value with
  | some (.object _) => do
      let js ← encodeValueJSON op.value
      .ok
        { realmID := op.realmID, deviceID := op.deviceID, interfaceID := op.interface.id
          path := op.path, ts := op.ts, receptionTS := op.receptionTS, value := js }
  | _ =>
    errorf "engine: %T value on an object-aggregated publish" [.str (utf8 (goType op.value))]

def propertyRow (op : PersistOp) (m : CompiledMapping) : Except FmtError Property := do
  let js ← encodeValueJSON op.value
  .ok
    { realmID := op.realmID, deviceID := op.deviceID, interfaceID := op.interface.id
      endpointID := m.endpointID, path := op.path, value := js, valueType := m.valueType }

/-- What an operation asks of the store. -/
inductive Row where
  | property (p : Property)
  | unset (key : Store.PropertyKey)
  | individual (r : IndividualRow)
  | object (r : ObjectRow)
  deriving DecidableEq

/-- The conversion the batcher picks by the kind of the operation. -/
def PersistOp.row (op : PersistOp) : Except FmtError Row :=
  match op.action with
  | .propertySet m => (propertyRow op m).map .property
  | .propertyUnset _ => .ok (.unset op.key)
  | .individual m => (individualRow op m).map .individual
  | .object => (objectRow op).map .object

/-- A row the store's own check lets through. -/
def Row.Valid : Row → Prop
  | .individual r => r.validate = .ok ()
  | _ => True

/-! ## Typed values convert -/

theorem leafDoubles_finite {l : Leaf} (h : l.Bounded) : ∀ f ∈ leafDoubles l, f.Finite := by
  cases l with
  | scalar t x =>
    cases t with
    | double =>
      intro f hf
      rw [leafDoubles, List.mem_singleton] at hf
      exact hf ▸ h
    | _ =>
      intro f hf
      cases hf
  | array t xs =>
    cases t with
    | double =>
      intro f hf
      exact h.2 f hf
    | _ =>
      intro f hf
      cases hf

theorem entriesDoubles_finite {leaves : Leaves} {es : List (Bytes × Entry)}
    (h : ∀ e ∈ es, Payload.TypedEntry leaves e) : ∀ f ∈ entriesDoubles es, f.Finite := by
  induction es with
  | nil =>
    intro f hf
    cases hf
  | cons e es ih =>
    obtain ⟨key, entry⟩ := e
    obtain ⟨leaf, l, -, rfl, hl⟩ := h _ List.mem_cons_self
    intro f hf
    rw [entriesDoubles, List.mem_append, entryDoubles] at hf
    rcases hf with hf | hf
    · exact leafDoubles_finite hl.bounded f hf
    · exact ih (fun e he => h e (List.mem_cons_of_mem _ he)) f hf

/-- A value whose doubles are finite has a canonical JSON. -/
theorem encodeValueJSON_of_finite {v : Value} (h : ∀ f ∈ doubles v, f.Finite) :
    encodeValueJSON (some v) = .ok (Json.marshal true (jsonable v)) := by
  have hfind : ((doubles v).find? fun f => !decide f.Finite) = none := by
    rw [List.find?_eq_none]
    intro f hf
    simp [h f hf]
  rw [encodeValueJSON, hfind]

variable {op : PersistOp} {m : CompiledMapping}

/-- A leaf of the declared type fills exactly one column. -/
theorem individualRow_of_typed {l : Leaf} (hv : op.value = some (.leaf l)) (hl : l.Typed m.valueType) :
    ∃ row, individualRow op m = .ok row ∧ row.valueColumns = 1 := by
  unfold individualRow
  by_cases harr : m.valueType.isArray = true
  · rw [if_pos harr, hv, encodeValueJSON_of_finite (v := .leaf l) (leafDoubles_finite hl.bounded)]
    exact ⟨_, rfl, rfl⟩
  · rw [if_neg harr, hv]
    cases l with
    | scalar t x =>
      have ht : t = scalarOf m.valueType := by
        rw [← hl.valueType]
        cases t <;> rfl
      exact ⟨_, if_pos ht, by cases t <;> rfl⟩
    | array t xs =>
      -- No array type is the type of a scalar.
      exfalso
      apply harr
      rw [← hl.valueType]
      cases t <;> rfl

theorem objectRow_of_typed {leaves : Leaves} {obj : SortedMap Bytes Entry}
    (hv : op.value = some (.object obj)) (hobj : Payload.TypedObject leaves obj) :
    ∃ row, objectRow op = .ok row := by
  have hjs := encodeValueJSON_of_finite (v := .object obj) (entriesDoubles_finite hobj.entries)
  simp only [objectRow, hv, hjs]
  exact ⟨_, rfl⟩

theorem propertyRow_of_typed {l : Leaf} (hv : op.value = some (.leaf l)) (hl : l.Bounded) :
    ∃ row, propertyRow op m = .ok row := by
  simp only [propertyRow, hv, encodeValueJSON_of_finite (v := .leaf l) (leafDoubles_finite hl)]
  exact ⟨_, rfl⟩

end Astrate.Engine
