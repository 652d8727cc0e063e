import Astrate.DeviceID
import Astrate.GoLib.Float64
import Astrate.GoLib.Time
import Astrate.InterfaceSchema.Types

/-!
# Datastream and property rows

The rows of `internal/store/datastreams.go` and `internal/store/properties.go` and the three tables
they live in. `properties` holds at most one row per primary key and is a function of the key; the two
datastream tables have no unique constraint and only grow.
-/

set_option autoImplicit false

namespace Astrate.Store

open Astrate.GoLib
open Astrate.InterfaceSchema (ValueType)

/-! ## Rows -/

/-- One row of `individual_datastreams`; a column without a value is null. -/
structure IndividualRow where
  realmID : Int
  deviceID : DeviceID
  interfaceID : Int
  endpointID : Int
  path : Bytes
  ts : Time
  receptionTS : Time
  valueDouble : Option Float64 := none
  valueInteger : Option Int32 := none
  valueLonginteger : Option Int64 := none
  valueBoolean : Option Bool := none
  valueString : Option Bytes := none
  valueBinaryblob : Option Bytes := none
  valueDatetime : Option Time := none
  valueArray : Option Bytes := none
  deriving DecidableEq

/-- The value columns that are set. -/
def IndividualRow.valueColumns (r : IndividualRow) : Nat :=
  r.valueDouble.isSome.toNat + r.valueInteger.isSome.toNat + r.valueLonginteger.isSome.toNat +
    r.valueBoolean.isSome.toNat + r.valueString.isSome.toNat + r.valueBinaryblob.isSome.toNat +
    r.valueDatetime.isSome.toNat + r.valueArray.isSome.toNat

/-- One value column is set. -/
def IndividualRow.validate (r : IndividualRow) : Except FmtError Unit :=
  if r.valueColumns ≠ 1 then
    errorf "store: datastream row %s@%s sets %d value columns, want exactly 1"
      [.str r.path, .time r.ts.nanos, .int r.valueColumns]
  else .ok ()

/-- One row of `object_datastreams`. -/
structure ObjectRow where
  realmID : Int
  deviceID : DeviceID
  interfaceID : Int
  path : Bytes
  ts : Time
  receptionTS : Time
  value : Bytes
  deriving DecidableEq

/-- One persistence flush. -/
structure DatastreamBatch where
  individual : List IndividualRow := []
  objects : List ObjectRow := []
  deriving DecidableEq

/-- The primary key of `properties`. -/
structure PropertyKey where
  realmID : Int
  deviceID : DeviceID
  interfaceID : Int
  path : Bytes
  deriving DecidableEq

/-- One property row; the time it was set at is the database's clock and is left out. -/
structure Property where
  realmID : Int
  deviceID : DeviceID
  interfaceID : Int
  endpointID : Int
  path : Bytes
  value : Bytes
  valueType : ValueType
  deriving DecidableEq

/-- The primary key. -/
def Property.key (p : Property) : PropertyKey := ⟨p.realmID, p.deviceID, p.interfaceID, p.path⟩

def IndividualRow.key (r : IndividualRow) : PropertyKey :=
  ⟨r.realmID, r.deviceID, r.interfaceID, r.path⟩

/-! ## Tables -/

/-- The tables of values. -/
structure Tables where
  properties : PropertyKey → Option Property
  individual : List IndividualRow
  objects : List ObjectRow

/-- No row anywhere. -/
def Tables.empty : Tables := ⟨fun _ => none, [], []⟩

/-- `UpsertProperty`: the last value wins. -/
def Tables.upsertProperty (t : Tables) (p : Property) : Tables :=
  { t with properties := fun k => if k = p.key then some p else t.properties k }

/-- `UnsetProperty`. -/
def Tables.unsetProperty (t : Tables) (key : PropertyKey) : Tables :=
  { t with properties := fun k => if k = key then none else t.properties k }

/-- The rows of a batch, checked one by one. -/
def validateRows : List IndividualRow → Except FmtError Unit
  | [] => .ok ()
  | r :: rs => do
      r.validate
      validateRows rs

/-- `AppendDatastreams`: the rows are checked first, then both tables grow in one transaction. -/
def Tables.appendDatastreams (t : Tables) (batch : DatastreamBatch) : Except FmtError Tables := do
  validateRows batch.individual
  .ok { t with
    individual := t.individual ++ batch.individual
    objects := t.objects ++ batch.objects }

theorem IndividualRow.validate_eq_ok_iff {r : IndividualRow} : r.validate = .ok () ↔ r.valueColumns = 1 := by
  unfold IndividualRow.validate
  split_ifs with h
  · simp [errorf, h]
  · exact ⟨fun _ => not_not.1 h, fun _ => rfl⟩

theorem validateRows_eq_ok_iff {rows : List IndividualRow} :
    validateRows rows = .ok () ↔ ∀ r ∈ rows, r.validate = .ok () := by
  induction rows with
  | nil => simp [validateRows]
  | cons r rs ih =>
    rw [validateRows, bind_eq_ok_iff, List.forall_mem_cons, ← ih]
    constructor
    · rintro ⟨⟨⟩, hr, hrs⟩
      exact ⟨hr, hrs⟩
    · rintro ⟨hr, hrs⟩
      exact ⟨(), hr, hrs⟩

end Astrate.Store
