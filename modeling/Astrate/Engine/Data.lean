import Astrate.Engine.Batch

/-!
# The data path

`internal/engine/data.go` with the parts of the schema and device caches it reads: an inbound message
is classified, and a data publish runs through the validation pipeline (`processData`), which rejects
it or queues a `PersistOp` with the previous value of its path (`trackPrevious`).

What lies behind the engine's ports (the store, the caches with their concurrent changes, the broker)
is a state `σ` that every call may change as it likes.
-/

set_option autoImplicit false

namespace Astrate.Engine

open Astrate.GoLib
open Astrate.InterfaceSchema (CompiledMapping CompiledInterface parseInterface compile)
open Astrate.Payload (Format Leaves Decoder DecodedPayload PayloadError RejectReason)
open Astrate.Store (IndividualRow Property PropertyKey)

/-! ## Triggers that watch changes -/

/-- The conditions of a data trigger. -/
inductive DataCondition where
  | incomingData
  | valueChange
  | valueChangeApplied
  | pathCreated
  | pathRemoved
  | valueStored
  deriving DecidableEq, Repr

/-- The conditions decided by the previous value (`prevOns`). -/
def DataCondition.needsPrevious : DataCondition → Bool
  | .valueChange | .valueChangeApplied | .pathCreated | .pathRemoved => true
  | .incomingData | .valueStored => false

/-- One compiled data condition, as far as the gate reads it. -/
structure DataMatcher where
  on : DataCondition
  deviceID : Bytes
  iface : Bytes
  major : Int
  anyPath : Bool
  pathSegs : List Bytes
  evaluated : Bool
  deriving DecidableEq, Repr

/-- The publish a gate is asked about. -/
structure DataEvent where
  deviceID : Bytes
  interface : Bytes
  major : Int
  path : Bytes
  deriving DecidableEq, Repr

/-- The wildcard of triggers. -/
def anyToken : Bytes := utf8 "*"

def deviceIDMatches (filter deviceID : Bytes) : Bool :=
  filter = [] || filter = anyToken || filter = deviceID

/-- A placeholder matches any segment that is not empty. -/
def segMatches (pattern seg : Bytes) : Bool :=
  if [37, 123].isPrefixOf pattern && pattern.getLast? = some 125 then seg ≠ [] else pattern = seg

def pathMatchesLoop : List Bytes → Bytes → Bool
  | [], rest => rest = []
  | [seg], rest => !rest.contains 47 && segMatches seg rest
  | seg :: segs, rest =>
    match cutByte 47 rest with
    | none => false
    | some (cur, rest) => segMatches seg cur && pathMatchesLoop segs rest

def pathMatches (segs : List Bytes) : Bytes → Bool
  | 47 :: rest => pathMatchesLoop segs rest
  | _ => false

/-- A condition of a trigger that needs the previous value of this publish. -/
def DataMatcher.tracks (m : DataMatcher) (ev : DataEvent) : Bool :=
  m.evaluated && m.on.needsPrevious && deviceIDMatches m.deviceID ev.deviceID &&
    (m.iface = anyToken || (m.iface = ev.interface && m.major = ev.major)) &&
    (m.anyPath || pathMatches m.pathSegs ev.path)

/-- A compiled trigger, as far as the gate reads it. -/
structure Trigger where
  data : List DataMatcher
  deriving DecidableEq, Repr

def Trigger.tracksChanges (t : Trigger) (ev : DataEvent) : Bool := t.data.any fun m => m.tracks ev

/-! ## Caches -/

/-- An interface the schema cache can hold: the compilation of a parsed definition. -/
def Accepted (ci : CompiledInterface) : Prop :=
  ∃ data iface ids, parseInterface data = .ok iface ∧ compile iface ids = .ok ci

theorem Accepted.name_ok {ci : CompiledInterface} (h : Accepted ci) :
    InterfaceSchema.interfaceNameOK ci.name = true := by
  obtain ⟨data, iface, ids, hparse, hcompile⟩ := h
  obtain ⟨_, _, _, _, _, rfl⟩ := InterfaceSchema.compile_eq_ok_iff.1 hcompile
  exact (InterfaceSchema.parseInterface_wellFormed hparse).name_ok

def sensorCompiled : CompiledInterface :=
  (compile InterfaceSchema.sensorInterface none).toOption.get (by decide +kernel)

theorem sensor_accepted : Accepted sensorCompiled := ⟨_, _, none, InterfaceSchema.parseInterface_sensor, rfl⟩

/-- One realm of a schema snapshot. -/
structure RealmSchema where
  id : Int
  name : Bytes
  iface : Bytes → Int → Option CompiledInterface
  accepted : ∀ name major ci, iface name major = some ci → Accepted ci
  triggers : List Trigger

/-- A version that a device declares. -/
structure InterfaceVersion where
  major : Int
  minor : Int
  deriving DecidableEq, Repr

/-- The declared versions by name. -/
abbrev Introspection := List (Bytes × InterfaceVersion)

/-- The payload format a device is sent. -/
inductive FormatHint where
  | bson
  | json
  deriving DecidableEq, Repr

/-- The cached state of a device. -/
structure DeviceState where
  introspection : Introspection
  formatHint : FormatHint
  resetHintOnBSON : Bool := false
  purgeCompression : Bytes := []
  deriving DecidableEq, Repr

def DeviceState.declares (dev : DeviceState) (name : Bytes) : Option InterfaceVersion :=
  dev.introspection.lookup name

/-- The sticky format hint after a payload, and the hint to persist when it flips. -/
def DeviceState.noteFormat (dev : DeviceState) : Format → DeviceState × Option FormatHint
  | .json =>
    if dev.formatHint = .json then ({ dev with resetHintOnBSON := false }, none)
    else ({ dev with resetHintOnBSON := false, formatHint := .json }, some .json)
  | .bson =>
    if dev.resetHintOnBSON then
      if dev.formatHint = .bson then ({ dev with resetHintOnBSON := false }, none)
      else ({ dev with resetHintOnBSON := false, formatHint := .bson }, some .bson)
    else (dev, none)
  | .empty | .invalid => (dev, none)

/-! ## The engine -/

/-- The engine: its configuration, its ports and the handlers that are set. -/
structure EnginePorts (σ : Type) extends BatchPort σ where
  drv : Bson.Driver
  dec : Decoder
  batchMaxRows : Nat
  realmOrReload : Bytes → σ → Option RealmSchema × σ
  getDevice : Bytes → Int → DeviceID → σ → Except StoreError DeviceState × σ
  putDevice : Bytes → DeviceID → DeviceState → σ → σ
  setPayloadFormatHint : Int → DeviceID → FormatHint → σ → Except StoreError Unit × σ
  getProperty : PropertyKey → σ → Except StoreError Property × σ
  latestIndividual : PropertyKey → σ → Except StoreError IndividualRow × σ
  onIntrospection : Bool := true
  onControl : Bool := true
  onCapabilities : Bool := true
  updateIntrospection : Int → DeviceID → Introspection → σ → Except StoreError Unit × σ
  /-- The resend of the server-owned properties and of the list of them. -/
  resync : RealmSchema → DeviceID → FormatHint → σ → Except StoreError Unit × σ
  /-- The purge of the device-owned properties that are not listed. -/
  purge : RealmSchema → DeviceID → DeviceState → List Bytes → σ → Except StoreError Unit × σ
  inflateProperties : Bytes → Except FmtError (List Bytes)
  /-- `bson.Unmarshal` into a map: its members, with the values that are strings. -/
  unmarshal : Bytes → Option (List (Bytes × Option Bytes))

section

variable {σ : Type} (e : EnginePorts σ)

/-- Use what lies behind the ports. -/
def withEnv {α : Type} (f : σ → α × σ) : Proc Event (Shard σ) α :=
  Proc.modifyGet fun s => ((f s.env).1, { s with env := (f s.env).2 })

theorem withEnv_apply {α : Type} (f : σ → α × σ) (s : Shard σ) :
    withEnv f s = ⟨[], { s with env := (f s.env).2 }, some (f s.env).1⟩ := rfl

/-- Consume an invalid message. -/
def reject (id : Nat) (reason : String) (detail : List FmtError) : Proc Event (Shard σ) Unit := do
  Proc.emit (.rejected id reason detail)
  Proc.emit (.acked id)

/-- Consume a message that carries no data. -/
def consume (id : Nat) (kind : TopicKind) (how : Consumption) : Proc Event (Shard σ) Unit := do
  Proc.emit (.consumed id kind how)
  Proc.emit (.acked id)

/-- Try until an attempt gives an answer, parking the shard in between; `quit` is what is done when the
engine quits while parked. The list says how the parkings to come will end. -/
def retryParked {α : Type} (attempt : Proc Event (Shard σ) (Option α))
    (quit : Proc Event (Shard σ) α) (parks : List Park) : Proc Event (Shard σ) α := do
  let r ← attempt
  match r with
  | some a => pure a
  | none =>
    match parks with
    | [] => Proc.blocked
    | .elapsed :: parks => do
        Proc.modify fun s => { s with parks := parks }
        retryParked attempt quit parks
    | .quit :: parks => do
        Proc.modify fun s => { s with parks := parks }
        quit

/-- One attempt of `deviceState`. -/
def loadDevice (id : Nat) (m : InboundMessage) (realm : RealmSchema) :
    Proc Event (Shard σ) (Option (Option DeviceState)) := do
  let r ← withEnv (e.getDevice m.realm realm.id m.deviceID)
  match r with
  | .ok dev => pure (some (some dev))
  | .error .notFound => do
      reject id "device_unknown" [⟨"store: not found", []⟩]
      pure (some none)
  | .error _ => pure none

/-- The cached state of the device; without one the message has been dealt with. -/
def deviceState (id : Nat) (m : InboundMessage) (realm : RealmSchema) :
    Proc Event (Shard σ) (Option DeviceState) := do
  let s ← Proc.get
  retryParked (loadDevice e id m realm)
    (do
      Proc.emit (.abandoned id)
      pure none)
    s.parks

/-! ## Previous values -/

/-- The canonical JSON of the newest sample. -/
def prevIndividualJSON (r : IndividualRow) : Except FmtError Bytes :=
  match r.valueDouble, r.valueInteger, r.valueLonginteger, r.valueBoolean, r.valueString,
      r.valueBinaryblob, r.valueDatetime, r.valueArray with
  | some v, _, _, _, _, _, _, _ => encodeValueJSON (some (.leaf (.scalar .double v)))
  | none, some v, _, _, _, _, _, _ => encodeValueJSON (some (.leaf (.scalar .integer v)))
  | none, none, some v, _, _, _, _, _ => encodeValueJSON (some (.leaf (.scalar .longInteger v)))
  | none, none, none, some v, _, _, _, _ => encodeValueJSON (some (.leaf (.scalar .boolean v)))
  | none, none, none, none, some v, _, _, _ => encodeValueJSON (some (.leaf (.scalar .string v)))
  | none, none, none, none, none, some v, _, _ =>
    encodeValueJSON (some (.leaf (.scalar .binaryBlob v)))
  | none, none, none, none, none, none, some v, _ =>
    encodeValueJSON (some (.leaf (.scalar .dateTime v)))
  | none, none, none, none, none, none, none, some js => .ok js
  | none, none, none, none, none, none, none, none =>
    errorf "engine: datastream row without a value column" []

/-- Whether an installed trigger needs the previous value of this operation. -/
def RealmSchema.watches (realm : RealmSchema) (op : PersistOp) : Bool :=
  realm.triggers.any fun t =>
    t.tracksChanges ⟨op.deviceID.string, op.interface.name, op.interface.major, op.path⟩

/-- The stored previous value: whether there is one, and its JSON. A failed lookup gives nothing. -/
def storedPrevious (op : PersistOp) : Proc Event (Shard σ) (Option PrevSnap) :=
  match op.kind with
  | .propertySet | .propertyUnset => do
      match ← withEnv (e.getProperty op.key) with
      | .ok p => pure (some ⟨true, p.value⟩)
      | .error .notFound => pure (some ⟨false, []⟩)
      | .error _ => pure none
  | .individual => do
      match ← withEnv (e.latestIndividual op.key) with
      | .ok r =>
        match prevIndividualJSON r with
        | .ok js => pure (some ⟨true, js⟩)
        | .error _ => pure none
      | .error .notFound => pure (some ⟨false, []⟩)
      | .error _ => pure none
  | .object => pure none

/-- The previous value: of a pending operation on the path if there is one, else the stored one. -/
def previous (op : PersistOp) : Proc Event (Shard σ) (Option PrevSnap) := do
  let s ← Proc.get
  match s.pendingPrev op.key with
  | some snap => pure (some snap)
  | none => storedPrevious e op

/-- What the operation leaves for the next publish on its path. -/
def nextPrevious (op : PersistOp) (newJSON : Bytes) : PrevSnap :=
  ⟨op.kind ≠ .propertyUnset, newJSON⟩

/-- `trackPrevious`: the operation with the snapshot of the value before it. -/
def trackPrevious (realm : RealmSchema) (op : PersistOp) : Proc Event (Shard σ) PersistOp :=
  if op.kind = .object then pure op
  else if !realm.watches op then pure op
  else
    match encodeValueJSON op.value with
    | .error _ => pure op
    | .ok newJSON => do
        match ← previous e op with
        | none => pure op
        | some snap => do
            Proc.modify fun s =>
              { s with
                pendingPrev := fun k =>
                  if k = op.key then some (nextPrevious op newJSON) else s.pendingPrev k }
            pure { op with tracked := true, prevExists := snap.exists, prev := snap.json }

/-! ## Validation -/

/-- The leaves of an object-aggregated interface. -/
def objectLeavesOf (ci : CompiledInterface) : Leaves :=
  (ci.objectLeaves.getD []).map fun l => (l.1, l.2.mapping)

/-- An aggregation path: followed by a leaf, it resolves. The source asks for whichever leaf its map
yields first. -/
def objectPathOK (ci : CompiledInterface) (path : Bytes) : Bool :=
  match ci.objectLeaves.getD [] with
  | [] => false
  | leaf :: _ => (ci.trie.matchPath (path ++ 47 :: leaf.1)).isSome

/-- `RejectReason.String`. -/
def reasonLabel : RejectReason → String
  | .none => "RejectReason(0)"
  | .tooLarge => "too_large"
  | .unknownFormat => "unknown_format"
  | .malformed => "malformed"
  | .noValue => "no_value"
  | .badTimestamp => "bad_timestamp"
  | .typeMismatch => "type_mismatch"
  | .valueTooLarge => "value_too_large"
  | .badObject => "bad_object"
  | .unsetNotAllowed => "unset_not_allowed"
  | .missingRequired => "missing_required"

/-- The action of a decoded publish. An object-aggregated interface is a datastream. -/
def opAction (ci : CompiledInterface) (mapping : Option CompiledMapping) (dp : DecodedPayload) :
    OpAction :=
  match mapping with
  | none => .object
  | some m =>
    if ci.type = .properties ∧ dp.isUnset then .propertyUnset m
    else if ci.type = .properties then .propertySet m
    else .individual m

/-- The operation of a decoded publish. -/
def newOp (id : Nat) (m : InboundMessage) (realmID : Int) (ci : CompiledInterface)
    (mapping : Option CompiledMapping) (path : Bytes) (dp : DecodedPayload) : PersistOp where
  action := opAction ci mapping dp
  realm := m.realm
  realmID := realmID
  deviceID := m.deviceID
  interface := ci
  path := path
  value := dp.value
  format := dp.format
  ts := dp.timestamp.getD m.receivedAt
  receptionTS := m.receivedAt
  ack := id

/-- The failure of the decoder: a rejection, or a bug of the caller, which is consumed loudly. -/
def rejectPayload (id : Nat) : PayloadError → Proc Event (Shard σ) Unit
  | .reject r =>
    if r.reason = .none then consume id .data .idle
    else reject id (reasonLabel r.reason) r.detail
  | .plain _ => consume id .data .idle

/-- `noteFormat`: keep the format hint. A hint that is not persisted is logged, nothing more. -/
def noteFormat (m : InboundMessage) (realm : RealmSchema) (dev : DeviceState) (f : Format) :
    Proc Event (Shard σ) Unit := do
  withEnv fun env => ((), e.putDevice m.realm m.deviceID (dev.noteFormat f).1 env)
  match (dev.noteFormat f).2 with
  | none => pure ()
  | some hint => do
      let _ ← withEnv (e.setPayloadFormatHint realm.id m.deviceID hint)
      pure ()

/-- `batcher.add`. -/
def add (op : PersistOp) : Proc Event (Shard σ) Unit := do
  Proc.emit (.queued op)
  Proc.modify fun s => { s with ops := s.ops ++ [op] }

/-- What follows a successful decoding: the format hint, the previous value, the batch. -/
def acceptData (id : Nat) (m : InboundMessage) (realm : RealmSchema) (dev : DeviceState)
    (ci : CompiledInterface) (mapping : Option CompiledMapping) (path : Bytes)
    (dp : DecodedPayload) : Proc Event (Shard σ) Unit := do
  noteFormat e m realm dev dp.format
  let op ← trackPrevious e realm (newOp id m realm.id ci mapping path dp)
  add op

/-- The result of the decoder, or its failure. -/
def finishData (id : Nat) (m : InboundMessage) (realm : RealmSchema) (dev : DeviceState)
    (ci : CompiledInterface) (mapping : Option CompiledMapping) (path : Bytes) :
    Except PayloadError DecodedPayload → Proc Event (Shard σ) Unit
  | .error err => rejectPayload id err
  | .ok dp => acceptData e id m realm dev ci mapping path dp

/-- The validation pipeline of a data publish. -/
def processData (id : Nat) (m : InboundMessage) (realm : RealmSchema) (dev : DeviceState)
    (rest : Bytes) : Proc Event (Shard σ) Unit :=
  match matchInterface rest dev.declares with
  | none =>
    reject id "interface_not_in_introspection"
      [⟨"no introspected interface matches %s", [.str rest]⟩]
  | some (name, path, ver) =>
    match realm.iface name ver.major with
    | none =>
      reject id "interface_not_installed"
        [⟨"introspection declares %s v%d but the realm has no such interface", [.str name, .int ver.major]⟩]
    | some ci =>
      if ci.ownership ≠ .device then
        reject id "ownership_violation"
          [⟨"device publish on server-owned interface %s", [.str name]⟩]
      else if ci.aggregation = .object then
        if !objectPathOK ci path then
          reject id "unexpected_path"
            [⟨"%q is not an aggregation prefix of %s", [.str path, .str name]⟩]
        else
          finishData e id m realm dev ci none path
            (e.dec.object e.drv m.payload (objectLeavesOf ci))
      else
        match ci.trie.matchPath path with
        | none =>
          reject id "unexpected_path"
            [⟨"%q matches no endpoint of %s", [.str path, .str name]⟩]
        | some p =>
          finishData e id m realm dev ci (some p.mapping) path
            (e.dec.individual e.drv m.payload p.mapping)

end

end Astrate.Engine
