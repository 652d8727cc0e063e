import Astrate.Engine.PropertyList
import Astrate.Engine.Routing
import Astrate.GoLib.Call

/-!
# Server-owned data

`internal/engine/serverdata.go`: values the platform sends to a device. `planPublish` and `planUnset`
validate a request and say what it asks of the store; `publishServerValue` and `unsetServerProperty`
persist it and then hand messages to the broker. What lies behind the ports (the schema cache, the
device cache, the store, the broker) answers as it likes.

`publishServerValue_ok` and `unsetServerProperty_ok` say what a successful call has done.
-/

set_option autoImplicit false

namespace Astrate.Engine

open Astrate.GoLib
open Astrate.InterfaceSchema (Ownership CompiledInterface CompiledMapping)
open Astrate.Payload (Format Decoder DecodedPayload PayloadError)
open Astrate.Store (DatastreamBatch Property PropertyKey)

/-! ## Errors -/

/-- The errors callers tell apart. -/
inductive Sentinel where
  | realmUnknown
  | interfaceNotFound
  | notServerOwned
  | notDeviceOwned
  | pathNotFound
  | notAProperty
  | unsetNotAllowed
  deriving DecidableEq, Repr

/-- The errors of calls. -/
inductive ServerError where
  | sentinel (s : Sentinel) (detail : FmtError)
  | payload (e : PayloadError)
  | store (e : StoreError)
  | plain (e : FmtError)

/-! ## Requests -/

/-- `deviceView`: what is known of the device when a request comes in. -/
structure DeviceView where
  declares : Bytes → Option InterfaceVersion
  hint : FormatHint

/-- `ownerDelivery`. -/
structure OwnerDelivery where
  dp : DecodedPayload
  hint : FormatHint
  wireTS : Option Time
  qos : Nat
  retain : Bool
  expiry : Int

def formatForHint : FormatHint → Format
  | .json => .json
  | .bson => .bson

def resolveServerInterface (rs : RealmCatalog) (view : DeviceView) (name : Bytes) : Option CompiledInterface :=
  rs.resolve view.declares name

def notOwned : Ownership → Sentinel
  | .server => .notServerOwned
  | .device => .notDeviceOwned

/-- The interface of a request, behind the ownership gate. -/
def resolveOwned (rs : RealmCatalog) (view : DeviceView) (ownership : Ownership) (name : Bytes) :
    Except ServerError CompiledInterface :=
  match resolveServerInterface rs view name with
  | none => .error (.sentinel .interfaceNotFound ⟨"%w: %s", [.str name]⟩)
  | some ci =>
    if ci.ownership ≠ ownership then .error (.sentinel (notOwned ownership) ⟨"%w: %s", [.str name]⟩)
    else .ok ci

/-- `serverEnvelope`; `compact` is what the encoder makes of a raw JSON text. -/
def serverEnvelope (compact : Bytes → Option Bytes) (value : Bytes) (ts : Time) : Except ServerError Bytes :=
  if value.length = 0 then .error (.sentinel .unsetNotAllowed ⟨"%w: empty value", []⟩)
  else
    match compact value with
    | none => .error (.plain ⟨"json: error calling MarshalJSON for type json.RawMessage: %w", [.err]⟩)
    | some v =>
      .ok (utf8 "\x7b\"v\":" ++ v ++ utf8 ",\"t\":\"" ++ ts.formatMilli ++ utf8 "\"\x7d")

/-- One leaf of an object-aggregated interface. -/
def anyObjectLeaf (ci : CompiledInterface) : Option CompiledMapping :=
  (ci.objectLeaves.getD []).head?.map fun l => l.2.mapping

/-- The path and the value of a request. -/
def decodeOwned (drv : Bson.Driver) (ci : CompiledInterface) (name path envelope : Bytes) :
    Except ServerError (CompiledMapping × DecodedPayload) :=
  if ci.aggregation = .object then
    if !objectPathOK ci path then
      .error (.sentinel .pathNotFound ⟨"%w: %q is not an aggregation prefix of %s", [.str path, .str name]⟩)
    else do
      let dp ← (Decoder.object drv ⟨envelope.length⟩ envelope (objectLeavesOf ci)).mapError .payload
      match anyObjectLeaf ci with
      -- The path was found through a leaf, so there is one.
      | none => .error (.plain ⟨"no object leaf", []⟩)
      | some m => .ok (m, dp)
  else
    match ci.trie.matchPath path with
    | none =>
      .error (.sentinel .pathNotFound ⟨"%w: %q matches no endpoint of %s", [.str path, .str name]⟩)
    | some p => do
        let dp ← (Decoder.individual drv ⟨envelope.length⟩ envelope p.mapping).mapError .payload
        .ok (p.mapping, dp)

/-- The kind of the operation. -/
def serverAction (ci : CompiledInterface) (m : CompiledMapping) : OpAction :=
  if ci.type = .properties then .propertySet m
  else if ci.aggregation = .object then .object
  else .individual m

/-- The operation of a request; it belongs to no message. -/
def serverOp (rs : RealmCatalog) (realm : Bytes) (id : DeviceID) (ci : CompiledInterface)
    (m : CompiledMapping) (path : Bytes) (dp : DecodedPayload) (effTS : Time) : PersistOp where
  action := serverAction ci m
  realm := realm
  realmID := rs.id
  deviceID := id
  interface := ci
  path := path
  value := dp.value
  format := dp.format
  ts := effTS
  receptionTS := effTS
  ack := 0

/-- Properties stay retained, samples carry their time and the attributes of the mapping. -/
def ownerDelivery (ci : CompiledInterface) (m : CompiledMapping) (dp : DecodedPayload)
    (hint : FormatHint) (effTS : Time) : OwnerDelivery :=
  if ci.type = .properties then ⟨dp, hint, none, 2, true, 0⟩
  else ⟨dp, hint, some effTS, m.reliability, false, m.expiry⟩

/-- A decoded request: its row and its delivery. -/
def finishPlan (rs : RealmCatalog) (view : DeviceView) (realm : Bytes) (id : DeviceID)
    (ci : CompiledInterface) (path : Bytes) (effTS : Time) (m : CompiledMapping)
    (dp : DecodedPayload) : Except ServerError (Row × OwnerDelivery) :=
  if dp.isUnset then
    .error (.sentinel .unsetNotAllowed ⟨"%w: null value (use the property DELETE path for unset)", []⟩)
  else do
    let row ← (serverOp rs realm id ci m path dp effTS).row.mapError .plain
    .ok (row, ownerDelivery ci m dp view.hint effTS)

/-- The part of `publishAsOwner` between the lookups and the store. -/
def planPublish (drv : Bson.Driver) (compact : Bytes → Option Bytes) (rs : RealmCatalog)
    (view : DeviceView) (ownership : Ownership) (realm : Bytes) (id : DeviceID)
    (name path value : Bytes) (effTS : Time) : Except ServerError (Row × OwnerDelivery) := do
  let ci ← resolveOwned rs view ownership name
  let envelope ← serverEnvelope compact value effTS
  let (m, dp) ← decodeOwned drv ci name path envelope
  finishPlan rs view realm id ci path effTS m dp

/-- The checks of an unset on its interface. -/
def planUnsetOn (rs : RealmCatalog) (id : DeviceID) (name path : Bytes) (ci : CompiledInterface) :
    Except ServerError PropertyKey :=
  if ci.type ≠ .properties then .error (.sentinel .notAProperty ⟨"%w: %s", [.str name]⟩)
  else
    match ci.trie.matchPath path with
    | none =>
      .error (.sentinel .pathNotFound ⟨"%w: %q matches no endpoint of %s", [.str path, .str name]⟩)
    | some p =>
      if !p.mapping.allowUnset then
        .error (.sentinel .unsetNotAllowed ⟨"%w: %s%s", [.str name, .str path]⟩)
      else .ok ⟨rs.id, id, ci.id, path⟩

/-- The part of `UnsetServerProperty` between the lookups and the store. -/
def planUnset (rs : RealmCatalog) (view : DeviceView) (id : DeviceID) (name path : Bytes) :
    Except ServerError PropertyKey := do
  let ci ← resolveOwned rs view .server name
  planUnsetOn rs id name path ci

/-- The entries of the rows whose interface is installed. -/
def consumerEntries (rs : RealmCatalog) (props : List Property) : List Bytes :=
  props.filterMap fun p => (rs.ifaceByID p.interfaceID).map fun ci => ci.name ++ p.path

/-! ## Calls -/

/-- A message for the broker. -/
structure Outgoing where
  topic : Bytes
  wire : Bytes
  qos : Nat
  retain : Bool
  expiry : Int
  deriving DecidableEq

/-- A row of `devices`, as far as it is read here. -/
structure StoredDevice where
  introspection : Introspection
  payloadFormatHint : Option FormatHint

/-- What the calls use. -/
structure ServerPorts (σ : Type) where
  drv : Bson.Driver
  zlib : Zlib
  compact : Bytes → Option Bytes
  now : σ → Time
  realmOrReload : Bytes → σ → Option RealmCatalog × σ
  peek : Bytes → DeviceID → σ → Option DeviceState
  getDevice : Int → DeviceID → σ → Except StoreError StoredDevice × σ
  upsertProperty : Property → σ → Except StoreError Unit × σ
  unsetProperty : PropertyKey → σ → Except StoreError Bool × σ
  appendDatastreams : DatastreamBatch → σ → Except StoreError Unit × σ
  listServerOwnedProperties : Int → DeviceID → σ → Except StoreError (List Property) × σ
  publish : Outgoing → σ → Except FmtError Unit × σ

/-- What lies behind the ports, and the messages handed to the broker so far. -/
structure ServerState (σ : Type) where
  env : σ
  handed : List Outgoing := []

section

variable {σ : Type} (p : ServerPorts σ)

/-- Use what lies behind the ports. -/
def withPorts {α : Type} (f : σ → α × σ) : Call ServerError (ServerState σ) α := fun s =>
  (.ok (f s.env).1, { s with env := (f s.env).2 })

/-- Call the store; its errors are passed on. -/
def callStorePort {α : Type} (f : σ → Except StoreError α × σ) :
    Call ServerError (ServerState σ) α := do
  let r ← withPorts f
  Call.lift (r.mapError .store)

/-- Hand a message to the broker. -/
def handOver (m : Outgoing) : Call ServerError (ServerState σ) Unit := fun s =>
  ((p.publish m s.env).1.mapError fun e =>
      .plain ⟨"engine: publishing %s: " ++ e.format, .str m.topic :: e.args⟩,
    ⟨(p.publish m s.env).2, s.handed ++ [m]⟩)

/-- The realm, or an error. -/
def lookupRealm (realm : Bytes) : Call ServerError (ServerState σ) RealmCatalog := do
  let r ← withPorts (p.realmOrReload realm)
  match r with
  | none => Call.lift (.error (.sentinel .realmUnknown ⟨"%w: %s", [.str realm]⟩))
  | some rs => pure rs

/-- `Engine.deviceView`: the cached state, or a read of the store. -/
def deviceView (rs : RealmCatalog) (id : DeviceID) :
    Call ServerError (ServerState σ) DeviceView := do
  let cached ← Call.read fun s => p.peek rs.name id s.env
  match cached with
  | some dev => pure ⟨dev.declares, dev.formatHint⟩
  | none => do
      let d ← callStorePort (p.getDevice rs.id id)
      pure ⟨fun name => d.introspection.lookup name, d.payloadFormatHint.getD .bson⟩

/-- The persist switch; a request never unsets. -/
def persistRow : Row → Call ServerError (ServerState σ) Unit
  | .property row => callStorePort (p.upsertProperty row)
  | .object row => callStorePort (p.appendDatastreams { objects := [row] })
  | .individual row => callStorePort (p.appendDatastreams { individual := [row] })
  | .unset _ => pure ()

/-- The time of a request: the explicit one, or now. -/
def effectiveTS (ts : Option Time) : Call ServerError (ServerState σ) Time :=
  Call.read fun s => ts.getD (p.now s.env)

/-- `publishAsOwner`. -/
def publishAsOwner (realm : Bytes) (id : DeviceID) (name path value : Bytes) (ts : Option Time)
    (ownership : Ownership) : Call ServerError (ServerState σ) OwnerDelivery := do
  let rs ← lookupRealm p realm
  let view ← deviceView p rs id
  let effTS ← effectiveTS p ts
  let plan ← Call.lift
    (planPublish p.drv p.compact rs view ownership realm id name path value effTS)
  persistRow p plan.1
  pure plan.2

/-- `PublishServerValue`. -/
def publishServerValue (realm : Bytes) (id : DeviceID) (name path value : Bytes)
    (ts : Option Time) : Call ServerError (ServerState σ) Unit := do
  let out ← publishAsOwner p realm id name path value ts .server
  let wire ← Call.lift
    ((Payload.encode out.dp.value out.wireTS (formatForHint out.hint)).mapError .payload)
  handOver p ⟨deviceTopic realm id (name ++ path), wire, out.qos, out.retain, out.expiry⟩

/-- The frame of the list: plain text for a cached device that asked for it. -/
def consumerFrame (rs : RealmCatalog) (id : DeviceID) (entries : List Bytes) (env : σ) : Bytes :=
  match p.peek rs.name id env with
  | some dev =>
    if dev.purgeCompression = utf8 "plaintext" then joinEntries entries
    else deflateProperties p.zlib entries
  | none => deflateProperties p.zlib entries

/-- `sendConsumerProperties`. -/
def sendConsumerProperties (rs : RealmCatalog) (id : DeviceID) :
    Call ServerError (ServerState σ) Unit := do
  let props ← callStorePort (p.listServerOwnedProperties rs.id id)
  let frame ← Call.read fun s => consumerFrame p rs id (consumerEntries rs props) s.env
  handOver p ⟨deviceTopic rs.name id (utf8 "control/consumer/properties"), frame, 2, false, 0⟩

/-- `UnsetServerProperty`. -/
def unsetServerProperty (realm : Bytes) (id : DeviceID) (name path : Bytes) :
    Call ServerError (ServerState σ) Unit := do
  let rs ← lookupRealm p realm
  let view ← deviceView p rs id
  let key ← Call.lift (planUnset rs view id name path)
  let _ ← callStorePort (p.unsetProperty key)
  handOver p ⟨deviceTopic realm id (name ++ path), [], 2, true, 0⟩
  sendConsumerProperties p rs id

/-! ## What leaves the messages alone -/

variable {α : Type}

theorem keeps_withPorts (f : σ → α × σ) : (withPorts f).Keeps ServerState.handed :=
  fun _ => rfl

theorem keeps_callStorePort (f : σ → Except StoreError α × σ) : (callStorePort f).Keeps ServerState.handed :=
  (keeps_withPorts f).bind fun _ => Call.keeps_lift _

theorem keeps_lookupRealm (realm : Bytes) : (lookupRealm p realm).Keeps ServerState.handed := by
  refine (keeps_withPorts _).bind fun r => ?_
  cases r with
  | none => exact Call.keeps_lift _
  | some rs => exact Call.keeps_pure _

theorem keeps_deviceView (rs : RealmCatalog) (id : DeviceID) :
    (deviceView p rs id).Keeps ServerState.handed := by
  refine (Call.keeps_read _).bind fun cached => ?_
  cases cached with
  | some dev => exact Call.keeps_pure _
  | none => exact (keeps_callStorePort _).bind fun _ => Call.keeps_pure _

theorem keeps_persistRow (row : Row) : (persistRow p row).Keeps ServerState.handed := by
  cases row with
  | property _ => exact keeps_callStorePort _
  | object _ => exact keeps_callStorePort _
  | individual _ => exact keeps_callStorePort _
  | unset _ => exact Call.keeps_pure _

/-! ## Successful requests -/

variable {p}

/-- A path that a request may name. -/
def PathOK (ci : CompiledInterface) (path : Bytes) : Prop :=
  if ci.aggregation = .object then objectPathOK ci path = true
  else ∃ ptr, ci.trie.matchPath path = some ptr

variable {view : DeviceView} {name : Bytes}

variable {rs : RealmCatalog} {ownership : Ownership}

theorem resolveOwned_ok {ci : CompiledInterface} (h : resolveOwned rs view ownership name = .ok ci) :
    rs.resolve view.declares name = some ci ∧ ci.ownership = ownership := by
  unfold resolveOwned resolveServerInterface at h
  cases hresolve : rs.resolve view.declares name with
  | none =>
    rw [hresolve] at h
    cases h
  | some ci' =>
    rw [hresolve] at h
    dsimp only at h
    split_ifs at h with howner
    cases h
    exact ⟨rfl, not_not.1 howner⟩

variable {path : Bytes}

variable {drv : Bson.Driver}

theorem decodeOwned_ok {ci : CompiledInterface} {envelope : Bytes}
    {r : CompiledMapping × DecodedPayload} (h : decodeOwned drv ci name path envelope = .ok r) :
    PathOK ci path := by
  unfold decodeOwned at h
  unfold PathOK
  by_cases hobj : ci.aggregation = .object
  · rw [if_pos hobj] at h ⊢
    by_contra hpath
    rw [Bool.not_eq_true] at hpath
    rw [hpath] at h
    cases h
  · rw [if_neg hobj] at h ⊢
    cases hmatch : ci.trie.matchPath path with
    | none =>
      rw [hmatch] at h
      cases h
    | some ptr => exact ⟨ptr, rfl⟩

variable {id : DeviceID} {value : Bytes}

theorem planPublish_ok {compact : Bytes → Option Bytes} {realm : Bytes} {effTS : Time} {plan : Row × OwnerDelivery}
    (h : planPublish drv compact rs view ownership realm id name path value effTS = .ok plan) :
    ∃ ci, rs.resolve view.declares name = some ci ∧ ci.ownership = ownership ∧ PathOK ci path := by
  obtain ⟨ci, hci, h⟩ := bind_eq_ok_iff.1 h
  obtain ⟨envelope, -, h⟩ := bind_eq_ok_iff.1 h
  obtain ⟨r, hr, -⟩ := bind_eq_ok_iff.1 h
  obtain ⟨hresolve, howner⟩ := resolveOwned_ok hci
  exact ⟨ci, hresolve, howner, decodeOwned_ok hr⟩

/-- The row of a property is that of the resolved interface, with the rendering of the value that is
delivered. -/
theorem planPublish_property {compact : Bytes → Option Bytes} {realm : Bytes} {effTS : Time} {row : Property}
    {out : OwnerDelivery}
    (h : planPublish drv compact rs view ownership realm id name path value effTS =
      .ok (.property row, out)) :
    ∃ ci, rs.resolve view.declares name = some ci ∧ ci.type = .properties ∧ PathOK ci path ∧
      row.key = ⟨rs.id, id, ci.id, path⟩ ∧ encodeValueJSON out.dp.value = .ok row.value := by
  obtain ⟨ci, hci, h⟩ := bind_eq_ok_iff.1 h
  obtain ⟨envelope, -, h⟩ := bind_eq_ok_iff.1 h
  obtain ⟨⟨m, dp⟩, hdecode, h⟩ := bind_eq_ok_iff.1 h
  obtain ⟨hresolve, -⟩ := resolveOwned_ok hci
  dsimp only at h
  unfold finishPlan at h
  split_ifs at h
  obtain ⟨row', hrow, heq⟩ := bind_eq_ok_iff.1 h
  cases heq
  rw [mapError_eq_ok_iff, PersistOp.row, serverOp, serverAction] at hrow
  by_cases htype : ci.type = .properties
  · rw [if_pos htype] at hrow
    obtain ⟨row', hrow, heq⟩ := map_eq_ok_iff.1 hrow
    cases heq
    obtain ⟨js, hjs, heq⟩ := bind_eq_ok_iff.1 hrow
    cases heq
    refine ⟨ci, hresolve, htype, decodeOwned_ok hdecode, rfl, ?_⟩
    rw [ownerDelivery, if_pos htype]
    exact hjs
  · -- A sample has no property row.
    exfalso
    split_ifs at hrow
    · obtain ⟨_, -, heq⟩ := map_eq_ok_iff.1 hrow
      cases heq
    · obtain ⟨_, -, heq⟩ := map_eq_ok_iff.1 hrow
      cases heq

theorem planUnset_ok {key : PropertyKey} (h : planUnset rs view id name path = .ok key) :
    ∃ ci, rs.resolve view.declares name = some ci ∧ ci.ownership = .server ∧
      ci.type = .properties ∧ (∃ ptr, ci.trie.matchPath path = some ptr) ∧ key = ⟨rs.id, id, ci.id, path⟩ := by
  obtain ⟨ci, hci, h⟩ := bind_eq_ok_iff.1 h
  obtain ⟨hresolve, howner⟩ := resolveOwned_ok hci
  unfold planUnsetOn at h
  split_ifs at h with htype
  cases hmatch : ci.trie.matchPath path with
  | none =>
    rw [hmatch] at h
    cases h
  | some ptr =>
    rw [hmatch] at h
    dsimp only at h
    split_ifs at h
    cases h
    exact ⟨ci, hresolve, howner, not_not.1 htype, ⟨ptr, hmatch⟩, rfl⟩

variable {s s' : ServerState σ}

theorem withPorts_eq_ok_iff {f : σ → α × σ} {a : α} :
    withPorts f s = (.ok a, s') ↔ (f s.env).1 = a ∧ { s with env := (f s.env).2 } = s' := by
  simp [withPorts]

theorem callStorePort_ok {f : σ → Except StoreError α × σ} {a : α}
    (h : callStorePort f s = (.ok a, s')) : (f s.env).1 = .ok a := by
  obtain ⟨r, s₁, hr, h⟩ := Call.bind_eq_ok_iff.1 h
  obtain ⟨rfl, -⟩ := withPorts_eq_ok_iff.1 hr
  obtain ⟨h, -⟩ := Call.lift_eq_ok_iff.1 h
  exact mapError_eq_ok_iff.1 h

theorem handOver_ok {m : Outgoing} (h : handOver p m s = (.ok (), s')) : s'.handed = s.handed ++ [m] :=
  (congrArg (fun r => r.2.handed) h).symm

/-- What the engine sees of a device, whatever happens behind the ports meanwhile. -/
structure Sees (p : ServerPorts σ) (realm : Bytes) (id : DeviceID) (rs : RealmCatalog)
    (intro : Introspection) : Prop where
  name : rs.name = realm
  schema : ∀ env rs', (p.realmOrReload realm env).1 = some rs' → rs' = rs
  cached : ∀ env dev, p.peek realm id env = some dev → dev.introspection = intro
  stored : ∀ env d, (p.getDevice rs.id id env).1 = .ok d → d.introspection = intro

section Sees

variable {realm : Bytes} {id : DeviceID} {rs : RealmCatalog} {intro : Introspection}
  (hsees : Sees p realm id rs intro)

include hsees

theorem Sees.lookupRealm {rs' : RealmCatalog} (h : lookupRealm p realm s = (.ok rs', s')) : rs' = rs := by
  obtain ⟨r, s₁, hports, hpure⟩ := Call.bind_eq_ok_iff.1 h
  obtain ⟨hr, -⟩ := withPorts_eq_ok_iff.1 hports
  cases r with
  | none => cases hpure
  | some rs'' =>
    obtain ⟨heq, -⟩ := Call.lift_eq_ok_iff.1 hpure
    cases heq
    exact hsees.schema _ _ hr

theorem Sees.deviceView (h : deviceView p rs id s = (.ok view, s')) :
    view.declares = fun name => intro.lookup name := by
  obtain ⟨cached, s₁, hcached, h⟩ := Call.bind_eq_ok_iff.1 h
  obtain ⟨hpeek, rfl⟩ := Call.read_eq_ok_iff.1 hcached
  cases cached with
  | some dev =>
    cases h
    rw [hsees.name] at hpeek
    rw [← hsees.cached _ _ hpeek]
    rfl
  | none =>
    obtain ⟨d, s₂, hd, h⟩ := Call.bind_eq_ok_iff.1 h
    cases h
    rw [hsees.stored _ _ (callStorePort_ok hd)]

/-- A published value has passed the gates, and one message on its topic was handed over. -/
theorem Sees.publishServerValue_ok {ts : Option Time}
    (h : publishServerValue p realm id name path value ts s = (.ok (), s')) :
    (∃ ci, rs.resolve (fun n => intro.lookup n) name = some ci ∧ ci.ownership = .server ∧
      PathOK ci path) ∧
    ∃ m : Outgoing, m.topic = deviceTopic realm id (name ++ path) ∧ s'.handed = s.handed ++ [m] := by
  obtain ⟨out, s₁, howner, h₁⟩ := Call.bind_eq_ok_iff.1 h
  obtain ⟨wire, s₂, hwire, hhand⟩ := Call.bind_eq_ok_iff.1 h₁
  obtain ⟨rs', s₃, hrs, h₂⟩ := Call.bind_eq_ok_iff.1 howner
  obtain ⟨view, s₄, hview, h₃⟩ := Call.bind_eq_ok_iff.1 h₂
  obtain ⟨effTS, s₅, heff, h₄⟩ := Call.bind_eq_ok_iff.1 h₃
  obtain ⟨plan, s₆, hlift, h₅⟩ := Call.bind_eq_ok_iff.1 h₄
  obtain ⟨u, s₇, hpersist, hpure⟩ := Call.bind_eq_ok_iff.1 h₅
  obtain ⟨hplan, hs₆⟩ := Call.lift_eq_ok_iff.1 hlift
  obtain ⟨-, hs₂⟩ := Call.lift_eq_ok_iff.1 hwire
  obtain ⟨-, hs₅⟩ := Call.read_eq_ok_iff.1 heff
  obtain ⟨-, hs₁⟩ := Call.lift_eq_ok_iff.1 hpure
  obtain rfl := hsees.lookupRealm hrs
  obtain ⟨ci, hresolve, hown, hpath⟩ := planPublish_ok hplan
  rw [hsees.deviceView hview] at hresolve
  have hhanded := handOver_ok hhand
  rw [← hs₂, ← hs₁, (keeps_persistRow p _).of_eq hpersist, ← hs₆, ← hs₅,
    (keeps_deviceView p _ _).of_eq hview, (keeps_lookupRealm p _).of_eq hrs] at hhanded
  exact ⟨⟨ci, hresolve, hown, hpath⟩, _, rfl, hhanded⟩

theorem Sees.sendConsumerProperties_ok (h : sendConsumerProperties p rs id s = (.ok (), s')) :
    ∃ m : Outgoing, m.topic = deviceTopic realm id (utf8 "control/consumer/properties") ∧
      s'.handed = s.handed ++ [m] := by
  obtain ⟨props, s₁, hprops, h₁⟩ := Call.bind_eq_ok_iff.1 h
  obtain ⟨frame, s₂, hframe, hhand⟩ := Call.bind_eq_ok_iff.1 h₁
  obtain ⟨-, hs₂⟩ := Call.read_eq_ok_iff.1 hframe
  have hhanded := handOver_ok hhand
  rw [← hs₂, (keeps_callStorePort _).of_eq hprops, hsees.name] at hhanded
  exact ⟨_, rfl, hhanded⟩

/-- An unset has passed the gates; an empty message on its topic and the list were handed over. -/
theorem Sees.unsetServerProperty_ok (h : unsetServerProperty p realm id name path s = (.ok (), s')) :
    (∃ ci, rs.resolve (fun n => intro.lookup n) name = some ci ∧ ci.ownership = .server ∧
      ∃ ptr, ci.trie.matchPath path = some ptr) ∧
    ∃ m m' : Outgoing, m.topic = deviceTopic realm id (name ++ path) ∧
      m'.topic = deviceTopic realm id (utf8 "control/consumer/properties") ∧
      s'.handed = s.handed ++ [m, m'] := by
  obtain ⟨rs', s₁, hrs, h₁⟩ := Call.bind_eq_ok_iff.1 h
  obtain ⟨view, s₂, hview, h₂⟩ := Call.bind_eq_ok_iff.1 h₁
  obtain ⟨key, s₃, hlift, h₃⟩ := Call.bind_eq_ok_iff.1 h₂
  obtain ⟨existed, s₄, hunset, h₄⟩ := Call.bind_eq_ok_iff.1 h₃
  obtain ⟨u, s₅, hhand, hsend⟩ := Call.bind_eq_ok_iff.1 h₄
  obtain ⟨hplan, hs₃⟩ := Call.lift_eq_ok_iff.1 hlift
  obtain rfl := hsees.lookupRealm hrs
  obtain ⟨ci, hresolve, hown, -, hmatch, -⟩ := planUnset_ok hplan
  rw [hsees.deviceView hview] at hresolve
  obtain ⟨m', htopic, hhanded⟩ := hsees.sendConsumerProperties_ok hsend
  rw [handOver_ok hhand, (keeps_callStorePort _).of_eq hunset, ← hs₃,
    (keeps_deviceView p _ _).of_eq hview, (keeps_lookupRealm p _).of_eq hrs,
    List.append_assoc] at hhanded
  exact ⟨⟨ci, hresolve, hown, hmatch⟩, _, m', rfl, htopic, hhanded⟩

end Sees

end

end Astrate.Engine
