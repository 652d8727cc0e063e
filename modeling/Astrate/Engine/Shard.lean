import Astrate.Engine.Data

/-!
# The shard loop

One shard goroutine of `internal/engine/router.go` with the message dispatch `handle` and the handlers
of introspection, control and capabilities messages. `shardPass` runs a shard over a list of inputs: the
messages received, the firings of the flush timer, the cancellation of the context and the closing of
the channel, in any order.
-/

set_option autoImplicit false

namespace Astrate.Engine

open Astrate.GoLib

/-! ## Introspection payloads -/

def maxIntrospectionBytes : Nat := 64 * 1024

/-- `strconv.Atoi`, of a version number. -/
def parseVersion (s : Bytes) : Option Int :=
  match parseInt s with
  | .ok i => if i < 0 then none else some i
  | .error _ => none

/-- One entry `name:major:minor`. -/
def parseIntrospectionEntry (entry : Bytes) : Except FmtError (Bytes × InterfaceVersion) :=
  match cutByte 58 entry with
  | none => errorf "malformed introspection entry %q" [.str entry]
  | some (name, versions) =>
    if name = [] then errorf "malformed introspection entry %q" [.str entry]
    else if name.any fun c => c = 47 || c = 43 || c = 35 then
      errorf "interface name %q contains topic metacharacters" [.str name]
    else
      match cutByte 58 versions with
      | none => errorf "malformed introspection entry %q" [.str entry]
      | some (major, minor) =>
        match parseVersion major, parseVersion minor with
        | none, _ => errorf "invalid major version in introspection entry %q" [.str entry]
        | some _, none => errorf "invalid minor version in introspection entry %q" [.str entry]
        | some major, some minor => .ok (name, ⟨major, minor⟩)

def parseIntrospectionEntries : Introspection → List Bytes → Except FmtError Introspection
  | intro, [] => .ok intro
  | intro, entry :: entries => do
      let v ← parseIntrospectionEntry entry
      parseIntrospectionEntries (mapSet intro v.1 v.2) entries

def parseIntrospection (s : Bytes) : Except FmtError Introspection :=
  if s = [] then .ok [] else parseIntrospectionEntries [] (s.splitOn 59)

/-! ## Capabilities -/

def capPurgePropertiesCompressionFormat : Bytes := utf8 "purge_properties_compression_format"

/-- `decodeCapabilities`: members that are not strings are dropped. -/
def decodeCapabilities (unmarshal : Bytes → Option (List (Bytes × Option Bytes))) (p : Bytes) :
    Except FmtError (List (Bytes × Bytes)) :=
  if p = [] then errorf "empty capabilities payload" []
  else
    match unmarshal p with
    | none => errorf "capabilities payload is not valid BSON: %w" [.err]
    | some raw => .ok (raw.filterMap fun member => member.2.map fun v => (member.1, v))

def validateCapability (key value : Bytes) : Except FmtError Unit :=
  if key = capPurgePropertiesCompressionFormat ∧ value ≠ utf8 "zlib" ∧ value ≠ utf8 "plaintext" then
    errorf "invalid value %q for %s (must be %q or %q)"
      [.str value, .str key, .str (utf8 "zlib"), .str (utf8 "plaintext")]
  else .ok ()

/-- Each capability is checked. -/
def validateCapabilities : List (Bytes × Bytes) → Except FmtError Unit
  | [] => .ok ()
  | c :: cs => do
      validateCapability c.1 c.2
      validateCapabilities cs

section

variable {σ : Type} (e : EnginePorts σ)

/-- One attempt of `retryStore`: whether the work succeeded, or nothing on a transient failure. -/
def tryStore (id : Nat) (kind : TopicKind) (work : σ → Except StoreError Unit × σ) :
    Proc Event (Shard σ) (Option Bool) := do
  let r ← withEnv work
  match r with
  | .ok () => pure (some true)
  | .error err =>
    if err = .notFound then do
      reject id "device_unknown" [⟨"store: not found", []⟩]
      pure (some false)
    else if isPermanentCommitError err then do
      consume id kind (.replied (.error err))
      pure (some false)
    else pure none

/-- `retryStore`: whether the work succeeded; otherwise the message has been dealt with. -/
def retryStore (id : Nat) (kind : TopicKind) (work : σ → Except StoreError Unit × σ) :
    Proc Event (Shard σ) Bool := do
  let s ← Proc.get
  retryParked (tryStore id kind work)
    (do
      Proc.emit (.abandoned id)
      pure false)
    s.parks

/-! ## Handlers -/

/-- Work of the store that a message without data asks for, and its acknowledgment. -/
def withDevice (id : Nat) (kind : TopicKind) (m : InboundMessage) (realm : RealmSchema)
    (prepare : DeviceState → DeviceState) (work : DeviceState → σ → Except StoreError Unit × σ)
    (finish : DeviceState → DeviceState) : Proc Event (Shard σ) Unit := do
  let r ← deviceState e id m realm
  match r with
  | none => pure ()
  | some dev => do
      withEnv fun env => ((), e.putDevice m.realm m.deviceID (prepare dev) env)
      let done ← retryStore id kind (work (prepare dev))
      if done then do
        withEnv fun env => ((), e.putDevice m.realm m.deviceID (finish (prepare dev)) env)
        consume id kind (.replied (.ok ()))
      else pure ()

/-- `handleIntrospection`. -/
def handleIntrospection (id : Nat) (m : InboundMessage) (realm : RealmSchema) : Proc Event (Shard σ) Unit :=
  if m.payload.length > maxIntrospectionBytes then
    reject id "introspection_invalid"
      [⟨"%d byte introspection exceeds the %d byte cap", [.int m.payload.length, .int maxIntrospectionBytes]⟩]
  else
    match parseIntrospection m.payload with
    | .error err => reject id "introspection_invalid" [err]
    | .ok intro =>
      withDevice e id .introspection m realm (fun dev => dev)
        (fun _ => e.updateIntrospection realm.id m.deviceID intro)
        fun dev => { dev with introspection := intro }

/-- `control/emptyCache`. -/
def handleEmptyCache (id : Nat) (m : InboundMessage) (realm : RealmSchema) : Proc Event (Shard σ) Unit :=
  withDevice e id .control m realm (fun dev => { dev with resetHintOnBSON := true })
    (fun dev => e.resync realm m.deviceID dev.formatHint) fun dev => dev

/-- `control/producer/properties`. -/
def handleProducerProperties (id : Nat) (m : InboundMessage) (realm : RealmSchema) :
    Proc Event (Shard σ) Unit :=
  match e.inflateProperties m.payload with
  | .error err => reject id "control_payload_invalid" [err]
  | .ok entries =>
    withDevice e id .control m realm (fun dev => dev)
      (fun dev => e.purge realm m.deviceID dev entries) fun dev => dev

/-- An unknown control subpath is consumed silently. -/
def handleControl (id : Nat) (m : InboundMessage) (realm : RealmSchema) (subpath : Bytes) :
    Proc Event (Shard σ) Unit :=
  if subpath = utf8 "emptyCache" then handleEmptyCache e id m realm
  else if subpath = utf8 "producer/properties" then handleProducerProperties e id m realm
  else consume id .control .idle

/-- `handleCapabilities`. -/
def handleCapabilities (id : Nat) (m : InboundMessage) (realm : RealmSchema) : Proc Event (Shard σ) Unit :=
  match decodeCapabilities e.unmarshal m.payload with
  | .error err => reject id "capabilities_payload_invalid" [err]
  | .ok caps =>
    match validateCapabilities caps with
    | .error err => reject id "capabilities_payload_invalid" [err]
    | .ok () => do
      match ← deviceState e id m realm with
      | none => pure ()
      | some dev => do
          let v := (caps.lookup capPurgePropertiesCompressionFormat).getD dev.purgeCompression
          withEnv fun env => ((), e.putDevice m.realm m.deviceID { dev with purgeCompression := v } env)
          consume id .capabilities .idle

/-! ## Dispatch -/

/-- Disarm the timer and flush. -/
def flushShard : Proc Event (Shard σ) Unit := do
  Proc.modify fun s => { s with armed := false }
  flush e.toBatchPort

/-- A message for a handler: the batch is flushed first. Without a handler it is consumed. -/
def dispatch (id : Nat) (kind : TopicKind) (wired : Bool)
    (handler : Proc Event (Shard σ) Unit) : Proc Event (Shard σ) Unit :=
  if wired then do
    flushShard e
    handler
  else consume id kind .unhandled

/-- A message of a known realm under the root of its device. -/
def handleTopic (id : Nat) (m : InboundMessage) (realm : RealmSchema) (rest : Bytes) :
    Proc Event (Shard σ) Unit :=
  match classify rest with
  | (.introspection, _) =>
    dispatch e id .introspection e.onIntrospection (handleIntrospection e id m realm)
  | (.control, subpath) => dispatch e id .control e.onControl (handleControl e id m realm subpath)
  | (.capabilities, _) =>
    dispatch e id .capabilities e.onCapabilities (handleCapabilities e id m realm)
  | (.data, _) => do
      let r ← deviceState e id m realm
      match r with
      | none => pure ()
      | some dev => processData e id m realm dev rest

/-- `handle`; the message is given the next number. -/
def handle (m : InboundMessage) : Proc Event (Shard σ) Unit := do
  let id ← Proc.modifyGet fun s => (s.received, { s with received := s.received + 1 })
  Proc.emit (.received id m)
  let r ← withEnv (e.realmOrReload m.realm)
  match r with
  | none => reject id "realm_unknown" [⟨"realm not in schema snapshot", []⟩]
  | some realm =>
    match splitDeviceTopic m.topic m.realm m.deviceID with
    | none => reject id "malformed_topic" [⟨"topic does not carry the device root", []⟩]
    | some rest => handleTopic e id m realm rest

/-! ## The loop -/

/-- What the loop of a shard waits for. -/
inductive Input where
  | message (m : InboundMessage)
  | timer
  | done
  | closed

/-- After a message: flush a full batch, or arm the timer. -/
def afterHandle : Proc Event (Shard σ) Unit := do
  let s ← Proc.get
  if s.ops.length ≥ e.batchMaxRows then flushShard e
  else if s.ops.length > 0 ∧ s.armed = false then Proc.modify fun s => { s with armed := true }
  else pure ()

/-- The timer only fires when it is armed. -/
def fireTimer : Proc Event (Shard σ) Unit := do
  let s ← Proc.get
  if s.armed then flushShard e else pure ()

/-- The cancelled context leaves the batch behind. -/
def leaveBatch : Proc Event (Shard σ) Unit := do
  let s ← Proc.get
  Proc.forEach (fun op => Proc.emit (.abandoned op.ack)) s.ops
  Proc.modify fun s => { s with ops := [] }

/-- `shardPass`, without panics. -/
def shardPass : List Input → Proc Event (Shard σ) Unit
  | [] => pure ()
  | .message m :: inputs => do
      handle e m
      afterHandle e
      shardPass inputs
  | .timer :: inputs => do
      fireTimer e
      shardPass inputs
  | .done :: _ => leaveBatch
  | .closed :: _ => flushShard e

/-- A run of a shard from its start. -/
def runShard (env : σ) (parks : List Park) (inputs : List Input) : Outcome Event (Shard σ) Unit :=
  shardPass e inputs { env := env, parks := parks }

end

end Astrate.Engine
