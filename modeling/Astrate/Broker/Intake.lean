import Astrate.Broker.Authenticate

/-!
# Sessions and the messages they hand over

The hooks of `internal/broker` around one connection after the other: `OnPacketRead` and
`OnConnectAuthenticate` of `authhook.go`, `OnPublish` of `broker.go` and the end of `OnDisconnect` of
`lifecycle.go`, with the registry of sessions they share. The hooks of a connection come in this order;
those of different connections interleave at every access to the pools, the store and the registry.

The registry is keyed by the rendered identity and read by the client identifier. For a connection that
was let in the two are one text, since `ParseCN` accepts canonical texts only. A message carries the
identity of the session that was found, and it is only handed over if that session is the connection's
own (`inbound_bound`).
-/

set_option autoImplicit false

namespace Astrate.Broker

open Astrate.GoLib
open Astrate.Engine (InboundMessage)
open Astrate.Store (Device Devices getDevice)

/-- What `OnPublish` reads of a PUBLISH packet. -/
structure Publish where
  topicName : Bytes
  payload : Bytes
  qos : Nat
  deriving DecidableEq

/-- What `OnPublish` returns. -/
inductive PublishCode where
  /-- `ErrRejectPacket`: the packet is not acknowledged. -/
  | rejectPacket
  /-- `CodeSuccessIgnore`: the packet is acknowledged. -/
  | successIgnore
  deriving DecidableEq, Repr

/-- Where a connection is. -/
inductive ClientPoint (χ : Type) where
  /-- Before CONNECT is read. -/
  | accepted
  /-- CONNECT went through `OnPacketRead` and gave the client its identifier. -/
  | read
  /-- In `OnConnectAuthenticate`, with a certificate that was verified. -/
  | identified (identity : Identity) (rc : RealmCA χ)
  /-- In `OnConnectAuthenticate`, before `admit`. -/
  | checked (identity : Identity) (rc : RealmCA χ)
  | authenticated
  /-- In `OnPublish`, before `Submit`. -/
  | publishing (msg : InboundMessage) (qos : Nat)
  /-- In `OnPublish`, waiting for `Ack`. -/
  | waiting
  | closed
  deriving DecidableEq

/-- Behind `OnConnectAuthenticate`. -/
def ClientPoint.behindAuth {χ : Type} : ClientPoint χ → Bool
  | .accepted | .read | .identified _ _ | .checked _ _ => false
  | .authenticated | .publishing _ _ | .waiting | .closed => true

/-- A client of the MQTT server: `sent` is the identifier of its CONNECT packet, `id` is `cl.ID`. -/
structure Client (χ : Type) where
  net : NetConn
  sent : Bytes
  id : Bytes := []
  point : ClientPoint χ := .accepted
  deriving DecidableEq

/-- `deviceSession`, without what the ACL reads. -/
structure DeviceSession where
  identity : Identity
  realmID : Int
  client : Nat
  deriving DecidableEq

/-- The broker: `inbox` and `returned` say what was handed to the intake and what `OnPublish` returned,
each for its client. -/
structure BrokerState (χ : Type) where
  pools : PoolContent χ
  devices : Devices
  clients : List (Client χ)
  registry : List (Bytes × DeviceSession) := []
  closing : Bool := false
  inbox : List (Nat × InboundMessage) := []
  returned : List (Nat × PublishCode) := []
  deriving DecidableEq

/-- A step of the hooks of one connection. -/
inductive HookCall where
  | packetRead
  /-- `OnConnectAuthenticate` up to the verification. -/
  | identify
  /-- `GetDevice`, which may fail, and the checks of the device. -/
  | getDevice (fails : Bool)
  | put
  /-- `OnPublish` up to the check of the session. -/
  | publish (pk : Publish) (receivedAt : Time)
  | submit
  | ack
  /-- `OnPublish` stops waiting because the broker is closing. -/
  | giveUp
  | disconnect (takenOver : Bool)
  deriving DecidableEq

/-- A step of the system. -/
inductive BrokerStep (χ : Type) where
  /-- The pools are reloaded or changed. -/
  | setPools (pools : PoolContent χ)
  /-- Others write the table of the devices. -/
  | setDevices (devices : Devices)
  | close
  | client (c : Nat) (call : HookCall)
  deriving DecidableEq

/-- `sessionRegistry.removeIfOwner`. -/
def removeIfOwner (registry : List (Bytes × DeviceSession)) (clientID : Bytes) (c : Nat) :
    List (Bytes × DeviceSession) :=
  match registry.lookup clientID with
  | none => registry
  | some sess => if sess.client ≠ c then registry else mapDelete registry clientID

namespace BrokerState

variable {χ : Type}

/-- Connections that have sent nothing yet. -/
def init (pools : PoolContent χ) (devices : Devices) (conns : List (NetConn × Bytes)) : BrokerState χ :=
  { pools := pools, devices := devices, clients := conns.map fun conn => { net := conn.1, sent := conn.2 } }

/-- A client is changed. -/
def setClient (s : BrokerState χ) (c : Nat) (cl : Client χ) : BrokerState χ :=
  { s with clients := s.clients.set c cl }

def move (s : BrokerState χ) (c : Nat) (cl : Client χ) (point : ClientPoint χ) : BrokerState χ :=
  s.setClient c { cl with point := point }

/-- `OnPublish` returns. -/
def ret (s : BrokerState χ) (c : Nat) (code : PublishCode) : BrokerState χ :=
  { s with returned := s.returned ++ [(c, code)] }

variable (h : AuthHook χ)

/-- `identify` and its denials. -/
def identifyClient (s : BrokerState χ) (c : Nat) (cl : Client χ) : BrokerState χ :=
  match identify h s.pools cl.net cl.id with
  | .error _ => s.move c cl .closed
  | .ok r => s.move c cl (.identified r.1 r.2)

def checkClient (s : BrokerState χ) (c : Nat) (cl : Client χ) (identity : Identity) (rc : RealmCA χ) :
    BrokerState χ :=
  match getDevice s.devices (rc.id, identity.deviceID) with
  | .error _ => s.move c cl .closed
  | .ok dev =>
    match checkDevice h cl.net dev with
    | .error _ => s.move c cl .closed
    | .ok _ => s.move c cl (.checked identity rc)

/-- `OnPublish`, with the session that was found. -/
def publishWith (s : BrokerState χ) (c : Nat) (cl : Client χ) (pk : Publish) (receivedAt : Time) :
    Option DeviceSession → BrokerState χ
  | none => s.ret c .rejectPacket
  | some sess =>
    if sess.client ≠ c then s.ret c .rejectPacket
    else
      s.move c cl (.publishing
        ⟨sess.identity.realm, sess.identity.deviceID, pk.topicName, pk.payload, receivedAt⟩ pk.qos)

/-- A step of the client. -/
def clientStep (s : BrokerState χ) (c : Nat) (cl : Client χ) (call : HookCall) : Option (BrokerState χ) :=
  match call, cl.point with
  | .packetRead, .accepted =>
    match onPacketRead cl.net (.connect cl.sent) with
    | .connect id => some (s.setClient c { cl with id := id, point := .read })
    | .other => none
  | .identify, .read => some (s.identifyClient h c cl)
  | .getDevice fails, .identified identity rc =>
    if fails then some (s.move c cl .closed) else some (s.checkClient h c cl identity rc)
  | .put, .checked identity rc =>
    some { s.move c cl .authenticated with
      registry := mapSet s.registry identity.cn ⟨identity, rc.id, c⟩ }
  | .publish pk receivedAt, .authenticated =>
    some (s.publishWith c cl pk receivedAt (s.registry.lookup cl.id))
  | .submit, .publishing msg qos =>
    if qos = 0 then
      some { (s.move c cl .authenticated).ret c .successIgnore with inbox := s.inbox ++ [(c, msg)] }
    else some { s.move c cl .waiting with inbox := s.inbox ++ [(c, msg)] }
  | .ack, .waiting => some ((s.move c cl .authenticated).ret c .successIgnore)
  | .giveUp, .waiting =>
    if s.closing then some ((s.move c cl .authenticated).ret c .rejectPacket) else none
  | .disconnect takenOver, .authenticated =>
    if takenOver then some (s.move c cl .closed)
    else some { s.move c cl .closed with registry := removeIfOwner s.registry cl.id c }
  | _, _ => none

/-- One step, if possible. -/
def step (s : BrokerState χ) : BrokerStep χ → Option (BrokerState χ)
  | .setPools pools => some { s with pools := pools }
  | .setDevices devices => some { s with devices := devices }
  | .close => some { s with closing := true }
  | .client c call =>
    match s.clients[c]? with
    | none => none
    | some cl => s.clientStep h c cl call

/-! ## What a step does -/

/-- The ways of a client on its own. -/
inductive Goes (s : BrokerState χ) (c : Nat) (cl : Client χ) : HookCall → BrokerState χ → Prop
  | read (id : Bytes) (point : cl.point = .accepted)
      (rewritten : onPacketRead cl.net (.connect cl.sent) = .connect id) :
      Goes s c cl .packetRead (s.setClient c { cl with id := id, point := .read })
  | identified (identity : Identity) (rc : RealmCA χ) (point : cl.point = .read)
      (ok : identify h s.pools cl.net cl.id = .ok (identity, rc)) :
      Goes s c cl .identify (s.move c cl (.identified identity rc))
  | checked (identity : Identity) (rc : RealmCA χ) (dev : Device)
      (point : cl.point = .identified identity rc)
      (found : s.devices.lookup (rc.id, identity.deviceID) = some dev)
      (ok : checkDevice h cl.net dev = .ok ()) :
      Goes s c cl (.getDevice false) (s.move c cl (.checked identity rc))
  | put (identity : Identity) (rc : RealmCA χ) (point : cl.point = .checked identity rc) :
      Goes s c cl .put { s.move c cl .authenticated with
        registry := mapSet s.registry identity.cn ⟨identity, rc.id, c⟩ }
  | taken (pk : Publish) (receivedAt : Time) (sess : DeviceSession) (point : cl.point = .authenticated)
      (found : s.registry.lookup cl.id = some sess) (own : sess.client = c) :
      Goes s c cl (.publish pk receivedAt) (s.move c cl (.publishing
        ⟨sess.identity.realm, sess.identity.deviceID, pk.topicName, pk.payload, receivedAt⟩ pk.qos))
  | rejected (pk : Publish) (receivedAt : Time) :
      Goes s c cl (.publish pk receivedAt) (s.ret c .rejectPacket)
  | submitted (msg : InboundMessage) (qos : Nat) (point : cl.point = .publishing msg qos)
      (next : ClientPoint χ) (after : next = .authenticated ∨ next = .waiting)
      (returned : List (Nat × PublishCode)) :
      Goes s c cl .submit { s.move c cl next with
        inbox := s.inbox ++ [(c, msg)], returned := returned }
  | returned (call : HookCall) (code : PublishCode) (point : cl.point = .waiting)
      (waited : call = .ack ∨ call = .giveUp) :
      Goes s c cl call ((s.move c cl .authenticated).ret c code)
  | closed (call : HookCall) (notPut : call ≠ .put)
      (notPublish : ∀ pk receivedAt, call ≠ .publish pk receivedAt) :
      Goes s c cl call (s.move c cl .closed)
  | removed (takenOver : Bool) :
      Goes s c cl (.disconnect takenOver)
        { s.move c cl .closed with registry := removeIfOwner s.registry cl.id c }

variable {h} {s s' : BrokerState χ} {c : Nat} {cl : Client χ} {call : HookCall}

theorem goes_of_clientStep (hstep : s.clientStep h c cl call = some s') : Goes h s c cl call s' := by
  unfold clientStep at hstep
  split at hstep
  · next hpoint =>
    split at hstep
    · next id hread =>
      cases hstep
      exact .read id hpoint hread
    · cases hstep
  · next hpoint =>
    cases hstep
    rw [identifyClient]
    split
    · exact .closed _ nofun nofun
    · next r hok => exact .identified r.1 r.2 hpoint hok
  · next fails identity rc hpoint =>
    split_ifs at hstep with hfails
    · cases hstep
      exact .closed _ nofun nofun
    · cases hstep
      obtain rfl : fails = false := by simpa using hfails
      rw [checkClient, getDevice]
      cases hfound : s.devices.lookup (rc.id, identity.deviceID) with
      | none => exact .closed _ nofun nofun
      | some dev =>
        dsimp only
        cases hcheck : checkDevice h cl.net dev with
        | error e => exact .closed _ nofun nofun
        | ok u => exact .checked identity rc dev hpoint hfound hcheck
  · next identity rc hpoint =>
    cases hstep
    exact .put identity rc hpoint
  · next pk receivedAt hpoint =>
    cases hstep
    cases hfound : s.registry.lookup cl.id with
    | none => exact .rejected pk receivedAt
    | some sess =>
      rw [publishWith]
      split_ifs with hown
      · exact .rejected pk receivedAt
      · exact .taken pk receivedAt sess hpoint hfound (not_not.1 hown)
  · next msg qos hpoint =>
    split_ifs at hstep with hqos
    · cases hstep
      exact .submitted msg qos hpoint .authenticated (Or.inl rfl) _
    · cases hstep
      exact .submitted msg qos hpoint .waiting (Or.inr rfl) _
  · next hpoint =>
    cases hstep
    exact .returned _ _ hpoint (Or.inl rfl)
  · next hpoint =>
    split_ifs at hstep
    cases hstep
    exact .returned _ _ hpoint (Or.inr rfl)
  · next takenOver hpoint =>
    split_ifs at hstep
    · cases hstep
      exact .closed _ nofun nofun
    · cases hstep
      exact .removed _
  · cases hstep

/-- A client step, taken apart. -/
theorem goes_of_step (hstep : s.step h (.client c call) = some s') :
    ∃ cl, s.clients[c]? = some cl ∧ Goes h s c cl call s' := by
  rw [step] at hstep
  cases hc : s.clients[c]? with
  | none =>
    rw [hc] at hstep
    cases hstep
  | some cl =>
    rw [hc] at hstep
    exact ⟨cl, rfl, goes_of_clientStep hstep⟩

/-! ## Where an identity comes from -/

variable {id : Bytes} {identity : Identity}

/-- The identity of a connection that was identified is its client identifier. -/
theorem cn_of_identify {pools : PoolContent χ} {net : NetConn} {sent : Bytes}
    {rc : RealmCA χ} (hok : identify h pools net id = .ok (identity, rc))
    (hread : onPacketRead net (.connect sent) = .connect id) : identity.cn = id := by
  cases hpeers : net.peerCertificates with
  | none =>
    -- the identity was read from the client identifier itself
    simp only [identify, hpeers] at hok
    split_ifs at hok
    cases hcn : parseCN id with
    | error e => simp [hcn] at hok
    | ok i =>
      cases hlookup : pools.byName.lookup i.realm with
      | none => simp [hcn, hlookup] at hok
      | some ca =>
        simp only [hcn, hlookup, Except.ok.injEq, Prod.mk.injEq] at hok
        obtain ⟨rfl, -⟩ := hok
        exact (parseCN_eq_ok hcn).2
  | some peers =>
    obtain ⟨leaf, rest, rfl, hcn, -⟩ := identify_tls hok hpeers
    simp only [onPacketRead, hpeers, hcn, Packet.connect.injEq] at hread
    rw [← hread]
    exact (parseCN_eq_ok hcn).2

section History

variable (h) (s₀ : BrokerState χ) (conns : List (NetConn × Bytes)) (as : List (BrokerStep χ))

/-- The schedule verified the certificates of the connection against the pool of its realm. -/
def Identified (c : Nat) (net : NetConn) (identity : Identity) (rc : RealmCA χ) : Prop :=
  ∃ s₁ id, Takes (step h) s₀ as (.client c .identify) s₁ ∧
    identify h s₁.pools net id = .ok (identity, rc)

/-- The schedule found the device of the connection and let it in. -/
def LetIn (c : Nat) (identity : Identity) : Prop :=
  ∃ net sent rc, conns[c]? = some (net, sent) ∧ Identified h s₀ as c net identity rc ∧
    ∃ s₂ dev, Takes (step h) s₀ as (.client c (.getDevice false)) s₂ ∧
      s₂.devices.lookup (rc.id, identity.deviceID) = some dev ∧ checkDevice h net dev = .ok ()

/-- The message carries the identity under which the connection was let in. -/
def Carries (c : Nat) (msg : InboundMessage) : Prop :=
  ∃ identity, LetIn h s₀ conns as c identity ∧ msg.realm = identity.realm ∧
    msg.deviceID = identity.deviceID

/-- What the schedule has done for a client at this point. -/
inductive PointSound (c : Nat) (cl : Client χ) : ClientPoint χ → Prop
  | accepted : PointSound c cl .accepted
  | read (rewritten : onPacketRead cl.net (.connect cl.sent) = .connect cl.id) : PointSound c cl .read
  | identified (identity : Identity) (rc : RealmCA χ) (cn : identity.cn = cl.id)
      (verified : Identified h s₀ as c cl.net identity rc) : PointSound c cl (.identified identity rc)
  | checked (identity : Identity) (rc : RealmCA χ) (cn : identity.cn = cl.id)
      (letIn : LetIn h s₀ conns as c identity) : PointSound c cl (.checked identity rc)
  | authenticated : PointSound c cl .authenticated
  | publishing (msg : InboundMessage) (qos : Nat) (carries : Carries h s₀ conns as c msg) :
      PointSound c cl (.publishing msg qos)
  | waiting : PointSound c cl .waiting
  | closed : PointSound c cl .closed

/-- What every step keeps. -/
structure Sound (s : BrokerState χ) : Prop where
  nets : ∀ (c : Nat) cl, s.clients[c]? = some cl → conns[c]? = some (cl.net, cl.sent)
  points : ∀ (c : Nat) cl, s.clients[c]? = some cl → PointSound h s₀ conns as c cl cl.point
  registry : ∀ k sess, s.registry.lookup k = some sess → LetIn h s₀ conns as sess.client sess.identity
  inbox : ∀ e ∈ s.inbox, Carries h s₀ conns as e.1 e.2

variable {h} {s₀} {conns} {as}

theorem Identified.append {net : NetConn} {rc : RealmCA χ}
    (hid : Identified h s₀ as c net identity rc) (a : BrokerStep χ) :
    Identified h s₀ (as ++ [a]) c net identity rc := by
  obtain ⟨s₁, id, htakes, hok⟩ := hid
  exact ⟨s₁, id, htakes.append [a], hok⟩

theorem LetIn.append (hin : LetIn h s₀ conns as c identity) (a : BrokerStep χ) :
    LetIn h s₀ conns (as ++ [a]) c identity := by
  obtain ⟨net, sent, rc, hconn, hid, s₂, dev, htakes, hrest⟩ := hin
  exact ⟨net, sent, rc, hconn, hid.append a, s₂, dev, htakes.append [a], hrest⟩

theorem Carries.append {msg : InboundMessage} (hmsg : Carries h s₀ conns as c msg) (a : BrokerStep χ) :
    Carries h s₀ conns (as ++ [a]) c msg := by
  obtain ⟨identity, hin, hcarries⟩ := hmsg
  exact ⟨identity, hin.append a, hcarries⟩

theorem PointSound.append {point : ClientPoint χ} (hpoint : PointSound h s₀ conns as c cl point)
    (a : BrokerStep χ) : PointSound h s₀ conns (as ++ [a]) c cl point := by
  cases hpoint with
  | accepted => exact .accepted
  | read hread => exact .read hread
  | identified identity rc hcn hid => exact .identified identity rc hcn (hid.append a)
  | checked identity rc hcn hin => exact .checked identity rc hcn (hin.append a)
  | authenticated => exact .authenticated
  | publishing msg qos hmsg => exact .publishing msg qos (hmsg.append a)
  | waiting => exact .waiting
  | closed => exact .closed

/-- A step that leaves clients, registry and messages as they are. -/
theorem Sound.keep (hs : Sound h s₀ conns as s) (a : BrokerStep χ) (hclients : s'.clients = s.clients)
    (hregistry : s'.registry = s.registry) (hinbox : s'.inbox = s.inbox) : Sound h s₀ conns (as ++ [a]) s' where
  nets := by
    rw [hclients]
    exact hs.nets
  points := by
    rw [hclients]
    exact fun c cl hc => (hs.points c cl hc).append a
  registry := by
    rw [hregistry]
    exact fun k sess hk => (hs.registry k sess hk).append a
  inbox := by
    rw [hinbox]
    exact fun e he => (hs.inbox e he).append a

/-- A step of one client: its new point is sound, and so is what it adds to registry and messages. -/
theorem Sound.update (hs : Sound h s₀ conns as s) (a : BrokerStep χ) (hc : s.clients[c]? = some cl)
    {cl' : Client χ} (hclients : s'.clients = s.clients.set c cl') (hnet : cl'.net = cl.net)
    (hsent : cl'.sent = cl.sent) (hpoint : PointSound h s₀ conns (as ++ [a]) c cl' cl'.point)
    (hregistry : ∀ k sess, s'.registry.lookup k = some sess → s.registry.lookup k = some sess ∨
      LetIn h s₀ conns (as ++ [a]) sess.client sess.identity)
    (hinbox : ∀ e ∈ s'.inbox, e ∈ s.inbox ∨ Carries h s₀ conns (as ++ [a]) e.1 e.2) :
    Sound h s₀ conns (as ++ [a]) s' where
  nets := by
    intro i other hi
    rw [hclients] at hi
    rcases getElem?_set_cases hi with ⟨rfl, rfl⟩ | ⟨-, hi⟩
    · rw [hnet, hsent]
      exact hs.nets i cl hc
    · exact hs.nets i other hi
  points := by
    intro i other hi
    rw [hclients] at hi
    rcases getElem?_set_cases hi with ⟨rfl, rfl⟩ | ⟨-, hi⟩
    · exact hpoint
    · exact (hs.points i other hi).append a
  registry := by
    intro k sess hk
    rcases hregistry k sess hk with hold | hnew
    · exact (hs.registry k sess hold).append a
    · exact hnew
  inbox := by
    intro e he
    rcases hinbox e he with hold | hnew
    · exact (hs.inbox e hold).append a
    · exact hnew

theorem lookup_removeIfOwner {registry : List (Bytes × DeviceSession)} {k : Bytes}
    {sess : DeviceSession} (hk : (removeIfOwner registry id c).lookup k = some sess) :
    registry.lookup k = some sess := by
  rw [removeIfOwner] at hk
  split at hk
  · exact hk
  · split_ifs at hk
    · exact hk
    · rw [lookup_mapDelete] at hk
      split_ifs at hk
      exact hk

/-- One step of one client. -/
theorem Sound.goes (hs : Sound h s₀ conns as s) (hrun : exec (step h) s₀ as = some s)
    (hc : s.clients[c]? = some cl) (hgoes : Goes h s c cl call s') :
    Sound h s₀ conns (as ++ [.client c call]) s' := by
  have hpoint := hs.points c cl hc
  have hnow : Takes (step h) s₀ (as ++ [.client c call]) (.client c call) s := takes_last hrun
  cases hgoes with
  | read id _ hread =>
    exact hs.update _ hc rfl rfl rfl (.read hread) (fun _ _ => Or.inl) fun _ => Or.inl
  | identified identity rc hat hok =>
    rw [hat] at hpoint
    cases hpoint with
    | read hread =>
      exact hs.update _ hc rfl rfl rfl
        (.identified identity rc (cn_of_identify hok hread) ⟨s, cl.id, hnow, hok⟩)
        (fun _ _ => Or.inl) fun _ => Or.inl
  | checked identity rc dev hat hfound hok =>
    rw [hat] at hpoint
    cases hpoint with
    | identified _ _ hcn hid =>
      exact hs.update _ hc rfl rfl rfl
        (.checked identity rc hcn
          ⟨cl.net, cl.sent, rc, hs.nets c cl hc, hid.append _, s, dev, hnow, hfound, hok⟩)
        (fun _ _ => Or.inl) fun _ => Or.inl
  | put identity rc hat =>
    rw [hat] at hpoint
    cases hpoint with
    | checked _ _ hcn hin =>
      refine hs.update _ hc rfl rfl rfl .authenticated (fun k sess hk => ?_) fun _ => Or.inl
      rw [lookup_mapSet] at hk
      split_ifs at hk
      · cases hk
        exact Or.inr (hin.append _)
      · exact Or.inl hk
  | taken pk receivedAt sess _ hfound hown =>
    -- the session is the connection's own, and so is its identity
    have hin := hs.registry _ sess hfound
    rw [hown] at hin
    exact hs.update _ hc rfl rfl rfl
      (.publishing _ _ ⟨sess.identity, hin.append _, rfl, rfl⟩) (fun _ _ => Or.inl) fun _ => Or.inl
  | rejected => exact hs.keep _ rfl rfl rfl
  | submitted msg qos hat next hnext returned =>
    rw [hat] at hpoint
    cases hpoint with
    | publishing _ _ hmsg =>
      refine hs.update _ hc rfl rfl rfl ?_ (fun _ _ => Or.inl) fun e he => ?_
      · rcases hnext with rfl | rfl
        · exact .authenticated
        · exact .waiting
      · rcases List.mem_append.1 he with hold | hnew
        · exact Or.inl hold
        · rw [List.mem_singleton.1 hnew]
          exact Or.inr (hmsg.append _)
  | returned _ code => exact hs.update _ hc rfl rfl rfl .authenticated (fun _ _ => Or.inl) fun _ => Or.inl
  | closed => exact hs.update _ hc rfl rfl rfl .closed (fun _ _ => Or.inl) fun _ => Or.inl
  | removed =>
    exact hs.update _ hc rfl rfl rfl .closed (fun _ _ hk => Or.inl (lookup_removeIfOwner hk))
      fun _ => Or.inl

theorem Sound.step {a : BrokerStep χ} (hs : Sound h s₀ conns as s)
    (hrun : exec (BrokerState.step h) s₀ as = some s) (hstep : s.step h a = some s') :
    Sound h s₀ conns (as ++ [a]) s' := by
  cases a with
  | setPools pools =>
    cases hstep
    exact hs.keep _ rfl rfl rfl
  | setDevices devices =>
    cases hstep
    exact hs.keep _ rfl rfl rfl
  | close =>
    cases hstep
    exact hs.keep _ rfl rfl rfl
  | client c call =>
    obtain ⟨cl, hc, hgoes⟩ := goes_of_step hstep
    exact hs.goes hrun hc hgoes

theorem sound_init (pools : PoolContent χ) (devices : Devices) (conns : List (NetConn × Bytes)) :
    Sound h s₀ conns [] (init pools devices conns) where
  nets := by
    intro c cl hc
    simp only [init, List.getElem?_map, Option.map_eq_some_iff] at hc
    obtain ⟨conn, hconn, rfl⟩ := hc
    exact hconn
  points := by
    intro c cl hc
    simp only [init, List.getElem?_map, Option.map_eq_some_iff] at hc
    obtain ⟨conn, -, rfl⟩ := hc
    exact .accepted
  registry := nofun
  inbox := nofun

theorem sound_run {pools : PoolContent χ} {devices : Devices} {conns : List (NetConn × Bytes)}
    (hrun : exec (BrokerState.step h) (init pools devices conns) as = some s) :
    Sound h (init pools devices conns) conns as s :=
  exec_history (I := Sound h (init pools devices conns) conns)
    (fun _ _ _ _ hrun hs hstep => hs.step hrun hstep) (sound_init pools devices conns) hrun

end History

/-! ## Connections that were taken over -/

/-- The session under this client identifier is not the connection's, and will not be. -/
structure Displaced (c : Nat) (id : Bytes) (s : BrokerState χ) : Prop where
  client : ∃ cl, s.clients[c]? = some cl ∧ cl.id = id ∧ cl.point.behindAuth = true
  registry : ∀ sess, s.registry.lookup id = some sess → sess.client ≠ c

theorem Displaced.update {i : Nat} {cl' : Client χ} (hd : Displaced c id s)
    (hclients : s'.clients = s.clients.set i cl')
    (hself : i = c → cl'.id = id ∧ cl'.point.behindAuth = true)
    (hregistry : ∀ sess, s'.registry.lookup id = some sess →
      s.registry.lookup id = some sess ∨ sess.client ≠ c) : Displaced c id s' := by
  constructor
  · obtain ⟨cl, hc, hrest⟩ := hd.client
    rw [hclients]
    by_cases hi : i = c
    · subst hi
      exact ⟨cl', List.getElem?_set_self (List.getElem?_eq_some_iff.1 hc).1, hself rfl⟩
    · exact ⟨cl, (List.getElem?_set_ne hi).trans hc, hrest⟩
  · intro sess hsess
    rcases hregistry sess hsess with hold | hnew
    · exact hd.registry sess hold
    · exact hnew

theorem Displaced.goes {i : Nat} (hd : Displaced c id s) (hi : s.clients[i]? = some cl)
    (hgoes : Goes h s i cl call s') : Displaced c id s' := by
  -- the connection itself has its authentication behind it
  have hself : i = c → cl.id = id ∧ cl.point.behindAuth = true := by
    rintro rfl
    obtain ⟨cl', hc, hrest⟩ := hd.client
    obtain rfl := Option.some.inj (hi.symm.trans hc)
    exact hrest
  have hbefore : ∀ {point}, cl.point = point → point.behindAuth = false → i ≠ c := by
    rintro point rfl hpoint hic
    rw [(hself hic).2] at hpoint
    cases hpoint
  cases hgoes with
  | read _ hat =>
    exact hd.update rfl (fun hic => absurd hic (hbefore hat rfl)) fun _ => Or.inl
  | identified _ _ hat =>
    exact hd.update rfl (fun hic => absurd hic (hbefore hat rfl)) fun _ => Or.inl
  | checked _ _ _ hat =>
    exact hd.update rfl (fun hic => absurd hic (hbefore hat rfl)) fun _ => Or.inl
  | put identity rc hat =>
    refine hd.update rfl (fun hic => absurd hic (hbefore hat rfl)) fun sess hsess => ?_
    rw [lookup_mapSet] at hsess
    split_ifs at hsess
    · cases hsess
      exact Or.inr (hbefore hat rfl)
    · exact Or.inl hsess
  | taken => exact hd.update rfl (fun hic => ⟨(hself hic).1, rfl⟩) fun _ => Or.inl
  | rejected => exact ⟨hd.client, hd.registry⟩
  | submitted msg qos _ next hnext =>
    refine hd.update rfl (fun hic => ⟨(hself hic).1, ?_⟩) fun _ => Or.inl
    rcases hnext with rfl | rfl
    · rfl
    · rfl
  | returned => exact hd.update rfl (fun hic => ⟨(hself hic).1, rfl⟩) fun _ => Or.inl
  | closed => exact hd.update rfl (fun hic => ⟨(hself hic).1, rfl⟩) fun _ => Or.inl
  | removed =>
    exact hd.update rfl (fun hic => ⟨(hself hic).1, rfl⟩) fun sess hsess =>
      Or.inl (lookup_removeIfOwner hsess)

theorem Displaced.step {a : BrokerStep χ} (hd : Displaced c id s)
    (hstep : s.step h a = some s') : Displaced c id s' := by
  cases a with
  | setPools pools =>
    cases hstep
    exact ⟨hd.client, hd.registry⟩
  | setDevices devices =>
    cases hstep
    exact ⟨hd.client, hd.registry⟩
  | close =>
    cases hstep
    exact ⟨hd.client, hd.registry⟩
  | client i call =>
    obtain ⟨cl, hi, hgoes⟩ := goes_of_step hstep
    exact hd.goes hi hgoes

/-- The other connection enters the registry under the same client identifier. -/
theorem displaced_of_put {c' : Nat} {cl' : Client χ} {conns : List (NetConn × Bytes)}
    {as : List (BrokerStep χ)} {s₀ : BrokerState χ} (hs : Sound h s₀ conns as s)
    (hc : s.clients[c]? = some cl) (hbehind : cl.point.behindAuth = true)
    (hc' : s.clients[c']? = some cl') (hid : cl'.id = cl.id) (hne : c' ≠ c)
    (hstep : s.step h (.client c' .put) = some s') : Displaced c cl.id s' := by
  obtain ⟨cl₁, hcl₁, hgoes⟩ := goes_of_step hstep
  obtain rfl := Option.some.inj (hc'.symm.trans hcl₁)
  cases hgoes with
  | put identity rc hat =>
    have hpoint := hs.points c' cl' hc'
    rw [hat] at hpoint
    cases hpoint with
    | checked _ _ hcn _ =>
      refine ⟨⟨cl, (List.getElem?_set_ne hne).trans hc, rfl, hbehind⟩, fun sess hsess => ?_⟩
      rw [lookup_mapSet, hcn, hid, if_pos (beq_self_eq_true _)] at hsess
      cases hsess
      exact hne
  | returned _ _ _ hcall => rcases hcall with hcall | hcall <;> cases hcall
  | closed _ hput => exact absurd rfl hput

theorem Displaced.publish {pk : Publish} {receivedAt : Time} (hd : Displaced c id s)
    (hstep : s.step h (.client c (.publish pk receivedAt)) = some s') : s' = s.ret c .rejectPacket := by
  obtain ⟨cl, hc, hgoes⟩ := goes_of_step hstep
  obtain ⟨cl', hc', rfl, hbehind⟩ := hd.client
  obtain rfl := Option.some.inj (hc.symm.trans hc')
  cases hgoes with
  | taken _ _ sess _ hfound hown => exact absurd hown (hd.registry sess hfound)
  | rejected => rfl
  | returned _ _ _ hcall => rcases hcall with hcall | hcall <;> cases hcall
  | closed _ _ hpublish => exact absurd rfl (hpublish pk receivedAt)

/-- **Session identity.** A message that a TLS connection handed to the intake carries the identity in
the CN of the leaf certificate of that connection, whatever client identifier it sent: its chain was
verified against the pool of that realm, and its device was found and not inhibited, when it connected.
A connection under whose client identifier another one was admitted since gets every publish rejected. -/
theorem inbound_bound (h : AuthHook χ) (pools : PoolContent χ) (devices : Devices)
    (conns : List (NetConn × Bytes)) (schedule : List (BrokerStep χ)) (s : BrokerState χ)
    (hrun : exec (BrokerState.step h) (init pools devices conns) schedule = some s) :
    (∀ c msg net sent peers, (c, msg) ∈ s.inbox → conns[c]? = some (net, sent) →
      net.peerCertificates = some peers →
      ∃ leaf rest identity rc s₁ s₂ dev, peers = leaf :: rest ∧ parseCN leaf.commonName = .ok identity ∧
        msg.realm = identity.realm ∧ msg.deviceID = identity.deviceID ∧
        Takes (BrokerState.step h) (init pools devices conns) schedule (.client c .identify) s₁ ∧
        s₁.pools.byName.lookup identity.realm = some rc ∧ h.verify leaf rest rc.cert = true ∧
        Takes (BrokerState.step h) (init pools devices conns) schedule (.client c (.getDevice false)) s₂ ∧
        s₂.devices.lookup (rc.id, identity.deviceID) = some dev ∧ dev.status ≠ .inhibited) ∧
    (∀ (c c' : Nat) cl cl' later s₁ pk receivedAt s₂, s.clients[c]? = some cl →
      cl.point.behindAuth = true → s.clients[c']? = some cl' → cl'.id = cl.id → c' ≠ c →
      exec (BrokerState.step h) s (.client c' .put :: later) = some s₁ →
      s₁.step h (.client c (.publish pk receivedAt)) = some s₂ → s₂ = s₁.ret c .rejectPacket) := by
  have hs := sound_run hrun
  constructor
  · intro c msg net sent peers hmsg hconn hpeers
    obtain ⟨identity, ⟨net', sent', rc, hconn', ⟨s₁, id, htakes₁, hok⟩, s₂, dev, htakes₂, hfound, hcheck⟩,
      hrealm, hid⟩ := hs.inbox _ hmsg
    obtain ⟨rfl, rfl⟩ := Prod.mk.inj (Option.some.inj (hconn.symm.trans hconn'))
    obtain ⟨leaf, rest, hleaf, hcn, hlookup, hverify⟩ := identify_tls hok hpeers
    exact ⟨leaf, rest, identity, rc, s₁, s₂, dev, hleaf, hcn, hrealm, hid, htakes₁, hlookup, hverify,
      htakes₂, hfound, status_of_checkDevice hcheck⟩
  · intro c c' cl cl' later s₁ pk receivedAt s₂ hc hbehind hc' hid hne hlater hpublish
    obtain ⟨sput, hput, hlater⟩ := exec_cons_eq_some.1 hlater
    have hd := displaced_of_put hs hc hbehind hc' hid hne hput
    have hd₁ : Displaced c cl.id s₁ :=
      exec_preserves (fun _ _ _ hd hstep => hd.step hstep) hd hlater
    exact hd₁.publish hpublish

/-! ## Two connections of one device -/

/-- A hook that compares authority keys in the place of signatures. -/
def keyHook : AuthHook Bytes where
  verify leaf _ key := leaf.authorityKeyId == key
  enforceLatestCert := false
  devListenerID := []

/-- A connection with a certificate of a device of the realm `acme`, under an identifier of its own. -/
def acmeConn (sent : String) : NetConn × Bytes :=
  (⟨some [⟨utf8 "acme/_____________________w", 1, utf8 "key", []⟩], utf8 "tls"⟩, utf8 sent)

def acmePools : PoolContent Bytes := ⟨[(utf8 "acme", ⟨1, utf8 "acme", utf8 "key"⟩)], [utf8 "key"]⟩

def acmeDevices : Devices := [((1, Vector.replicate 16 255), { credentialsSecretHash := [] })]

/-- The hooks of CONNECT before the session is entered. -/
def connecting (c : Nat) : List (BrokerStep Bytes) :=
  [.client c .packetRead, .client c .identify, .client c (.getDevice false)]

def acmeHello : HookCall := .publish ⟨utf8 "acme/_____________________w", utf8 "a:1:0", 0⟩ ⟨0⟩

/-- One connection publishes while another one of its device is connecting. -/
def acmeRun : List (BrokerStep Bytes) :=
  connecting 0 ++ [.client 0 .put, .client 0 acmeHello, .client 0 .submit] ++ connecting 1

def acmeInit : BrokerState Bytes := init acmePools acmeDevices [acmeConn "paho-1", acmeConn "paho-2"]

/-- The identifiers that the clients sent play no part, and the older connection is out once the newer
one is admitted. -/
theorem inbound_bound_acme :
    ∃ s s₁ s₂ : BrokerState Bytes, exec (BrokerState.step keyHook) acmeInit acmeRun = some s ∧
      (∃ msg, s.inbox = [(0, msg)] ∧
        ∃ identity, parseCN (utf8 "acme/_____________________w") = .ok identity ∧
          msg.realm = identity.realm ∧ msg.deviceID = identity.deviceID) ∧
      exec (BrokerState.step keyHook) s [.client 1 .put] = some s₁ ∧
      s₁.step keyHook (.client 0 acmeHello) = some s₂ ∧ s₂ = s₁.ret 0 .rejectPacket := by
  obtain ⟨s₂, hs₂⟩ := Option.isSome_iff_exists.1 (by decide +kernel :
    (exec (BrokerState.step keyHook) acmeInit (acmeRun ++ [.client 1 .put, .client 0 acmeHello])).isSome = true)
  rw [exec_append, Option.bind_eq_some_iff] at hs₂
  obtain ⟨s, hs, hlater⟩ := hs₂
  obtain ⟨s₁, hput, hpublish⟩ := exec_cons_eq_some.1 hlater
  obtain ⟨s₂, hpublish, hnil⟩ := exec_cons_eq_some.1 hpublish
  cases hnil
  have hinbox : (exec (BrokerState.step keyHook) acmeInit acmeRun).map BrokerState.inbox =
      some [(0, ⟨utf8 "acme", Vector.replicate 16 255, utf8 "acme/_____________________w", utf8 "a:1:0", ⟨0⟩⟩)] := by
    decide +kernel
  have hclients : (exec (BrokerState.step keyHook) acmeInit acmeRun).map
      (fun s => s.clients.map fun cl => (cl.id, cl.point.behindAuth)) =
      some [(utf8 "acme/_____________________w", true), (utf8 "acme/_____________________w", false)] := by
    decide +kernel
  rw [hs, Option.map_some, Option.some.injEq] at hinbox hclients
  obtain ⟨cl, clients, hcl, hcl₀, hclients⟩ := List.map_eq_cons_iff.1 hclients
  obtain ⟨cl', clients', rfl, hcl₁, -⟩ := List.map_eq_cons_iff.1 hclients
  obtain ⟨hid₀, hbehind⟩ := Prod.mk.inj hcl₀
  obtain ⟨hid₁, -⟩ := Prod.mk.inj hcl₁
  obtain ⟨hbound, hrejected⟩ := inbound_bound keyHook acmePools acmeDevices _ acmeRun s hs
  obtain ⟨leaf, rest, identity, rc, -, -, dev, hleaf, hcn, hrealm, hdevice, -⟩ :=
    hbound 0 _ _ _ _ (hinbox ▸ List.mem_singleton_self _) rfl rfl
  obtain ⟨rfl, -⟩ := List.cons.inj hleaf
  refine ⟨s, s₁, s₂, hs, ⟨_, hinbox, identity, hcn, hrealm, hdevice⟩, ?_, hpublish, ?_⟩
  · exact exec_cons_eq_some.2 ⟨s₁, hput, rfl⟩
  · exact hrejected 0 1 cl cl' [] s₁ _ _ s₂ (by rw [hcl]; rfl) hbehind (by rw [hcl]; rfl)
      (hid₁.trans hid₀.symm) (by decide) (exec_cons_eq_some.2 ⟨s₁, hput, rfl⟩) hpublish

end BrokerState

end Astrate.Broker
