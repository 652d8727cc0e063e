import Astrate.Channels.Watch
import Astrate.GoLib.Chan
import Astrate.GoLib.Schedule

/-!
# Events on their way to the members of rooms

`internal/appengine/channels/ws.go` and `room.go` with the bus of `internal/engine/stream/bus.go`: sessions
join and leave rooms and set watches, the bus publishes events, and the goroutine `dispatch` of each room
puts envelopes into the mailboxes of its members. A room belongs to the topic that a client has sent, and
its subscription to the realm of the session that created it.

`dispatch` holds the lock of the members while it sends, and so do `Leave` and the end of `dispatch` while
they retire the room and close mailboxes. What a session sees of its frames is left out: the replies, and
the frames that are made of what is in the mailbox.

Whatever is in a mailbox comes from an event of the realm of the session, and no mailbox is used or closed
after it was closed (`channels_isolated`).
-/

set_option autoImplicit false

namespace Astrate.Channels.Delivery

open Astrate.GoLib
open Astrate.GoLib.Json (Generic)

/-! ## Topics -/

/-- The topics of a realm start with this. -/
def topicStart (realm : Bytes) : Bytes := utf8 "rooms:" ++ realm ++ utf8 ":"

/-- The name of the room in a topic of the realm; it is not empty. -/
def roomName (realm topic : Bytes) : Option Bytes :=
  match cutPrefix (topicStart realm) topic with
  | none => none
  | some name => if name.isEmpty then none else some name

/-- The topic names a room of the realm. -/
def InRealm (realm topic : Bytes) : Prop := ∃ name, topic = topicStart realm ++ name

theorem inRealm_of_roomName {realm topic name : Bytes} (h : roomName realm topic = some name) :
    InRealm realm topic := by
  rw [roomName] at h
  cases hcut : cutPrefix (topicStart realm) topic with
  | none =>
    rw [hcut] at h
    cases h
  | some rest => exact ⟨rest, cutPrefix_eq_some_iff.1 hcut⟩

/-- A topic is of one realm only, if the names of realms have no colon. -/
theorem InRealm.unique {realm realm' topic : Bytes} (hcolon : 58 ∉ realm) (hcolon' : 58 ∉ realm')
    (h : InRealm realm topic) (h' : InRealm realm' topic) : realm = realm' := by
  obtain ⟨name, rfl⟩ := h
  obtain ⟨name', hname⟩ := h'
  have hcolons : utf8 ":" = [58] := by decide
  rw [topicStart, topicStart, hcolons, List.append_assoc, List.append_assoc, List.append_assoc,
    List.append_assoc, List.append_cancel_left_eq] at hname
  -- the cut at the first colon behind `rooms:` gives the realm back
  have hcut := (cutByte_eq_some_iff 58 (realm ++ [58] ++ name) realm name).2 ⟨by simp, hcolon⟩
  have hcut' := (cutByte_eq_some_iff 58 (realm' ++ [58] ++ name') realm' name').2 ⟨by simp, hcolon'⟩
  rw [List.append_assoc, hname, ← List.append_assoc, hcut'] at hcut
  cases hcut
  rfl

/-! ## The state -/

/-- An event of the bus, which belongs to a realm. -/
structure BusEvent (β : Type) extends Event β where
  realm : Bytes

/-- What `dispatch` is doing. -/
inductive Dispatch (β : Type) where
  | waiting
  | received (ev : BusEvent β)
  /-- It has a copy of the watches. -/
  | copied (ev : BusEvent β) (watches : List WatchEntry)
  /-- It holds the lock of the members, and has these envelopes to send. -/
  | delivering (ev : BusEvent β) (pending : List (SimpleEvent β × Nat))
  /-- It holds the lock at the end of the room, before the removal from the registry. -/
  | retiring
  | ended

namespace Dispatch

variable {β : Type}

/-- The event that is being dispatched. -/
def event : Dispatch β → Option (BusEvent β)
  | .received ev | .copied ev _ | .delivering ev _ => some ev
  | _ => none

/-- What is still to be put into mailboxes. -/
def pending : Dispatch β → List (SimpleEvent β × Nat)
  | .delivering _ pending => pending
  | _ => []

/-- The goroutine holds the lock of the room. -/
def locks : Dispatch β → Bool
  | .delivering _ _ | .retiring => true
  | _ => false

end Dispatch

/-- A room with its subscription, which has the realm `realm`. The members are given by their numbers;
`leaving` is the last one, while its `Leave` retires the room. -/
structure Room (β : Type) where
  topic : Bytes
  realm : Bytes
  watches : List (Bytes × WatchEntry) := []
  members : List Nat := []
  leaving : Option Nat := none
  events : Chan (BusEvent β)
  subscribed : Bool
  retired : Bool := false
  dispatch : Dispatch β := .waiting

namespace Room

variable {β : Type}

/-- Somebody holds the lock of the members. -/
def locked (room : Room β) : Bool := room.leaving.isSome || room.dispatch.locks

/-- `cancelFn`: the subscription is removed and its channel closed, if that has not happened. -/
def cancel (room : Room β) : Room β :=
  { room with
    subscribed := false
    events := if room.subscribed then { room.events with closed := true } else room.events }

/-- The members whose mailboxes are still to be closed. -/
def held (room : Room β) : List Nat := room.leaving.toList ++ room.members

end Room

/-- A member of a room, with its mailbox. -/
structure Member (β : Type) where
  room : Nat
  session : Nat
  mailbox : Chan (SimpleEvent β)
  dropped : Nat := 0

/-- What a session has been authenticated for, and what its token authorizes. -/
structure Client where
  realm : Bytes
  authorizesJoin : Bytes → Bool
  authorizesWatch : Bytes → Bool

/-- A room that a session has joined. -/
structure Joined where
  room : Nat
  member : Nat
  joinRef : Option Bytes

/-- Where the reader of a session is. -/
inductive SessionPoint where
  | idle
  /-- Behind `Join`, before `AddMember`. -/
  | adding (topic : Bytes) (room : Nat) (ref : Option Bytes)
  /-- In `Leave`, in the middle of `retire`. -/
  | retiring (topic : Bytes)

/-- A connection. -/
structure Session where
  client : Client
  rooms : List (Bytes × Joined) := []
  point : SessionPoint := .idle
  /-- The connection is gone, and the session leaves its rooms. -/
  closing : Bool := false

/-- An envelope that was put into a mailbox, with the event it was made of. -/
structure Placed (β : Type) where
  member : Nat
  event : BusEvent β
  envelope : SimpleEvent β

/-- All sessions and rooms; `rooms` keeps those that are gone as well, and so does `members`. What has
happened is kept too: a send on a closed channel or a second close of a channel is a panic, `placed` has
the envelopes in the order they were sent, and `closes` the members whose mailbox was closed. -/
structure System (β : Type) where
  busClosed : Bool := false
  rooms : List (Room β) := []
  registry : List (Bytes × Nat) := []
  members : List (Member β) := []
  sessions : List Session
  panicked : Bool := false
  placed : List (Placed β) := []
  closes : List Nat := []

/-- A step of the goroutine of a room. -/
inductive DispatchStep where
  | receive
  | copyWatches
  | lock
  | deliver (n : Nat)
  | unlock
  /-- The end of `dispatch`, up to the removal from the registry. -/
  | finish
  | unregister

/-- A step of the system. -/
inductive Step (β : Type) where
  | join (c : Nat) (topic : Bytes) (ref : Option Bytes)
  | addMember (c : Nat)
  | watch (c : Nat) (topic payload : Bytes)
  | unwatch (c : Nat) (topic name : Bytes)
  | leave (c : Nat) (topic : Bytes)
  /-- The end of a `Leave` that retires the room. -/
  | unregister (c : Nat)
  | disconnect (c : Nat)
  | dispatch (r : Nat) (a : DispatchStep)
  /-- `pumpEvents` takes an envelope from the mailbox. -/
  | pump (m : Nat)
  | publish (ev : BusEvent β)
  | closeBus

/-- `DefaultMailbox` -/
def defaultMailbox : Nat := 64

/-- `DefaultSubscriberBuffer` -/
def defaultSubscriberBuffer : Nat := 64

namespace System

variable {β : Type}

/-- Sessions without rooms. -/
def init (clients : List Client) : System β where
  sessions := clients.map fun client => { client }

/-- A room is changed. -/
def setRoom (s : System β) (r : Nat) (room : Room β) : System β := { s with rooms := s.rooms.set r room }

/-- A member is changed. -/
def setMember (s : System β) (m : Nat) (mem : Member β) : System β :=
  { s with members := s.members.set m mem }

/-- A session is changed. -/
def setSession (s : System β) (c : Nat) (session : Session) : System β :=
  { s with sessions := s.sessions.set c session }

/-- `close(m.mailbox)` -/
def closeMailbox (s : System β) (m : Nat) : System β :=
  match s.members[m]? with
  | none => s
  | some mem =>
    match mem.mailbox.close with
    | none => { s with panicked := true, closes := s.closes ++ [m] }
    | some ch => { s.setMember m { mem with mailbox := ch } with closes := s.closes ++ [m] }

/-- Several mailboxes are closed. -/
def closeAll (s : System β) : List Nat → System β
  | [] => s
  | m :: ms => (s.closeMailbox m).closeAll ms

/-- The send of `dispatch`, which drops the envelope if the mailbox is full. -/
def send (s : System β) (m : Nat) (ev : BusEvent β) (e : SimpleEvent β) : System β :=
  match s.members[m]? with
  | none => s
  | some mem =>
    match mem.mailbox.send e with
    | .panics => { s with panicked := true }
    | .blocks => s.setMember m { mem with dropped := mem.dropped + 1 }
    | .sent ch => { s.setMember m { mem with mailbox := ch } with placed := s.placed ++ [⟨m, ev, e⟩] }

/-! ## Frames -/

/-- A room with a subscription; that of a bus which is closed has a closed channel. -/
def newRoom (busClosed : Bool) (realm topic : Bytes) : Room β where
  topic := topic
  realm := realm
  events := { cap := defaultSubscriberBuffer, closed := busClosed }
  subscribed := !busClosed

/-- The room is registered under its topic. -/
def addRoom (s : System β) (room : Room β) : System β :=
  { s with rooms := s.rooms ++ [room], registry := mapSet s.registry room.topic s.rooms.length }

/-- `handleJoin` up to `AddMember`. -/
def join (s : System β) (c : Nat) (session : Session) (topic : Bytes) (ref : Option Bytes) : System β :=
  match roomName session.client.realm topic with
  | none => s
  | some name =>
    if session.client.authorizesJoin name then
      match session.rooms.lookup topic with
      | some j =>
        -- a rejoin has a new reference
        s.setSession c { session with rooms := mapSet session.rooms topic { j with joinRef := ref } }
      | none =>
        match s.registry.lookup topic with
        | some r =>
          -- the realm is not looked at: the room is that of whoever came first
          s.setSession c { session with point := .adding topic r ref }
        | none =>
          (s.addRoom (newRoom s.busClosed session.client.realm topic)).setSession c
            { session with point := .adding topic s.rooms.length ref }
    else s

/-- A member is added. -/
def appendMember (s : System β) (mem : Member β) : System β := { s with members := s.members ++ [mem] }

/-- `AddMember` -/
def addMember (s : System β) (c : Nat) (session : Session) (topic : Bytes) (r : Nat) (room : Room β)
    (ref : Option Bytes) : System β :=
  ((s.appendMember ⟨r, c, { cap := defaultMailbox }, 0⟩).setRoom r
    { room with members := room.members ++ [s.members.length] }).setSession c
      { session with rooms := mapSet session.rooms topic ⟨r, s.members.length, ref⟩, point := .idle }

/-- The session has left the topic. -/
def forget (s : System β) (c : Nat) (session : Session) (topic : Bytes) : System β :=
  s.setSession c { session with rooms := mapDelete session.rooms topic, point := .idle }

/-- `Leave`; the last member goes on to retire the room, unless that has been done. -/
def leave (s : System β) (c : Nat) (session : Session) (topic : Bytes) (j : Joined) (room : Room β) :
    System β :=
  if room.members.contains j.member then
    let rest := room.members.filter fun m => m != j.member
    if rest.isEmpty && !room.retired then
      -- the lock is held until the topic is out of the registry
      (s.setRoom j.room { room.cancel with members := [], leaving := some j.member, retired := true }).setSession
        c { session with point := .retiring topic }
    else ((s.setRoom j.room { room with members := rest }).closeMailbox j.member).forget c session topic
  else s.forget c session topic

/-- The end of `retire` and of `Leave`. -/
def unregister (s : System β) (c : Nat) (session : Session) (topic : Bytes) (j : Joined) (room : Room β) :
    System β :=
  (({ s.setRoom j.room { room with leaving := none } with
      registry := mapDelete s.registry room.topic }).closeMailbox j.member).forget c session topic

/-- A session that is between two frames. -/
def atSession (s : System β) (c : Nat) (act : Session → Option (System β)) : Option (System β) :=
  match s.sessions[c]? with
  | none => none
  | some session =>
    match session.point with
    | .idle => act session
    | _ => none

/-- The room of a topic that the session has joined; otherwise the reply is an error. -/
def atTopic (s : System β) (session : Session) (topic : Bytes)
    (act : Joined → Room β → Option (System β)) : Option (System β) :=
  match session.rooms.lookup topic with
  | none => some s
  | some j =>
    match s.rooms[j.room]? with
    | none => none
    | some room => act j room

/-- A step of a room that exists. -/
def atRoom (s : System β) (r : Nat) (act : Room β → Option (System β)) : Option (System β) :=
  match s.rooms[r]? with
  | none => none
  | some room => act room

/-! ## Events -/

/-- `Publish` at one subscription. -/
def publishTo (ev : BusEvent β) (room : Room β) : Room β :=
  if room.subscribed && room.realm == ev.realm then
    match room.events.send ev with
    | .sent ch => { room with events := ch }
    | _ => room
  else room

/-- A subscription of the bus with a closed channel. -/
def publishPanics (ev : BusEvent β) (room : Room β) : Bool :=
  room.subscribed && room.realm == ev.realm && room.events.closed

/-- The bus hands an event to its subscribers. -/
def publish (s : System β) (ev : BusEvent β) : System β :=
  if s.busClosed then s
  else
    { s with
      rooms := s.rooms.map (publishTo ev)
      panicked := s.panicked || s.rooms.any (publishPanics ev) }

/-- `Close` of the bus. -/
def closeBus (s : System β) : System β := { s with busClosed := true, rooms := s.rooms.map Room.cancel }

variable (valueMatches : Bytes → β → Option Generic → Bool)

/-- The envelopes of an event for the members. -/
def envelopes (ev : BusEvent β) (watches : List WatchEntry) (members : List Nat) : List (SimpleEvent β × Nat) :=
  (watches.filterMap fun w => envelope valueMatches w ev.toEvent).flatMap fun e => members.map fun m => (e, m)

/-- The steps of `dispatch`. -/
def dispatchStep (s : System β) (r : Nat) (room : Room β) : DispatchStep → Option (System β)
  | .receive =>
    match room.dispatch, room.events.recv with
    | .waiting, some (ev, ch) => some (s.setRoom r { room with events := ch, dispatch := .received ev })
    | _, _ => none
  | .copyWatches =>
    match room.dispatch with
    | .received ev => some (s.setRoom r { room with dispatch := .copied ev (room.watches.map (·.2)) })
    | _ => none
  | .lock =>
    match room.dispatch with
    | .copied ev watches =>
      if room.locked then none
      else
        some (s.setRoom r
          { room with dispatch := .delivering ev (envelopes valueMatches ev watches room.members) })
    | _ => none
  | .deliver n =>
    -- maps have no order, so that any envelope may be the next
    match room.dispatch with
    | .delivering ev pending =>
      match pending[n]? with
      | none => none
      | some (e, m) =>
        some ((s.setRoom r { room with dispatch := .delivering ev (pending.eraseIdx n) }).send m ev e)
    | _ => none
  | .unlock =>
    match room.dispatch with
    | .delivering _ [] => some (s.setRoom r { room with dispatch := .waiting })
    | _ => none
  | .finish =>
    match room.dispatch with
    | .waiting =>
      -- the channel has been closed, and nothing is left in it
      if room.events.drained && !room.locked then
        some ((s.setRoom r
          { room.cancel with
            members := [], retired := true, dispatch := if room.retired then .ended else .retiring }).closeAll
            room.members)
      else none
    | _ => none
  | .unregister =>
    match room.dispatch with
    | .retiring =>
      some { s.setRoom r { room with dispatch := .ended } with
        registry := mapDelete s.registry room.topic }
    | _ => none

/-- One step, if possible. -/
def step (s : System β) : Step β → Option (System β)
  | .join c topic ref =>
    s.atSession c fun session => if session.closing then none else some (s.join c session topic ref)
  | .addMember c =>
    match s.sessions[c]? with
    | none => none
    | some session =>
      match session.point with
      | .adding topic r ref =>
        s.atRoom r fun room => if room.locked then none else some (s.addMember c session topic r room ref)
      | _ => none
  | .watch c topic payload =>
    s.atSession c fun session =>
      if session.closing then none
      else
        s.atTopic session topic fun j room =>
          match handleWatch session.client.authorizesWatch payload with
          | .error _ => some s
          | .ok w =>
            some (s.setRoom j.room { room with watches := mapSet room.watches w.entry.name w.entry })
  | .unwatch c topic name =>
    s.atSession c fun session =>
      if session.closing then none
      else
        s.atTopic session topic fun j room =>
          some (s.setRoom j.room { room with watches := mapDelete room.watches name })
  | .leave c topic =>
    s.atSession c fun session =>
      s.atTopic session topic fun j room =>
        if room.locked then none else some (s.leave c session topic j room)
  | .unregister c =>
    match s.sessions[c]? with
    | none => none
    | some session =>
      match session.point with
      | .retiring topic =>
        s.atTopic session topic fun j room =>
          -- the lock is held by this member
          if room.leaving == some j.member then some (s.unregister c session topic j room) else none
      | _ => none
  | .disconnect c => s.atSession c fun session => some (s.setSession c { session with closing := true })
  | .pump m =>
    match s.members[m]? with
    | none => none
    | some mem =>
      match mem.mailbox.recv with
      | none => none
      | some (_, ch) => some (s.setMember m { mem with mailbox := ch })
  | .publish ev => some (s.publish ev)
  | .closeBus => some s.closeBus
  | .dispatch r a => s.atRoom r fun room => s.dispatchStep valueMatches r room a

end System

/-! ## Invariants -/

section Invariants

variable {β : Type} (valueMatches : Bytes → β → Option Generic → Bool)

/-- The topic and the realm of a room. -/
def Room.tag (room : Room β) : Bytes × Bytes := (room.topic, room.realm)

/-- A room has events of its realm only, and its channel is open while it is subscribed. -/
structure Room.Sound (room : Room β) : Prop where
  events : ∀ ev ∈ room.events.queue, ev.realm = room.realm
  carried : ∀ ev, room.dispatch.event = some ev → ev.realm = room.realm
  pending : ∀ p ∈ room.dispatch.pending, p.2 ∈ room.members ∧
    ∃ ev w, room.dispatch.event = some ev ∧ envelope valueMatches w ev.toEvent = some p.1
  subscribed : room.subscribed = true → room.events.closed = false
  held : room.held.Nodup

namespace System

/-- The topics and realms of the rooms. -/
def tags (s : System β) : List (Bytes × Bytes) := s.rooms.map Room.tag

/-- The rooms and sessions of the members. -/
def owners (s : System β) : List (Nat × Nat) := s.members.map fun mem => (mem.room, mem.session)

/-- The realms of the sessions. -/
def realms (s : System β) : List Bytes := s.sessions.map fun session => session.client.realm

/-- Rooms have the realm of their topic, and members are in rooms of the realm of their session. -/
structure Tenancy (s : System β) : Prop where
  clients : ∀ realm ∈ s.realms, 58 ∉ realm
  tags : ∀ tag ∈ s.tags, 58 ∉ tag.2 ∧ InRealm tag.2 tag.1
  registry : ∀ topic r, s.registry.lookup topic = some r → ∃ realm, s.tags[r]? = some (topic, realm)
  adding : ∀ session ∈ s.sessions, ∀ topic r ref, session.point = .adding topic r ref →
    InRealm session.client.realm topic ∧ ∃ realm, s.tags[r]? = some (topic, realm)
  owners : ∀ owner ∈ s.owners, ∃ topic realm, s.tags[owner.1]? = some (topic, realm) ∧
    s.realms[owner.2]? = some realm

/-- The mailboxes of the members that a room holds are open. -/
structure Boxes (s : System β) : Prop where
  held : ∀ (r : Nat) room m, s.rooms[r]? = some room → m ∈ room.held →
    ∃ mem, s.members[m]? = some mem ∧ mem.room = r ∧ mem.mailbox.closed = false
  closes : ∀ m ∈ s.closes, ∃ mem, s.members[m]? = some mem ∧ mem.mailbox.closed = true
  once : s.closes.Nodup
  panicked : s.panicked = false

/-- What has been placed is of the realm of the member's session, and mailboxes have nothing else. -/
structure Delivered (s : System β) : Prop where
  placed : ∀ p ∈ s.placed, ∃ owner, s.owners[p.member]? = some owner ∧
    s.realms[owner.2]? = some p.event.realm ∧ ∃ w, envelope valueMatches w p.event.toEvent = some p.envelope
  boxed : ∀ (m : Nat) mem, s.members[m]? = some mem → ∀ e ∈ mem.mailbox.queue,
    ∃ p ∈ s.placed, p.member = m ∧ p.envelope = e

/-- What every step keeps. -/
structure Sound (s : System β) : Prop where
  tenancy : s.Tenancy
  rooms : ∀ room ∈ s.rooms, room.Sound valueMatches
  boxes : s.Boxes
  delivered : s.Delivered valueMatches

end System

end Invariants

/-! ## Updates -/

namespace System

section Updates

variable {β : Type} {valueMatches : Bytes → β → Option Generic → Bool} {s s' : System β}
  {r m c : Nat} {room room' : Room β} {mem mem' : Member β} {session session' : Session}

theorem Tenancy.congr (h : s.Tenancy) (htags : s'.tags = s.tags) (howners : s'.owners = s.owners)
    (hrealms : s'.realms = s.realms)
    (hregistry : ∀ topic r, s'.registry.lookup topic = some r → s.registry.lookup topic = some r)
    (hadding : ∀ session ∈ s'.sessions, ∀ topic r ref, session.point = .adding topic r ref →
      InRealm session.client.realm topic ∧ ∃ realm, s.tags[r]? = some (topic, realm)) : s'.Tenancy := by
  constructor
  case clients =>
    rw [hrealms]
    exact h.clients
  case tags =>
    rw [htags]
    exact h.tags
  case registry =>
    intro topic r hlookup
    rw [htags]
    exact h.registry topic r (hregistry topic r hlookup)
  case adding =>
    rw [htags]
    exact hadding
  case owners =>
    rw [howners, htags, hrealms]
    exact h.owners

theorem Delivered.congr (h : s.Delivered valueMatches) (howners : s'.owners = s.owners)
    (hrealms : s'.realms = s.realms) (hplaced : s'.placed = s.placed)
    (hboxed : ∀ (m : Nat) mem', s'.members[m]? = some mem' →
      ∃ mem, s.members[m]? = some mem ∧ ∀ e ∈ mem'.mailbox.queue, e ∈ mem.mailbox.queue) :
    s'.Delivered valueMatches := by
  constructor
  case placed =>
    rw [hplaced, howners, hrealms]
    exact h.placed
  case boxed =>
    intro m mem' hmem' e he
    obtain ⟨mem, hmem, hqueue⟩ := hboxed m mem' hmem'
    rw [hplaced]
    exact h.boxed m mem hmem e (hqueue e he)

/-- The members are the same. -/
theorem Delivered.same (h : s.Delivered valueMatches) (hmembers : s'.members = s.members)
    (hrealms : s'.realms = s.realms) (hplaced : s'.placed = s.placed) : s'.Delivered valueMatches := by
  refine h.congr (by rw [owners, owners, hmembers]) hrealms hplaced fun m mem hmem => ?_
  exact ⟨mem, hmembers ▸ hmem, fun _ => id⟩

section

variable (h : s.Sound valueMatches)

include h

/-- A room changes; the members it holds are its own and have open mailboxes. -/
theorem Sound.setRoom_of_held (hroom : s.rooms[r]? = some room)
    (htag : room'.tag = room.tag) (hsound : room'.Sound valueMatches)
    (hheld : ∀ m ∈ room'.held, ∃ mem, s.members[m]? = some mem ∧ mem.room = r ∧ mem.mailbox.closed = false) :
    (s.setRoom r room').Sound valueMatches := by
  have htags : (s.setRoom r room').tags = s.tags := map_set_of_eq hroom htag
  refine ⟨h.tenancy.congr htags rfl rfl (fun _ _ => id) h.tenancy.adding, forall_mem_set h.rooms hsound,
    ⟨fun j q m hq hm => ?_, h.boxes.closes, h.boxes.once, h.boxes.panicked⟩, h.delivered.same rfl rfl rfl⟩
  rcases getElem?_set_cases hq with ⟨rfl, rfl⟩ | ⟨_, hq⟩
  · exact hheld m hm
  · exact h.boxes.held j q m hq hm

/-- A room changes, and holds no more members than before. -/
theorem Sound.setRoom (hroom : s.rooms[r]? = some room)
    (htag : room'.tag = room.tag) (hsound : room'.Sound valueMatches)
    (hheld : ∀ m ∈ room'.held, m ∈ room.held) : (s.setRoom r room').Sound valueMatches :=
  h.setRoom_of_held hroom htag hsound fun m hm => h.boxes.held r room m hroom (hheld m hm)

/-- A session changes; what it may be about to add a member to is a room of its realm. -/
theorem Sound.setSession (hc : s.sessions[c]? = some session) (hclient : session'.client = session.client)
    (hadding : ∀ topic r ref, session'.point = .adding topic r ref →
      InRealm session.client.realm topic ∧ ∃ realm, s.tags[r]? = some (topic, realm)) :
    (s.setSession c session').Sound valueMatches := by
  have hrealms : (s.setSession c session').realms = s.realms := map_set_of_eq hc (by rw [hclient])
  refine ⟨h.tenancy.congr rfl rfl hrealms (fun _ _ => id) (forall_mem_set h.tenancy.adding ?_),
    h.rooms, ⟨h.boxes.held, h.boxes.closes, h.boxes.once, h.boxes.panicked⟩,
    h.delivered.same rfl hrealms rfl⟩
  rw [hclient]
  exact hadding

theorem Sound.forget (hc : s.sessions[c]? = some session) (topic : Bytes) :
    (s.forget c session topic).Sound valueMatches :=
  h.setSession hc rfl nofun

/-- A topic is removed from the registry. -/
theorem Sound.deleteTopic (topic : Bytes) :
    ({ s with registry := mapDelete s.registry topic }).Sound valueMatches := by
  refine ⟨h.tenancy.congr rfl rfl rfl (fun topic' r hlookup => ?_) h.tenancy.adding, h.rooms,
    ⟨h.boxes.held, h.boxes.closes, h.boxes.once, h.boxes.panicked⟩,
    h.delivered.same rfl rfl rfl⟩
  rw [lookup_mapDelete] at hlookup
  split_ifs at hlookup
  exact hlookup

omit h in
/-- A member changes, but not whose it is nor whether its mailbox is open. -/
theorem Boxes.setMember (h : s.Boxes) (hmem : s.members[m]? = some mem) (hroom : mem'.room = mem.room)
    (hclosed : mem'.mailbox.closed = mem.mailbox.closed) : (s.setMember m mem').Boxes := by
  refine ⟨fun r room m' hr hm' => ?_, fun m' hm' => ?_, h.once, h.panicked⟩
  · refine exists_getElem?_set hmem (fun _ hx => ?_) (h.held r room m' hr hm')
    exact ⟨hroom.trans hx.1, hclosed.trans hx.2⟩
  · exact exists_getElem?_set hmem (fun _ => hclosed.trans) (h.closes m' hm')

/-- The mailbox loses what it has, or nothing. -/
theorem Sound.setMember (hmem : s.members[m]? = some mem)
    (howner : (mem'.room, mem'.session) = (mem.room, mem.session))
    (hclosed : mem'.mailbox.closed = mem.mailbox.closed)
    (hqueue : ∀ e ∈ mem'.mailbox.queue, e ∈ mem.mailbox.queue) : (s.setMember m mem').Sound valueMatches := by
  have howners : (s.setMember m mem').owners = s.owners := map_set_of_eq hmem howner
  refine ⟨h.tenancy.congr rfl howners rfl (fun _ _ => id) h.tenancy.adding, h.rooms,
    h.boxes.setMember hmem (Prod.mk.inj howner).1 hclosed,
    h.delivered.congr howners rfl rfl fun m' x hx => ?_⟩
  rcases getElem?_set_cases hx with ⟨rfl, rfl⟩ | ⟨_, hx⟩
  · exact ⟨mem, hmem, hqueue⟩
  · exact ⟨x, hx, fun _ => id⟩

end

/-! ## Closing mailboxes -/

/-- The mailbox of the member is open, and no room holds the member. -/
def Loose (s : System β) (m : Nat) : Prop :=
  (∃ mem, s.members[m]? = some mem ∧ mem.mailbox.closed = false) ∧ ∀ room ∈ s.rooms, m ∉ room.held

/-- The member is no longer held by its room, and no other room has it. -/
theorem Sound.loose (h : s.Sound valueMatches) (hroom : s.rooms[r]? = some room) (hm : m ∈ room.held)
    (hm' : m ∉ room'.held) : (s.setRoom r room').Loose m := by
  obtain ⟨mem, hmem, hmemroom, hopen⟩ := h.boxes.held r room m hroom hm
  refine ⟨⟨mem, hmem, hopen⟩, fun q hq hq' => ?_⟩
  obtain ⟨j, hj⟩ := List.mem_iff_getElem?.1 hq
  rcases getElem?_set_cases hj with ⟨rfl, rfl⟩ | ⟨hne, hj⟩
  · exact hm' hq'
  · obtain ⟨x, hx, hxroom, -⟩ := h.boxes.held j q m hj hq'
    rw [hmem] at hx
    cases hx
    exact hne (hxroom.symm.trans hmemroom)

/-- The member with its mailbox closed. -/
def shut (mem : Member β) : Member β := { mem with mailbox := { mem.mailbox with closed := true } }

theorem closeMailbox_of_open (hmem : s.members[m]? = some mem) (hopen : mem.mailbox.closed = false) :
    s.closeMailbox m = { s.setMember m (shut mem) with closes := s.closes ++ [m] } := by
  rw [closeMailbox, hmem]
  dsimp only
  rw [Chan.close, hopen]
  rfl

theorem Sound.close (h : s.Sound valueMatches) (hloose : s.Loose m) :
    (s.closeMailbox m).Sound valueMatches := by
  obtain ⟨⟨mem, hmem, hopen⟩, hfree⟩ := hloose
  rw [closeMailbox_of_open hmem hopen]
  have howners : (s.setMember m (shut mem)).owners = s.owners := map_set_of_eq hmem rfl
  refine ⟨h.tenancy.congr rfl howners rfl (fun _ _ => id) h.tenancy.adding, h.rooms, ⟨?_, ?_, ?_, ?_⟩,
    h.delivered.congr howners rfl rfl fun m' x hx => ?_⟩
  · intro r room m' hr hm'
    refine exists_getElem?_set hmem (fun heq _ => ?_) (h.boxes.held r room m' hr hm')
    exact absurd (heq ▸ hm') (hfree room (List.mem_of_getElem? hr))
  · intro m' hm'
    rcases List.mem_append.1 hm' with hm' | hm'
    · exact exists_getElem?_set hmem (fun _ _ => rfl) (h.boxes.closes m' hm')
    · cases List.mem_singleton.1 hm'
      exact ⟨_, List.getElem?_set_self (List.getElem?_eq_some_iff.1 hmem).1, rfl⟩
  · -- a mailbox that was closed is not open
    refine nodup_concat h.boxes.once fun hm => ?_
    obtain ⟨x, hx, hclosed⟩ := h.boxes.closes m hm
    cases hmem.symm.trans hx
    rw [hopen] at hclosed
    cases hclosed
  · exact h.boxes.panicked
  · rcases getElem?_set_cases hx with ⟨rfl, rfl⟩ | ⟨_, hx⟩
    · exact ⟨mem, hmem, fun _ => id⟩
    · exact ⟨x, hx, fun _ => id⟩

theorem Loose.close {m' : Nat} (hloose : s.Loose m) (h : s.Loose m') (hne : m' ≠ m) :
    (s.closeMailbox m).Loose m' := by
  obtain ⟨⟨mem, hmem, hopen⟩, -⟩ := hloose
  rw [closeMailbox_of_open hmem hopen]
  exact ⟨exists_getElem?_set hmem (fun heq => absurd heq.symm hne) h.1, h.2⟩

theorem Sound.closeAll {ms : List Nat} (h : s.Sound valueMatches) (hloose : ∀ m ∈ ms, s.Loose m)
    (hnodup : ms.Nodup) : (s.closeAll ms).Sound valueMatches := by
  induction ms generalizing s with
  | nil => exact h
  | cons m ms ih =>
    obtain ⟨hm, hnodup⟩ := List.nodup_cons.1 hnodup
    have hhead := hloose m List.mem_cons_self
    refine ih (h.close hhead) (fun m' hm' => ?_) hnodup
    exact hhead.close (hloose m' (List.mem_cons_of_mem m hm')) fun heq => hm (heq ▸ hm')

/-! ## Sending -/

/-- The realm of the session of a member is that of its room. -/
theorem Sound.realm_of_held (h : s.Sound valueMatches) (hroom : s.rooms[r]? = some room)
    (hmem : s.members[m]? = some mem) (hmemroom : mem.room = r) : s.realms[mem.session]? = some room.realm := by
  have howner : (mem.room, mem.session) ∈ s.owners :=
    List.mem_map.2 ⟨mem, List.mem_of_getElem? hmem, rfl⟩
  obtain ⟨topic, realm, htag, hrealm⟩ := h.tenancy.owners _ howner
  rw [hmemroom, System.tags, List.getElem?_map, hroom] at htag
  cases htag
  exact hrealm

/-- The member with one envelope more. -/
def put (mem : Member β) (e : SimpleEvent β) : Member β :=
  { mem with mailbox := { mem.mailbox with queue := mem.mailbox.queue ++ [e] } }

section

variable (h : s.Sound valueMatches)

include h

/-- An envelope of an event of the session's realm is put into the mailbox. -/
theorem Sound.place {ev : BusEvent β} {e : SimpleEvent β} {w : WatchEntry}
    (hmem : s.members[m]? = some mem) (hrealm : s.realms[mem.session]? = some ev.realm)
    (henvelope : envelope valueMatches w ev.toEvent = some e) :
    ({ s.setMember m (put mem e) with placed := s.placed ++ [⟨m, ev, e⟩] } : System β).Sound
      valueMatches := by
  have howners : (s.setMember m (put mem e)).owners = s.owners := map_set_of_eq hmem rfl
  have hboxes : (s.setMember m (put mem e)).Boxes := h.boxes.setMember hmem rfl rfl
  refine ⟨h.tenancy.congr rfl howners rfl (fun _ _ => id) h.tenancy.adding, h.rooms,
    ⟨hboxes.held, hboxes.closes, hboxes.once, hboxes.panicked⟩, ⟨fun p hp => ?_, fun m' x hx e' he' => ?_⟩⟩
  · rcases List.mem_append.1 hp with hp | hp
    · obtain ⟨owner, howner, hplaced⟩ := h.delivered.placed p hp
      exact ⟨owner, howners ▸ howner, hplaced⟩
    · cases List.mem_singleton.1 hp
      refine ⟨(mem.room, mem.session), ?_, hrealm, w, henvelope⟩
      show (s.setMember m (put mem e)).owners[m]? = _
      rw [howners, System.owners, List.getElem?_map, hmem, Option.map_some]
  · have hold : ∀ m' x, s.members[m']? = some x → e' ∈ x.mailbox.queue →
        ∃ p ∈ s.placed ++ [(⟨m, ev, e⟩ : Placed β)], p.member = m' ∧ p.envelope = e' := by
      intro m' x hx he'
      obtain ⟨p, hp, hpm⟩ := h.delivered.boxed m' x hx e' he'
      exact ⟨p, List.mem_append_left _ hp, hpm⟩
    rcases getElem?_set_cases hx with ⟨rfl, rfl⟩ | ⟨_, hx⟩
    · rcases List.mem_append.1 he' with he' | he'
      · exact hold m' mem hmem he'
      · cases List.mem_singleton.1 he'
        exact ⟨⟨m', ev, e⟩, List.mem_append_right _ List.mem_cons_self, rfl, rfl⟩
    · exact hold m' x hx he'

/-- An envelope of an event of the realm is sent to a member that the room holds. -/
theorem Sound.send {ev : BusEvent β} {e : SimpleEvent β} {w : WatchEntry}
    (hroom : s.rooms[r]? = some room) (hm : m ∈ room.held) (hrealm : ev.realm = room.realm)
    (henvelope : envelope valueMatches w ev.toEvent = some e) : (s.send m ev e).Sound valueMatches := by
  obtain ⟨mem, hmem, hmemroom, hopen⟩ := h.boxes.held r room m hroom hm
  rw [System.send, hmem]
  dsimp only
  cases hsend : mem.mailbox.send e with
  | panics =>
    have hclosed := Chan.send_eq_panics hsend
    rw [hopen] at hclosed
    cases hclosed
  | blocks => exact h.setMember hmem rfl rfl fun _ => id
  | sent ch =>
    obtain ⟨-, rfl⟩ := Chan.send_eq_sent hsend
    exact h.place hmem (hrealm ▸ h.realm_of_held hroom hmem hmemroom) henvelope

/-! ## New rooms and members -/

theorem Sound.addRoom (hcolon : 58 ∉ room.realm)
    (hrealm : InRealm room.realm room.topic) (hsound : room.Sound valueMatches) (hheld : room.held = []) :
    (s.addRoom room).Sound valueMatches := by
  have htags : (s.addRoom room).tags = s.tags ++ [room.tag] := by
    rw [System.tags, System.tags, System.addRoom, List.map_append, List.map_singleton]
  refine ⟨⟨h.tenancy.clients, ?_, ?_, ?_, ?_⟩, forall_mem_concat h.rooms hsound, ?_,
    h.delivered.same rfl rfl rfl⟩
  · rw [htags]
    exact forall_mem_concat h.tenancy.tags ⟨hcolon, hrealm⟩
  · intro topic r hlookup
    rw [System.addRoom] at hlookup
    rw [lookup_mapSet] at hlookup
    rw [htags]
    split_ifs at hlookup with htopic
    · cases hlookup
      rw [beq_iff_eq] at htopic
      have hlength : s.rooms.length = s.tags.length := (List.length_map _).symm
      rw [hlength, List.getElem?_concat_length, htopic]
      exact ⟨room.realm, rfl⟩
    · obtain ⟨realm, htag⟩ := h.tenancy.registry topic r hlookup
      exact ⟨realm, getElem?_append_of_some htag _⟩
  · intro session hsession topic r ref hpoint
    obtain ⟨htopic, realm, htag⟩ := h.tenancy.adding session hsession topic r ref hpoint
    rw [htags]
    exact ⟨htopic, realm, getElem?_append_of_some htag _⟩
  · intro owner howner
    obtain ⟨topic, realm, htag, hrealms⟩ := h.tenancy.owners owner howner
    rw [htags]
    exact ⟨topic, realm, getElem?_append_of_some htag _, hrealms⟩
  · refine ⟨fun r q m hq hm => ?_, h.boxes.closes, h.boxes.once, h.boxes.panicked⟩
    rcases getElem?_concat_cases hq with hq | ⟨-, rfl⟩
    · exact h.boxes.held r q m hq hm
    · rw [hheld] at hm
      cases hm

/-- A new member, whose session has the realm of the room it is meant for. -/
theorem Sound.appendMember (mem : Member β) {topic realm : Bytes}
    (htag : s.tags[mem.room]? = some (topic, realm)) (hrealm : s.realms[mem.session]? = some realm)
    (hqueue : mem.mailbox.queue = []) : (s.appendMember mem).Sound valueMatches := by
  have howners : (s.appendMember mem).owners = s.owners ++ [(mem.room, mem.session)] := by
    rw [System.owners, System.owners, System.appendMember, List.map_append, List.map_singleton]
  refine ⟨⟨h.tenancy.clients, h.tenancy.tags, h.tenancy.registry, h.tenancy.adding, ?_⟩, h.rooms,
    ⟨?_, ?_, h.boxes.once, h.boxes.panicked⟩, ⟨fun p hp => ?_, fun m x hx e he => ?_⟩⟩
  · rw [howners]
    exact forall_mem_concat h.tenancy.owners ⟨topic, realm, htag, hrealm⟩
  · intro r room m hr hm
    obtain ⟨x, hx, hrest⟩ := h.boxes.held r room m hr hm
    exact ⟨x, getElem?_append_of_some hx _, hrest⟩
  · intro m hm
    obtain ⟨x, hx, hclosed⟩ := h.boxes.closes m hm
    exact ⟨x, getElem?_append_of_some hx _, hclosed⟩
  · obtain ⟨owner, howner, hrest⟩ := h.delivered.placed p hp
    rw [howners]
    exact ⟨owner, getElem?_append_of_some howner _, hrest⟩
  · rcases getElem?_concat_cases hx with hx | ⟨-, rfl⟩
    · exact h.delivered.boxed m x hx e he
    · rw [hqueue] at he
      cases he

/-- `AddMember` of a session that has come from `Join`. -/
theorem Sound.addMember (hc : s.sessions[c]? = some session) {topic : Bytes}
    {ref : Option Bytes} (hpoint : session.point = .adding topic r ref) (hroom : s.rooms[r]? = some room) :
    (s.addMember c session topic r room ref).Sound valueMatches := by
  -- the topic is one of the session's realm, so that the room has that realm
  obtain ⟨htopic, realm, htag⟩ :=
    h.tenancy.adding session (List.mem_of_getElem? hc) topic r ref hpoint
  have hclient : s.realms[c]? = some session.client.realm := by
    rw [System.realms, List.getElem?_map, hc, Option.map_some]
  obtain ⟨hcolon, hrealm⟩ := h.tenancy.tags _ (List.mem_of_getElem? htag)
  have heq : session.client.realm = realm :=
    htopic.unique (h.tenancy.clients _ (List.mem_of_getElem? hclient)) hcolon hrealm
  -- the new member has the next number, which no room holds
  have hfresh : s.members.length ∉ room.held := by
    intro hm
    obtain ⟨mem, hmem, -⟩ := h.boxes.held r room _ hroom hm
    have hlt := (List.getElem?_eq_some_iff.1 hmem).1
    omega
  have happend := h.appendMember ⟨r, c, { cap := defaultMailbox }, 0⟩ htag (heq ▸ hclient) rfl
  have hsound := h.rooms room (List.mem_of_getElem? hroom)
  refine Sound.setSession (happend.setRoom_of_held hroom rfl ?_ fun m hm => ?_) hc rfl
    nofun
  · refine ⟨hsound.events, hsound.carried, fun p hp => ?_, hsound.subscribed, ?_⟩
    · obtain ⟨hmember, hrest⟩ := hsound.pending p hp
      exact ⟨List.mem_append_left _ hmember, hrest⟩
    · have hheld : ({ room with members := room.members ++ [s.members.length] } : Room β).held =
          room.held ++ [s.members.length] := (List.append_assoc _ _ _).symm
      rw [hheld]
      exact nodup_concat hsound.held hfresh
  · have hm' : m ∈ room.held ++ [s.members.length] := by
      simpa [Room.held, or_assoc] using hm
    rcases List.mem_append.1 hm' with hm' | hm'
    · obtain ⟨mem, hmem, hrest⟩ := h.boxes.held r room m hroom hm'
      exact ⟨mem, getElem?_append_of_some hmem _, hrest⟩
    · cases List.mem_singleton.1 hm'
      exact ⟨_, List.getElem?_concat_length, rfl, rfl⟩

/-! ## The bus -/

/-- All rooms change, but for their topics and members. -/
theorem Sound.map_rooms {f : Room β → Room β} (htag : ∀ room, (f room).tag = room.tag)
    (hheld : ∀ room, (f room).held = room.held)
    (hsound : ∀ room, room.Sound valueMatches → (f room).Sound valueMatches) :
    ({ s with rooms := s.rooms.map f } : System β).Sound valueMatches := by
  have htags : ({ s with rooms := s.rooms.map f } : System β).tags = s.tags := by
    rw [System.tags, System.tags, List.map_map]
    exact List.map_congr_left fun room _ => htag room
  refine ⟨h.tenancy.congr htags rfl rfl (fun _ _ => id) h.tenancy.adding, fun q hq => ?_,
    ⟨fun r q m hq hm => ?_, h.boxes.closes, h.boxes.once, h.boxes.panicked⟩,
    h.delivered.same rfl rfl rfl⟩
  · obtain ⟨room, hroom, rfl⟩ := List.mem_map.1 hq
    exact hsound room (h.rooms room hroom)
  · rw [List.getElem?_map, Option.map_eq_some_iff] at hq
    obtain ⟨room, hroom, rfl⟩ := hq
    rw [hheld] at hm
    exact h.boxes.held r room m hroom hm

omit h in
/-- A subscription gets an event of its realm, or nothing. -/
theorem publishTo_cases (ev : BusEvent β) (room : Room β) :
    publishTo ev room = room ∨ room.realm = ev.realm ∧
      publishTo ev room = { room with events := { room.events with queue := room.events.queue ++ [ev] } } := by
  rw [publishTo]
  split_ifs with hsub
  · rw [Bool.and_eq_true, beq_iff_eq] at hsub
    cases hsend : room.events.send ev with
    | panics => exact Or.inl rfl
    | blocks => exact Or.inl rfl
    | sent ch =>
      obtain ⟨-, rfl⟩ := Chan.send_eq_sent hsend
      exact Or.inr ⟨hsub.2, rfl⟩
  · exact Or.inl rfl

omit h in
theorem sound_publishTo (ev : BusEvent β) (h : room.Sound valueMatches) :
    (publishTo ev room).Sound valueMatches := by
  rcases publishTo_cases ev room with heq | ⟨hrealm, heq⟩
  · rw [heq]
    exact h
  · rw [heq]
    exact ⟨forall_mem_concat h.events hrealm.symm, h.carried, h.pending, h.subscribed, h.held⟩

theorem Sound.publish (ev : BusEvent β) : (s.publish ev).Sound valueMatches := by
  rw [System.publish]
  split_ifs
  · exact h
  · -- a channel that is still subscribed is open
    have hcalm : s.rooms.any (publishPanics ev) = false := by
      rw [List.any_eq_false]
      intro room hroom hpanics
      rw [publishPanics, Bool.and_eq_true, Bool.and_eq_true] at hpanics
      have hopen := (h.rooms room hroom).subscribed hpanics.1.1
      rw [hpanics.2] at hopen
      cases hopen
    rw [hcalm, Bool.or_false]
    refine h.map_rooms (fun room => ?_) (fun room => ?_) fun room => sound_publishTo ev
    · rcases publishTo_cases ev room with heq | ⟨-, heq⟩ <;> rw [heq]
      rfl
    · rcases publishTo_cases ev room with heq | ⟨-, heq⟩ <;> rw [heq]
      rfl

omit h in
theorem sound_cancel (h : room.Sound valueMatches) : room.cancel.Sound valueMatches := by
  refine ⟨fun ev hev => ?_, h.carried, h.pending, nofun, h.held⟩
  rw [Room.cancel] at hev
  split_ifs at hev
  · exact h.events ev hev
  · exact h.events ev hev

theorem Sound.closeBus : s.closeBus.Sound valueMatches := by
  obtain ⟨htenancy, hrooms, hboxes, hdelivered⟩ :=
    h.map_rooms (f := Room.cancel) (fun _ => rfl) (fun _ => rfl) fun _ => sound_cancel
  exact ⟨⟨htenancy.clients, htenancy.tags, htenancy.registry, htenancy.adding, htenancy.owners⟩, hrooms,
    ⟨hboxes.held, hboxes.closes, hboxes.once, hboxes.panicked⟩, ⟨hdelivered.placed, hdelivered.boxed⟩⟩

/-! ## Dispatching -/

omit h in
/-- `dispatch` is between two events. -/
theorem sound_dispatch {d : Dispatch β} (h : room.Sound valueMatches)
    (hevent : ∀ ev, d.event = some ev → room.dispatch.event = some ev)
    (hpending : ∀ p ∈ d.pending, p.2 ∈ room.members ∧
      ∃ ev w, d.event = some ev ∧ envelope valueMatches w ev.toEvent = some p.1) :
    ({ room with dispatch := d } : Room β).Sound valueMatches :=
  ⟨h.events, fun ev hev => h.carried ev (hevent ev hev), hpending, h.subscribed, h.held⟩

omit h in
theorem mem_envelopes {ev : BusEvent β} {watches : List WatchEntry} {members : List Nat}
    {p : SimpleEvent β × Nat} (h : p ∈ envelopes valueMatches ev watches members) :
    p.2 ∈ members ∧ ∃ w, envelope valueMatches w ev.toEvent = some p.1 := by
  obtain ⟨e, he, hp⟩ := List.mem_flatMap.1 h
  obtain ⟨w, -, hw⟩ := List.mem_filterMap.1 he
  obtain ⟨m, hm, rfl⟩ := List.mem_map.1 hp
  exact ⟨hm, w, hw⟩

omit h in
theorem pending_of_not_locked (h : room.locked = false) : room.leaving = none ∧ room.dispatch.pending = [] := by
  rw [Room.locked, Bool.or_eq_false_iff, Option.isSome_eq_false_iff, Option.isNone_iff_eq_none] at h
  refine ⟨h.1, ?_⟩
  cases hd : room.dispatch with
  | delivering ev pending =>
    rw [hd] at h
    cases h.2
  | _ => rfl

/-- The room is at its end, and the mailboxes of its members are closed. -/
theorem Sound.finish (hroom : s.rooms[r]? = some room)
    (hlocked : room.locked = false) {d : Dispatch β} (hevent : d.event = none) (hpending : d.pending = []) :
    ((s.setRoom r { room.cancel with members := [], retired := true, dispatch := d }).closeAll
      room.members).Sound valueMatches := by
  obtain ⟨hleaving, -⟩ := pending_of_not_locked hlocked
  have hsound := h.rooms room (List.mem_of_getElem? hroom)
  have hheld : room.held = room.members := by rw [Room.held, hleaving]; rfl
  have hheld' : ({ room.cancel with members := [], retired := true, dispatch := d } : Room β).held = [] := by
    rw [Room.held, Room.cancel, hleaving]
    rfl
  have hcancel := sound_cancel hsound
  have hset : (s.setRoom r { room.cancel with members := [], retired := true, dispatch := d }).Sound
      valueMatches := by
    refine h.setRoom hroom rfl ⟨hcancel.events, fun ev hev => ?_, fun p hp => ?_, hcancel.subscribed, ?_⟩
      fun m hm => ?_
    · rw [hevent] at hev
      cases hev
    · rw [hpending] at hp
      cases hp
    · rw [hheld']
      exact List.nodup_nil
    · rw [hheld'] at hm
      cases hm
  refine hset.closeAll (fun m hm => h.loose hroom (hheld ▸ hm) ?_) (hheld ▸ hsound.held)
  rw [hheld']
  exact List.not_mem_nil

theorem Sound.dispatchStep (hroom : s.rooms[r]? = some room) {a : DispatchStep}
    (hstep : s.dispatchStep valueMatches r room a = some s') : s'.Sound valueMatches := by
  have hsound := h.rooms room (List.mem_of_getElem? hroom)
  cases a with
  | receive =>
    rw [System.dispatchStep] at hstep
    split at hstep
    · next ev ch hd hrecv =>
      cases hstep
      obtain ⟨hqueue, hclosed⟩ := Chan.recv_eq_some hrecv
      refine h.setRoom hroom rfl ⟨fun ev' hev' => ?_, fun ev' hev' => ?_, fun p hp => ?_, fun hsub => ?_,
        hsound.held⟩ fun _ => id
      · exact hsound.events ev' (hqueue ▸ List.mem_cons_of_mem ev hev')
      · cases hev'
        exact hsound.events ev (hqueue ▸ List.mem_cons_self)
      · cases hp
      · exact hclosed.trans (hsound.subscribed hsub)
    · cases hstep
  | copyWatches =>
    rw [System.dispatchStep] at hstep
    split at hstep
    · next ev hd =>
      cases hstep
      exact h.setRoom hroom rfl (sound_dispatch hsound (by rw [hd]; exact fun _ => id) nofun) fun _ => id
    · cases hstep
  | lock =>
    rw [System.dispatchStep] at hstep
    split at hstep
    · next ev watches hd =>
      split_ifs at hstep
      cases hstep
      refine h.setRoom hroom rfl (sound_dispatch hsound (by rw [hd]; exact fun _ => id) fun p hp => ?_)
        fun _ => id
      obtain ⟨hmember, w, hw⟩ := mem_envelopes hp
      exact ⟨hmember, ev, w, rfl, hw⟩
    · cases hstep
  | deliver n =>
    rw [System.dispatchStep] at hstep
    split at hstep
    · next ev pending hd =>
      split at hstep
      · cases hstep
      · next e m hpending =>
        cases hstep
        have hmem : (e, m) ∈ room.dispatch.pending := by
          rw [hd]
          exact List.mem_of_getElem? hpending
        obtain ⟨hmember, ev', w, hev', hw⟩ := hsound.pending _ hmem
        rw [hd] at hev'
        cases hev'
        have hcarried := hsound.carried ev (by rw [hd]; rfl)
        have hset : (s.setRoom r { room with dispatch := .delivering ev (pending.eraseIdx n) }).Sound
            valueMatches := by
          refine h.setRoom hroom rfl (sound_dispatch hsound (by rw [hd]; exact fun _ => id) fun p hp => ?_)
            fun _ => id
          have hp' : p ∈ room.dispatch.pending := by
            rw [hd]
            exact List.mem_of_mem_eraseIdx hp
          have hpending := hsound.pending p hp'
          rwa [hd] at hpending
        exact hset.send (List.getElem?_set_self (List.getElem?_eq_some_iff.1 hroom).1)
          (List.mem_append_right _ hmember) hcarried hw
    · cases hstep
  | unlock =>
    rw [System.dispatchStep] at hstep
    split at hstep
    · cases hstep
      exact h.setRoom hroom rfl (sound_dispatch hsound nofun nofun) fun _ => id
    · cases hstep
  | finish =>
    rw [System.dispatchStep] at hstep
    split at hstep
    · by_cases hdrained : (room.events.drained && !room.locked) = true
      · rw [if_pos hdrained] at hstep
        cases hstep
        rw [Bool.and_eq_true, Bool.not_eq_true'] at hdrained
        refine h.finish hroom hdrained.2 ?_ ?_
        · split_ifs <;> rfl
        · split_ifs <;> rfl
      · rw [if_neg hdrained] at hstep
        cases hstep
    · cases hstep
  | unregister =>
    rw [System.dispatchStep] at hstep
    split at hstep
    · cases hstep
      have hset : (s.setRoom r { room with dispatch := .ended }).Sound valueMatches :=
        h.setRoom hroom rfl (sound_dispatch hsound nofun nofun) fun _ => id
      exact hset.deleteTopic _
    · cases hstep

/-! ## Frames -/

omit h in
theorem sound_newRoom (busClosed : Bool) (realm topic : Bytes) :
    (newRoom busClosed realm topic : Room β).Sound valueMatches where
  events ev hev := by cases hev
  carried ev hev := by cases hev
  pending p hp := by cases hp
  subscribed hsub := by simpa [newRoom] using hsub
  held := List.nodup_nil

theorem Sound.join (hc : s.sessions[c]? = some session) (topic : Bytes)
    (ref : Option Bytes) : (s.join c session topic ref).Sound valueMatches := by
  rw [System.join]
  cases hname : roomName session.client.realm topic with
  | none => exact h
  | some name =>
    have htopic := inRealm_of_roomName hname
    dsimp only
    split_ifs
    · cases session.rooms.lookup topic with
      | some j =>
        exact h.setSession hc rfl
          (h.tenancy.adding session (List.mem_of_getElem? hc))
      | none =>
        cases hregistry : s.registry.lookup topic with
        | some r =>
          refine h.setSession hc rfl fun topic' r' ref' hpoint => ?_
          cases hpoint
          exact ⟨htopic, h.tenancy.registry topic r hregistry⟩
        | none =>
          have hclient : session.client.realm ∈ s.realms :=
            List.mem_map.2 ⟨session, List.mem_of_getElem? hc, rfl⟩
          have hroom := h.addRoom (h.tenancy.clients _ hclient) htopic
            (sound_newRoom s.busClosed session.client.realm topic) rfl
          refine hroom.setSession hc rfl fun topic' r' ref' hpoint => ?_
          cases hpoint
          refine ⟨htopic, session.client.realm, ?_⟩
          rw [System.tags, System.addRoom, List.getElem?_map, List.getElem?_concat_length]
          rfl
    · exact h

omit h in
theorem sessions_closeMailbox (s : System β) (m : Nat) : (s.closeMailbox m).sessions = s.sessions := by
  rw [closeMailbox]
  split
  · rfl
  · split <;> rfl

theorem Sound.leave {j : Joined} (hc : s.sessions[c]? = some session)
    (hroom : s.rooms[j.room]? = some room) (hlocked : room.locked = false) (topic : Bytes) :
    (s.leave c session topic j room).Sound valueMatches := by
  obtain ⟨hleaving, hpending⟩ := pending_of_not_locked hlocked
  have hsound := h.rooms room (List.mem_of_getElem? hroom)
  rw [System.leave]
  dsimp only
  split_ifs with hcontains
  · -- the room still holds the member, until it has been removed from the registry
    have hmember : j.member ∈ room.held := List.mem_append_right _ (List.contains_iff_mem.1 hcontains)
    have hcancel := sound_cancel hsound
    have hset : (s.setRoom j.room
        { room.cancel with members := [], leaving := some j.member, retired := true }).Sound valueMatches := by
      refine h.setRoom hroom rfl ⟨hcancel.events, hcancel.carried, fun p hp => ?_, hcancel.subscribed,
        List.nodup_singleton _⟩ fun m hm => ?_
      · have hp' : p ∈ room.dispatch.pending := hp
        rw [hpending] at hp'
        cases hp'
      · cases List.mem_singleton.1 hm
        exact hmember
    exact hset.setSession hc rfl nofun
  · have hmember : j.member ∈ room.held := List.mem_append_right _ (List.contains_iff_mem.1 hcontains)
    have hsub : ∀ m ∈ ({ room with members := room.members.filter fun m => m != j.member } : Room β).held,
        m ∈ room.held ∧ m ≠ j.member := by
      intro m hm
      rw [Room.held, hleaving] at hm
      obtain ⟨hm, hne⟩ := List.mem_filter.1 hm
      exact ⟨List.mem_append_right _ hm, by simpa using hne⟩
    have hset : (s.setRoom j.room { room with members := room.members.filter fun m => m != j.member }).Sound
        valueMatches := by
      refine h.setRoom hroom rfl ⟨hsound.events, hsound.carried, fun p hp => ?_, hsound.subscribed, ?_⟩
        fun m hm => (hsub m hm).1
      · have hp' : p ∈ room.dispatch.pending := hp
        rw [hpending] at hp'
        cases hp'
      · have hnodup := hsound.held
        rw [Room.held, hleaving] at hnodup ⊢
        exact List.Nodup.filter _ hnodup
    refine (hset.close (h.loose hroom hmember fun hm => (hsub _ hm).2 rfl)).forget ?_ topic
    rw [sessions_closeMailbox]
    exact hc
  · exact h.forget hc topic

theorem Sound.unregister {j : Joined} (hc : s.sessions[c]? = some session)
    (hroom : s.rooms[j.room]? = some room) (hleaving : room.leaving = some j.member) (topic : Bytes) :
    (s.unregister c session topic j room).Sound valueMatches := by
  have hsound := h.rooms room (List.mem_of_getElem? hroom)
  have hheld : room.held = j.member :: room.members := by
    rw [Room.held, hleaving]
    rfl
  obtain ⟨hnot, hnodup⟩ := List.nodup_cons.1 (hheld ▸ hsound.held)
  have hset : (s.setRoom j.room { room with leaving := none }).Sound valueMatches := by
    refine h.setRoom hroom rfl ⟨hsound.events, hsound.carried, hsound.pending, hsound.subscribed, hnodup⟩
      fun m hm => ?_
    rw [hheld]
    exact List.mem_cons_of_mem _ hm
  have hloose : (s.setRoom j.room { room with leaving := none }).Loose j.member :=
    h.loose hroom (hheld ▸ List.mem_cons_self) hnot
  refine ((hset.deleteTopic room.topic).close hloose).forget ?_ topic
  rw [sessions_closeMailbox]
  exact hc

/-! ## Runs -/

omit h in
theorem atSession_eq_some {act : Session → Option (System β)} (h : s.atSession c act = some s') :
    ∃ session, s.sessions[c]? = some session ∧ act session = some s' := by
  rw [atSession] at h
  split at h
  · cases h
  · next session hc =>
    split at h
    · exact ⟨session, hc, h⟩
    · cases h

omit h in
theorem atTopic_eq_some {topic : Bytes} {act : Joined → Room β → Option (System β)}
    (h : s.atTopic session topic act = some s') :
    s' = s ∨ ∃ j room, s.rooms[j.room]? = some room ∧ act j room = some s' := by
  rw [atTopic] at h
  split at h
  · cases h
    exact Or.inl rfl
  · next j _ =>
    split at h
    · cases h
    · next room hroom => exact Or.inr ⟨j, room, hroom, h⟩

omit h in
theorem atRoom_eq_some {act : Room β → Option (System β)} (h : s.atRoom r act = some s') :
    ∃ room, s.rooms[r]? = some room ∧ act room = some s' := by
  rw [atRoom] at h
  split at h
  · cases h
  · next room hroom => exact ⟨room, hroom, h⟩

omit h in
/-- New watches of a room. -/
theorem sound_watches (h : room.Sound valueMatches) (watches : List (Bytes × WatchEntry)) :
    ({ room with watches := watches } : Room β).Sound valueMatches :=
  ⟨h.events, h.carried, h.pending, h.subscribed, h.held⟩

theorem Sound.setWatches (hroom : s.rooms[r]? = some room) (watches : List (Bytes × WatchEntry)) :
    (s.setRoom r { room with watches := watches }).Sound valueMatches :=
  h.setRoom hroom rfl (sound_watches (h.rooms room (List.mem_of_getElem? hroom)) watches) fun _ => id

omit h in
theorem sound_init {clients : List Client} (hcolon : ∀ client ∈ clients, 58 ∉ client.realm) :
    (init clients : System β).Sound valueMatches := by
  refine ⟨⟨fun realm hrealm => ?_, fun _ h => (nomatch h), fun _ _ h => (nomatch h),
    fun session hsession topic r ref hpoint => ?_, fun _ h => (nomatch h)⟩, fun _ h => (nomatch h),
    ⟨fun _ _ _ h => (nomatch h), fun _ h => (nomatch h), List.nodup_nil, rfl⟩,
    ⟨fun _ h => (nomatch h), fun _ _ h => (nomatch h)⟩⟩
  · rw [realms, init, List.map_map] at hrealm
    obtain ⟨client, hclient, rfl⟩ := List.mem_map.1 hrealm
    exact hcolon client hclient
  · obtain ⟨client, -, rfl⟩ := List.mem_map.1 hsession
    cases hpoint

theorem Sound.step {a : Step β} (hstep : s.step valueMatches a = some s') : s'.Sound valueMatches := by
  cases a with
  | join c topic ref =>
    obtain ⟨session, hc, hstep⟩ := atSession_eq_some hstep
    split_ifs at hstep
    cases hstep
    exact h.join hc topic ref
  | addMember c =>
    rw [System.step] at hstep
    split at hstep
    · cases hstep
    · next session hc =>
      split at hstep
      · next topic r ref hpoint =>
        obtain ⟨room, hroom, hstep⟩ := atRoom_eq_some hstep
        split_ifs at hstep
        cases hstep
        exact h.addMember hc hpoint hroom
      · cases hstep
  | watch c topic payload =>
    obtain ⟨session, hc, hstep⟩ := atSession_eq_some hstep
    split_ifs at hstep
    rcases atTopic_eq_some hstep with rfl | ⟨j, room, hroom, hstep⟩
    · exact h
    · split at hstep
      · cases hstep
        exact h
      · cases hstep
        exact h.setWatches hroom _
  | unwatch c topic name =>
    obtain ⟨session, hc, hstep⟩ := atSession_eq_some hstep
    split_ifs at hstep
    rcases atTopic_eq_some hstep with rfl | ⟨j, room, hroom, hstep⟩
    · exact h
    · cases hstep
      exact h.setWatches hroom _
  | leave c topic =>
    obtain ⟨session, hc, hstep⟩ := atSession_eq_some hstep
    rcases atTopic_eq_some hstep with rfl | ⟨j, room, hroom, hstep⟩
    · exact h
    · split_ifs at hstep with hlocked
      cases hstep
      exact h.leave hc hroom (Bool.not_eq_true _ ▸ hlocked) topic
  | unregister c =>
    rw [System.step] at hstep
    split at hstep
    · cases hstep
    · next session hc =>
      split at hstep
      · next topic hpoint =>
        rcases atTopic_eq_some hstep with rfl | ⟨j, room, hroom, hstep⟩
        · exact h
        · split_ifs at hstep with hleaving
          cases hstep
          exact h.unregister hc hroom (beq_iff_eq.1 hleaving) topic
      · cases hstep
  | disconnect c =>
    obtain ⟨session, hc, hstep⟩ := atSession_eq_some hstep
    cases hstep
    exact h.setSession hc rfl (h.tenancy.adding session (List.mem_of_getElem? hc))
  | dispatch r a =>
    obtain ⟨room, hroom, hstep⟩ := atRoom_eq_some hstep
    exact h.dispatchStep hroom hstep
  | pump m =>
    rw [System.step] at hstep
    split at hstep
    · cases hstep
    · next mem hmem =>
      split at hstep
      · cases hstep
      · next e ch hrecv =>
        cases hstep
        obtain ⟨hqueue, hclosed⟩ := Chan.recv_eq_some hrecv
        refine h.setMember hmem rfl hclosed fun e' he' => ?_
        rw [hqueue]
        exact List.mem_cons_of_mem e he'
  | publish ev =>
    cases hstep
    exact h.publish ev
  | closeBus =>
    cases hstep
    exact h.closeBus

end

/-- **Isolation of realms.** For sessions of realms whose names have no colon, every sequence of frames
with any topics, every stream of events and every order of the steps: each envelope that was put into a
mailbox was made of an event of the realm of the session whose mailbox it is, and there is nothing else in
the mailboxes; nothing is sent to a closed channel, and no mailbox is closed twice. -/
theorem channels_isolated (valueMatches : Bytes → β → Option Generic → Bool) (clients : List Client)
    (hcolon : ∀ client ∈ clients, 58 ∉ client.realm) (schedule : List (Step β)) (s : System β)
    (hrun : exec (step valueMatches) (init clients) schedule = some s) :
    (∀ p ∈ s.placed, ∃ mem session w, s.members[p.member]? = some mem ∧
      s.sessions[mem.session]? = some session ∧ p.event.realm = session.client.realm ∧
      envelope valueMatches w p.event.toEvent = some p.envelope) ∧
    (∀ (m : Nat) mem, s.members[m]? = some mem → ∀ e ∈ mem.mailbox.queue,
      ∃ p ∈ s.placed, p.member = m ∧ p.envelope = e) ∧
    s.panicked = false ∧ s.closes.Nodup := by
  have hsound : s.Sound valueMatches :=
    exec_preserves (fun _ _ _ h hstep => h.step hstep) (sound_init hcolon) hrun
  refine ⟨fun p hp => ?_, hsound.delivered.boxed, hsound.boxes.panicked, hsound.boxes.once⟩
  obtain ⟨owner, howner, hrealm, w, hw⟩ := hsound.delivered.placed p hp
  rw [owners, List.getElem?_map, Option.map_eq_some_iff] at howner
  obtain ⟨mem, hmem, rfl⟩ := howner
  rw [realms, List.getElem?_map, Option.map_eq_some_iff] at hrealm
  obtain ⟨session, hsession, hrealm⟩ := hrealm
  exact ⟨mem, session, w, hmem, hsession, hrealm.symm, hw⟩

end Updates

/-- A session of each of two realms, with tokens that authorize everything. -/
def twoRealms : List Client :=
  [⟨utf8 "a", fun _ => true, fun _ => true⟩, ⟨utf8 "b", fun _ => true, fun _ => true⟩]

/-- The device has connected. -/
def connectedInA : BusEvent Unit where
  kind := .deviceConnected
  deviceID := Vector.replicate 16 7
  value := ()
  timestamp := ⟨0⟩
  realm := utf8 "a"

/-- The first session watches a device and gets its event, while the second asks for the same topic; then
the first one leaves. -/
def crossing : List (Step Unit) :=
  [.join 0 (utf8 "rooms:a:x") none, .addMember 0, .watch 0 (utf8 "rooms:a:x") deviceWatchPayload,
    .join 1 (utf8 "rooms:a:x") none,
    .publish connectedInA, .dispatch 0 .receive, .dispatch 0 .copyWatches, .dispatch 0 .lock,
    .dispatch 0 (.deliver 0), .dispatch 0 .unlock, .leave 0 (utf8 "rooms:a:x"), .unregister 0, .dispatch 0 .finish]

theorem channels_isolated_crossing :
    ∃ s, exec (step wildcardMatches) (init twoRealms) crossing = some s ∧ s.panicked = false ∧
      s.placed.map (fun p => (p.member, p.event.realm)) = [(0, utf8 "a")] ∧ s.closes = [0] ∧
      s.members.map (fun mem => mem.session) = [0] := by
  have hrun : ((exec (step wildcardMatches) (init twoRealms) crossing).map fun s =>
      (s.placed.map (fun p => (p.member, p.event.realm)), s.closes,
        s.members.map (fun mem => mem.session))) =
      some ([(0, utf8 "a")], [0], [0]) := by decide +kernel
  obtain ⟨s, hs, heq⟩ := Option.map_eq_some_iff.1 hrun
  rw [Prod.mk.injEq, Prod.mk.injEq] at heq
  have hcolon : ∀ client ∈ twoRealms, 58 ∉ client.realm := by
    intro client hclient
    rcases List.mem_cons.1 hclient with rfl | hclient
    · decide
    · cases List.mem_singleton.1 hclient
      decide
  exact ⟨s, hs, (channels_isolated wildcardMatches twoRealms hcolon crossing s hs).2.2.1, heq.1, heq.2.1,
    heq.2.2⟩

end System

end Astrate.Channels.Delivery
