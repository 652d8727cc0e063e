import Astrate.GoLib.Bytes
import Astrate.GoLib.Map
import Astrate.GoLib.Schedule

/-!
# Rooms of the Channels socket

`internal/appengine/channels/room.go`: the registry of rooms, the members of a room and its subscription
to the bus. `Join` looks the room up under the lock of the registry, `AddMember` adds the member under
the lock of the room. The last member that leaves retires the room: it holds the lock of the room,
cancels the subscription, and then takes the lock of the registry to remove the room there.

Between its `Join` and its `AddMember` a session holds nothing. A room that retires in between is no
longer in the registry, and nothing brings it back (`join_during_retirement`). `members_live_iff` says
that this is the only way for a member to be left in a dead room.
-/

set_option autoImplicit false

namespace Astrate.Channels

open Astrate.GoLib

/-- A room; `locked` says that the lock of the members is held from one step to the next. -/
structure Room where
  topic : Bytes
  members : List Nat := []
  subscribed : Bool
  retired : Bool := false
  locked : Bool := false
  /-- The goroutine of `dispatch` has not ended. -/
  dispatching : Bool := true
  deriving DecidableEq

/-- Where a session is with the topic it joins. -/
inductive SessionPoint where
  | idle
  /-- Behind `Join`, before `AddMember`. -/
  | joined (room : Nat)
  /-- The reply to `phx_join` is `ok`. -/
  | member (room : Nat)
  /-- In `Leave`, in the middle of `retire`. -/
  | retiring (room : Nat)
  | left
  deriving DecidableEq

/-- The room, behind `Join`. -/
def SessionPoint.joinedRoom : SessionPoint → Option Nat
  | .joined r => some r
  | _ => none

def SessionPoint.memberRoom : SessionPoint → Option Nat
  | .member r => some r
  | _ => none

def SessionPoint.retiringRoom : SessionPoint → Option Nat
  | .retiring r => some r
  | _ => none

/-- A session that joins one topic. -/
structure Session where
  topic : Bytes
  point : SessionPoint := .idle
  deriving DecidableEq

/-- The registry with its rooms, of which `rooms` keeps those that are gone as well. -/
structure Hub where
  rooms : List Room
  registry : List (Bytes × Nat)
  sessions : List Session
  busOpen : Bool := true
  deriving DecidableEq

/-- Sessions to come, before the first room. -/
def Hub.init (topics : List Bytes) : Hub := ⟨[], [], topics.map fun topic => ⟨topic, .idle⟩, true⟩

/-- A step of a session or of the bus. -/
inductive HubStep where
  | join (c : Nat)
  | addMember (c : Nat)
  /-- `Leave`, up to the removal from the registry if the room retires. -/
  | leave (c : Nat)
  /-- The end of `retire` in `Leave`. -/
  | unregister (c : Nat)
  /-- The end of `dispatch`, up to the removal from the registry if the room retires there. -/
  | teardown (r : Nat)
  /-- The end of `retire` in `dispatch`. -/
  | unregisterRoom (r : Nat)
  | closeBus
  deriving DecidableEq

namespace Hub

def move (s : Hub) (c : Nat) (session : Session) (point : SessionPoint) : Hub :=
  { s with sessions := s.sessions.set c { session with point := point } }

/-- A room is changed. -/
def setRoom (s : Hub) (r : Nat) (room : Room) : Hub := { s with rooms := s.rooms.set r room }

/-- `Join`: the room in the registry, or a new one with its subscription. -/
def join (s : Hub) (c : Nat) (session : Session) : Hub :=
  match s.registry.lookup session.topic with
  | some r => s.move c session (.joined r)
  | none =>
    { s.move c session (.joined s.rooms.length) with
      rooms := s.rooms ++ [{ topic := session.topic, subscribed := s.busOpen }]
      registry := mapSet s.registry session.topic s.rooms.length }

/-- The member is removed; the last one goes on to retire the room, unless that has been done. -/
def leave (s : Hub) (c : Nat) (session : Session) (r : Nat) (room : Room) : Hub :=
  let members := room.members.filter fun m => m != c
  if room.members.contains c && members.isEmpty && !room.retired then
    (s.setRoom r
      { room with members := members, subscribed := false, retired := true, locked := true }).move
        c session (.retiring r)
  else (s.setRoom r { room with members := members }).move c session .left

/-- `delete(rm.reg.rooms, rm.topic)`, and the lock of the members is released. -/
def finishRetire (s : Hub) (r : Nat) (room : Room) : Hub :=
  { s.setRoom r { room with locked := false } with registry := mapDelete s.registry room.topic }

/-- What the session does in the room that its point names. -/
def atRoom (s : Hub) (c : Nat) (room? : SessionPoint → Option Nat)
    (act : Session → Nat → Room → Option Hub) : Option Hub :=
  match s.sessions[c]? with
  | none => none
  | some session =>
    match room? session.point with
    | none => none
    | some r =>
      match s.rooms[r]? with
      | none => none
      | some room => act session r room

/-- `AddMember`, under the lock of the members. -/
def addMember (s : Hub) (c : Nat) (session : Session) (r : Nat) (room : Room) : Hub :=
  (s.setRoom r { room with members := room.members ++ [c] }).move c session (.member r)

/-- The end of `dispatch`: the members are gone, and the room retires unless it has. -/
def teardown (s : Hub) (r : Nat) (room : Room) : Hub :=
  s.setRoom r
    { room with members := [], dispatching := false, retired := true, locked := !room.retired }

/-- One step, if possible. -/
def step (s : Hub) : HubStep → Option Hub
  | .join c =>
    match s.sessions[c]? with
    | some session => if session.point = .idle then some (s.join c session) else none
    | none => none
  | .addMember c =>
    s.atRoom c SessionPoint.joinedRoom fun session r room =>
      if room.locked then none else some (s.addMember c session r room)
  | .leave c =>
    s.atRoom c SessionPoint.memberRoom fun session r room =>
      if room.locked then none else some (s.leave c session r room)
  | .unregister c =>
    s.atRoom c SessionPoint.retiringRoom fun session r room =>
      some ((s.finishRetire r room).move c session .left)
  | .teardown r =>
    match s.rooms[r]? with
    | some room =>
      -- the loop over the events ends when the channel of the subscription is closed
      if room.dispatching && !room.subscribed && !room.locked then some (s.teardown r room) else none
    | none => none
  | .unregisterRoom r =>
    match s.rooms[r]? with
    | some room =>
      if room.locked && !room.dispatching then some (s.finishRetire r room) else none
    | none => none
  | .closeBus =>
    some { s with busOpen := false, rooms := s.rooms.map fun room => { room with subscribed := false } }

end Hub

/-- The room is in the registry: it has not retired, or not to the end. -/
def Room.listed (room : Room) : Bool := !room.retired || room.locked

/-- A room while the bus is open. -/
structure Room.Sound (room : Room) : Prop where
  subscribed : room.subscribed = !room.retired
  dispatching : room.retired = false ∨ room.locked = true → room.dispatching = true
  locked : room.locked = true → room.retired = true

namespace Hub

/-- The registry has exactly the rooms that are listed, by their topics. -/
structure RoomsSound (rooms : List Room) (registry : List (Bytes × Nat)) : Prop where
  registered : ∀ topic (r : Nat), registry.lookup topic = some r →
    ∃ room, rooms[r]? = some room ∧ room.topic = topic ∧ room.listed = true
  listed : ∀ (r : Nat) room, rooms[r]? = some room → room.listed = true →
    registry.lookup room.topic = some r
  sound : ∀ room ∈ rooms, room.Sound

/-- The sessions hold rooms of their topics, and one session at most is retiring a room. -/
structure SessionsSound (rooms : List Room) (sessions : List Session) : Prop where
  joined : ∀ (c : Nat) session r, sessions[c]? = some session → session.point = .joined r →
    ∃ room, rooms[r]? = some room ∧ room.topic = session.topic
  retiring : ∀ (c : Nat) session r, sessions[c]? = some session → session.point = .retiring r →
    ∃ room, rooms[r]? = some room ∧ room.locked = true
  unique : ∀ (c c' : Nat) session session' r, sessions[c]? = some session →
    sessions[c']? = some session' → session.point = .retiring r → session'.point = .retiring r → c = c'

/-- What every step keeps while the bus is open. -/
structure Sound (s : Hub) : Prop where
  busOpen : s.busOpen = true
  rooms : RoomsSound s.rooms s.registry
  sessions : SessionsSound s.rooms s.sessions

/-- The session at this index is in a room that is in the registry and has its subscription. -/
def InLiveRoom (s : Hub) (c : Nat) (session : Session) (r : Nat) : Prop :=
  ∃ room, s.rooms[r]? = some room ∧ c ∈ room.members ∧ room.retired = false ∧
    room.subscribed = true ∧ s.registry.lookup session.topic = some r

/-- Every member that was added and has not left is in such a room. -/
def Live (s : Hub) : Prop :=
  ∀ (c : Nat) session r, s.sessions[c]? = some session → session.point = .member r →
    s.InLiveRoom c session r

/-- No call is under way: nobody is between `Join` and `AddMember`, and no room is being retired. -/
def settled (s : Hub) : Bool :=
  s.sessions.all (fun session => session.point.joinedRoom.isNone && session.point.retiringRoom.isNone) &&
    s.rooms.all fun room => !room.locked

/-- A member is only added to a room that has not retired. -/
def addsInTime (s : Hub) : HubStep → Bool
  | .addMember c =>
    s.sessions[c]?.all fun session =>
      session.point.joinedRoom.all fun r => s.rooms[r]?.all fun room => !room.retired
  | _ => true

/-! ## Updates -/

section Updates

variable {rooms : List Room} {registry : List (Bytes × Nat)} {sessions : List Session}
  {r r' c c' : Nat} {room room' : Room} {session session' : Session}

theorem RoomsSound.setRoom (h : RoomsSound rooms registry) (hroom : rooms[r]? = some room)
    (htopic : room'.topic = room.topic) (hlisted : room'.listed = room.listed)
    (hsound : room'.Sound) : RoomsSound (rooms.set r room') registry := by
  refine ⟨fun topic q hq => exists_getElem?_set hroom (fun _ hr => ?_) (h.registered topic q hq),
    fun q roomq hq hlist => ?_, forall_mem_set h.sound hsound⟩
  · exact ⟨htopic.trans hr.1, hlisted.trans hr.2⟩
  · rcases getElem?_set_cases hq with ⟨rfl, rfl⟩ | ⟨-, hq⟩
    · rw [htopic]
      exact h.listed q room hroom (hlisted ▸ hlist)
    · exact h.listed q roomq hq hlist

/-- The room leaves the registry. -/
theorem RoomsSound.delete (h : RoomsSound rooms registry) (hroom : rooms[r]? = some room)
    (hwas : room.listed = true) (hlisted : room'.listed = false) (hsound : room'.Sound) :
    RoomsSound (rooms.set r room') (mapDelete registry room.topic) := by
  have hself := h.listed r room hroom hwas
  refine ⟨fun topic q hq => ?_, fun q roomq hq hlist => ?_, forall_mem_set h.sound hsound⟩
  · rw [lookup_mapDelete] at hq
    split_ifs at hq with htopic
    obtain ⟨roomq, hroomq, htopicq, hlistq⟩ := h.registered topic q hq
    have hqr : q ≠ r := by
      rintro rfl
      rw [hroom, Option.some.injEq] at hroomq
      subst hroomq
      simp [htopicq] at htopic
    exact ⟨roomq, by rw [List.getElem?_set_ne (Ne.symm hqr), hroomq], htopicq, hlistq⟩
  · rcases getElem?_set_cases hq with ⟨rfl, rfl⟩ | ⟨hqr, hq⟩
    · rw [hlisted] at hlist
      cases hlist
    · -- another room that is listed has another topic
      have hlookup := h.listed q roomq hq hlist
      rw [lookup_mapDelete, if_neg ?_, hlookup]
      intro htopic
      rw [eq_of_beq htopic, hself, Option.some.injEq] at hlookup
      exact hqr hlookup.symm

/-- A new room under a topic that had none. -/
theorem RoomsSound.append (h : RoomsSound rooms registry) (hnone : registry.lookup room.topic = none)
    (hlisted : room.listed = true) (hsound : room.Sound) :
    RoomsSound (rooms ++ [room]) (mapSet registry room.topic rooms.length) := by
  refine ⟨fun topic q hq => ?_, fun q roomq hq hlist => ?_, forall_mem_concat h.sound hsound⟩
  · rw [lookup_mapSet] at hq
    split_ifs at hq with htopic
    · obtain rfl := Option.some.inj hq
      exact ⟨room, by simp, (eq_of_beq htopic).symm, hlisted⟩
    · obtain ⟨roomq, hroomq, hrest⟩ := h.registered topic q hq
      exact ⟨roomq, getElem?_append_of_some hroomq [room], hrest⟩
  · rcases getElem?_concat_cases hq with hq | ⟨rfl, rfl⟩
    · have hlookup := h.listed q roomq hq hlist
      rw [lookup_mapSet, if_neg ?_, hlookup]
      intro htopic
      rw [eq_of_beq htopic, hnone] at hlookup
      cases hlookup
    · rw [lookup_mapSet, if_pos (beq_self_eq_true _)]

section

variable (h : SessionsSound rooms sessions)

include h

/-- A room that is not locked is not being retired. -/
theorem SessionsSound.free (hroom : rooms[r]? = some room)
    (hlocked : room.locked = false) (i : Nat) (other : Session) (hi : sessions[i]? = some other) :
    other.point ≠ .retiring r := by
  intro hpoint
  obtain ⟨room', hroom', hlocked'⟩ := h.retiring i other r hi hpoint
  rw [hroom, Option.some.injEq] at hroom'
  rw [← hroom', hlocked] at hlocked'
  cases hlocked'

/-- A room may change as long as it stays locked for the session that is retiring it. -/
theorem SessionsSound.setRoom (hroom : rooms[r]? = some room) (room' : Room) (htopic : room'.topic = room.topic)
    (hfree : room'.locked = true ∨
      ∀ (i : Nat) other, sessions[i]? = some other → other.point ≠ .retiring r) :
    SessionsSound (rooms.set r room') sessions := by
  refine ⟨fun i other q hi hq => ?_, fun i other q hi hq => ?_, h.unique⟩
  · exact exists_getElem?_set hroom (fun _ => htopic.trans) (h.joined i other q hi hq)
  · refine exists_getElem?_set hroom (fun hrq _ => ?_) (h.retiring i other q hi hq)
    exact hfree.resolve_right fun hfree => hfree i other hi (hrq ▸ hq)

theorem SessionsSound.append (room : Room) : SessionsSound (rooms ++ [room]) sessions := by
  refine ⟨fun i other q hi hq => ?_, fun i other q hi hq => ?_, h.unique⟩
  · obtain ⟨roomq, hroomq, htopicq⟩ := h.joined i other q hi hq
    exact ⟨roomq, getElem?_append_of_some hroomq [room], htopicq⟩
  · obtain ⟨roomq, hroomq, hlockedq⟩ := h.retiring i other q hi hq
    exact ⟨roomq, getElem?_append_of_some hroomq [room], hlockedq⟩

/-- A session goes on to a point that is right for it. -/
theorem SessionsSound.move
    (hjoined : ∀ q, session'.point = .joined q → ∃ room, rooms[q]? = some room ∧ room.topic = session'.topic)
    (hretiring : ∀ q, session'.point = .retiring q → (∃ room, rooms[q]? = some room ∧ room.locked = true) ∧
      ∀ (c' : Nat) other, sessions[c']? = some other → other.point ≠ .retiring q) :
    SessionsSound rooms (sessions.set c session') := by
  refine ⟨fun i other q hi hq => ?_, fun i other q hi hq => ?_, fun i j si sj q hi hj hqi hqj => ?_⟩
  · rcases getElem?_set_cases hi with ⟨rfl, rfl⟩ | ⟨-, hi⟩
    · exact hjoined q hq
    · exact h.joined i other q hi hq
  · rcases getElem?_set_cases hi with ⟨rfl, rfl⟩ | ⟨-, hi⟩
    · exact (hretiring q hq).1
    · exact h.retiring i other q hi hq
  · rcases getElem?_set_cases hi with ⟨rfl, rfl⟩ | ⟨-, hi'⟩
    · rcases getElem?_set_cases hj with ⟨rfl, -⟩ | ⟨-, hj'⟩
      · rfl
      · exact absurd hqj ((hretiring q hqi).2 j sj hj')
    · rcases getElem?_set_cases hj with ⟨rfl, rfl⟩ | ⟨-, hj'⟩
      · exact absurd hqi ((hretiring q hqj).2 i si hi')
      · exact h.unique i j si sj q hi' hj' hqi hqj

end

end Updates

/-! ## Steps -/

section Steps

variable {s s' : Hub} {c r : Nat}

theorem step_join (h : s.step (.join c) = some s') :
    ∃ session, s.sessions[c]? = some session ∧ session.point = .idle ∧ s' = s.join c session := by
  cases hc : s.sessions[c]? with
  | none => simp [step, hc] at h
  | some session =>
    simp only [step, hc] at h
    split_ifs at h with hpoint
    exact ⟨session, rfl, hpoint, (Option.some.inj h).symm⟩

theorem atRoom_eq_some {room? : SessionPoint → Option Nat} {act : Session → Nat → Room → Option Hub}
    (h : s.atRoom c room? act = some s') :
    ∃ session r room, s.sessions[c]? = some session ∧ room? session.point = some r ∧
      s.rooms[r]? = some room ∧ act session r room = some s' := by
  rw [atRoom] at h
  cases hc : s.sessions[c]? with
  | none => simp [hc] at h
  | some session =>
    cases hr : room? session.point with
    | none => simp [hc, hr] at h
    | some r =>
      cases hroom : s.rooms[r]? with
      | none => simp [hc, hr, hroom] at h
      | some room =>
        simp only [hc, hr, hroom] at h
        exact ⟨session, r, room, rfl, hr, hroom, h⟩

theorem eq_joined {point : SessionPoint} (h : point.joinedRoom = some r) : point = .joined r := by
  cases point <;> simp_all [SessionPoint.joinedRoom]

theorem eq_retiring {point : SessionPoint} (h : point.retiringRoom = some r) : point = .retiring r := by
  cases point <;> simp_all [SessionPoint.retiringRoom]

theorem step_teardown (h : s.step (.teardown r) = some s') :
    ∃ room, s.rooms[r]? = some room ∧ room.subscribed = false ∧ room.locked = false ∧
      s' = s.teardown r room := by
  cases hroom : s.rooms[r]? with
  | none => simp [step, hroom] at h
  | some room =>
    simp only [step, hroom] at h
    split_ifs at h with hguard
    simp only [Bool.and_eq_true, Bool.not_eq_true'] at hguard
    exact ⟨room, rfl, hguard.1.2, hguard.2, (Option.some.inj h).symm⟩

/-- While the bus is open no room retires in `dispatch`. -/
theorem Sound.step_unregisterRoom (hs : s.Sound) : s.step (.unregisterRoom r) = none := by
  cases hroom : s.rooms[r]? with
  | none => simp [step, hroom]
  | some room =>
    have hdispatching := (hs.rooms.sound room (List.mem_of_getElem? hroom)).dispatching
    simp only [step, hroom]
    split_ifs with hguard
    · simp only [Bool.and_eq_true, Bool.not_eq_true'] at hguard
      rw [hdispatching (Or.inr hguard.1)] at hguard
      cases hguard.2
    · rfl

theorem Sound.join (hs : s.Sound) (session : Session) : (s.join c session).Sound := by
  rw [Hub.join]
  cases hlookup : s.registry.lookup session.topic with
  | some r =>
    obtain ⟨room, hroom, htopic, -⟩ := hs.rooms.registered _ r hlookup
    refine ⟨hs.busOpen, hs.rooms, hs.sessions.move (fun q hq => ?_) nofun⟩
    obtain rfl : r = q := by simpa using hq
    exact ⟨room, hroom, htopic⟩
  | none =>
    have hnew : ({ topic := session.topic, subscribed := s.busOpen } : Room).Sound :=
      ⟨by simp [hs.busOpen], fun _ => rfl, nofun⟩
    refine ⟨hs.busOpen, hs.rooms.append hlookup rfl hnew, (hs.sessions.append _).move (fun q hq => ?_) nofun⟩
    obtain rfl : s.rooms.length = q := by simpa using hq
    exact ⟨_, List.getElem?_concat_length, rfl⟩

theorem Sound.addMember (hs : s.Sound) (session : Session) {room : Room}
    (hroom : s.rooms[r]? = some room) (hlocked : room.locked = false) :
    (s.addMember c session r room).Sound := by
  have hsound := hs.rooms.sound room (List.mem_of_getElem? hroom)
  have hfree := hs.sessions.free hroom hlocked
  have hsessions := hs.sessions.setRoom hroom { room with members := room.members ++ [c] } rfl (Or.inr hfree)
  exact ⟨hs.busOpen,
    hs.rooms.setRoom hroom rfl rfl ⟨hsound.subscribed, hsound.dispatching, hsound.locked⟩,
    hsessions.move nofun nofun⟩

theorem Sound.leave (hs : s.Sound) (session : Session) {room : Room} (hroom : s.rooms[r]? = some room)
    (hlocked : room.locked = false) : (s.leave c session r room).Sound := by
  have hsound := hs.rooms.sound room (List.mem_of_getElem? hroom)
  have hfree := hs.sessions.free hroom hlocked
  rw [Hub.leave]
  split_ifs with hlast
  · -- the room retires; it was not locked, so that no other session is retiring it
    simp only [Bool.and_eq_true, Bool.not_eq_true'] at hlast
    have hretired : room.retired = false := hlast.2
    have hsessions := hs.sessions.setRoom hroom { room with
      members := room.members.filter fun m => m != c
      subscribed := false
      retired := true
      locked := true } rfl (Or.inl rfl)
    refine ⟨hs.busOpen, hs.rooms.setRoom hroom rfl (by simp [Room.listed, hretired])
      ⟨rfl, fun _ => hsound.dispatching (Or.inl hretired), fun _ => rfl⟩,
      hsessions.move nofun fun q hq => ?_⟩
    obtain rfl : r = q := by simpa using hq
    exact ⟨⟨_, List.getElem?_set_self (List.getElem?_eq_some_iff.1 hroom).1, rfl⟩, hfree⟩
  · have hsessions := hs.sessions.setRoom hroom
      { room with members := room.members.filter fun m => m != c } rfl (Or.inr hfree)
    exact ⟨hs.busOpen,
      hs.rooms.setRoom hroom rfl rfl ⟨hsound.subscribed, hsound.dispatching, hsound.locked⟩,
      hsessions.move nofun nofun⟩

theorem Sound.unregister (hs : s.Sound) {session : Session} {room : Room}
    (hc : s.sessions[c]? = some session) (hpoint : session.point = .retiring r)
    (hroom : s.rooms[r]? = some room) : ((s.finishRetire r room).move c session .left).Sound := by
  have hsound := hs.rooms.sound room (List.mem_of_getElem? hroom)
  obtain ⟨room', hroom', hlocked⟩ := hs.sessions.retiring c session r hc hpoint
  obtain rfl : room = room' := by rw [hroom] at hroom'; exact Option.some.inj hroom'
  have hretired := hsound.locked hlocked
  have hleft : SessionsSound s.rooms (s.sessions.set c { session with point := .left }) :=
    hs.sessions.move nofun nofun
  refine ⟨hs.busOpen, hs.rooms.delete hroom (by simp [Room.listed, hlocked]) (by simp [Room.listed, hretired])
    ⟨hsound.subscribed, fun h => ?_, nofun⟩,
    hleft.setRoom hroom { room with locked := false } rfl (Or.inr fun i other hi hq => ?_)⟩
  · simp [hretired] at h
  · -- the only session that was retiring this room has left
    rcases getElem?_set_cases hi with ⟨rfl, rfl⟩ | ⟨hne, hi⟩
    · cases hq
    · exact hne (hs.sessions.unique i c other session r hi hc hq hpoint)

theorem Sound.teardown (hs : s.Sound) {room : Room} (hroom : s.rooms[r]? = some room)
    (hsubscribed : room.subscribed = false) (hlocked : room.locked = false) : (s.teardown r room).Sound := by
  have hsound := hs.rooms.sound room (List.mem_of_getElem? hroom)
  -- a room loses its subscription only when it retires
  have hretired : room.retired = true := by
    have := hsound.subscribed
    rw [hsubscribed] at this
    simpa using this.symm
  refine ⟨hs.busOpen, hs.rooms.setRoom hroom rfl (by simp [Room.listed, hretired, hlocked])
    ⟨hsubscribed, fun h => ?_, fun _ => rfl⟩,
    hs.sessions.setRoom hroom _ rfl (Or.inr (hs.sessions.free hroom hlocked))⟩
  simp [hretired] at h

/-- While the bus is open every step keeps the registry and the rooms together. -/
theorem Sound.step {a : HubStep} (hs : s.Sound) (ha : a ≠ .closeBus) (h : s.step a = some s') : s'.Sound := by
  cases a with
  | join c =>
    obtain ⟨session, -, -, rfl⟩ := step_join h
    exact hs.join session
  | addMember c =>
    obtain ⟨session, r, room, hc, hr, hroom, hact⟩ := atRoom_eq_some h
    split_ifs at hact with hlocked
    cases hact
    exact hs.addMember session hroom (by simpa using hlocked)
  | leave c =>
    obtain ⟨session, r, room, hc, hr, hroom, hact⟩ := atRoom_eq_some h
    split_ifs at hact with hlocked
    cases hact
    exact hs.leave session hroom (by simpa using hlocked)
  | unregister c =>
    obtain ⟨session, r, room, hc, hr, hroom, hact⟩ := atRoom_eq_some h
    cases hact
    exact hs.unregister hc (eq_retiring hr) hroom
  | teardown r =>
    obtain ⟨room, hroom, hsubscribed, hlocked, rfl⟩ := step_teardown h
    exact hs.teardown hroom hsubscribed hlocked
  | unregisterRoom r =>
    rw [hs.step_unregisterRoom] at h
    cases h
  | closeBus => exact absurd rfl ha

end Steps

/-! ## Members of live rooms -/

section Members

variable {s t : Hub} {c r q : Nat} {session : Session} {room room' : Room}

theorem InLiveRoom.setRoom (h : s.InLiveRoom c session q) (hroom : s.rooms[r]? = some room)
    (hsame : r = q → c ∈ room.members → room.retired = false → room.subscribed = true →
      c ∈ room'.members ∧ room'.retired = false ∧ room'.subscribed = true) :
    (s.setRoom r room').InLiveRoom c session q := by
  refine exists_getElem?_set hroom (fun hrq hr => ?_) h
  obtain ⟨hmember, hretired, hsubscribed, hlookup⟩ := hr
  obtain ⟨hmember', hretired', hsubscribed'⟩ := hsame hrq hmember hretired hsubscribed
  exact ⟨hmember', hretired', hsubscribed', hlookup⟩

/-- One session goes on; the others stay in their rooms. -/
theorem live_move {point : SessionPoint} (ht : t.sessions = s.sessions.set c { session with point := point })
    (hothers : ∀ (i : Nat) other q, i ≠ c → s.sessions[i]? = some other → other.point = .member q →
      t.InLiveRoom i other q)
    (hself : ∀ q, point = .member q → t.InLiveRoom c { session with point := point } q) : t.Live := by
  intro i other q hi hq
  rw [ht] at hi
  rcases getElem?_set_cases hi with ⟨rfl, rfl⟩ | ⟨hne, hi⟩
  · exact hself q hq
  · exact hothers i other q hne hi hq

theorem Live.join (hs : s.Live) : (s.join c session).Live := by
  rw [Hub.join]
  cases hlookup : s.registry.lookup session.topic with
  | some r => exact live_move rfl (fun i other q _ hi hq => hs i other q hi hq) nofun
  | none =>
    refine live_move rfl (fun i other q _ hi hq => ?_) nofun
    obtain ⟨roomq, hroomq, hmember, hretired, hsubscribed, hq⟩ := hs i other q hi hq
    refine ⟨roomq, getElem?_append_of_some hroomq _, hmember, hretired, hsubscribed, ?_⟩
    -- the new room is for a topic that had none
    rw [lookup_mapSet, if_neg ?_, hq]
    intro htopic
    rw [eq_of_beq htopic, hlookup] at hq
    cases hq

/-- The member that is added is in a live room exactly if the room has not retired. -/
theorem Live.addMember_iff (hsound : s.Sound) (hs : s.Live) (hc : s.sessions[c]? = some session)
    (hpoint : session.point = .joined r) (hroom : s.rooms[r]? = some room) :
    (s.addMember c session r room).Live ↔ room.retired = false := by
  have hself : (s.rooms.set r { room with members := room.members ++ [c] })[r]? =
      some { room with members := room.members ++ [c] } :=
    List.getElem?_set_self (List.getElem?_eq_some_iff.1 hroom).1
  constructor
  · intro hlive
    have hat : (s.addMember c session r room).sessions[c]? = some { session with point := .member r } :=
      List.getElem?_set_self (List.getElem?_eq_some_iff.1 hc).1
    obtain ⟨room', hroom', -, hretired, -⟩ := hlive c _ r hat rfl
    obtain rfl := Option.some.inj (hself.symm.trans hroom')
    exact hretired
  · intro hretired
    refine live_move rfl (fun i other q _ hi hq => ?_) fun q hq => ?_
    · apply InLiveRoom.setRoom (hs i other q hi hq) hroom
      intro _ hmember hretired hsubscribed
      exact ⟨List.mem_append_left _ hmember, hretired, hsubscribed⟩
    · obtain rfl : r = q := by simpa using hq
      obtain ⟨roomr, hroomr, htopic⟩ := hsound.sessions.joined c session r hc hpoint
      obtain rfl := Option.some.inj (hroom.symm.trans hroomr)
      have hsubscribed := (hsound.rooms.sound room (List.mem_of_getElem? hroom)).subscribed
      refine ⟨_, hself, by simp, hretired, by simp [hsubscribed, hretired], ?_⟩
      rw [← htopic]
      exact hsound.rooms.listed r room hroom (by simp [Room.listed, hretired])

theorem Live.leave (hs : s.Live) (hroom : s.rooms[r]? = some room) : (s.leave c session r room).Live := by
  -- whoever else is in this room is still among its members
  have hstays : ∀ i, i ≠ c → i ∈ room.members → i ∈ room.members.filter fun m => m != c :=
    fun i hne hi => List.mem_filter.2 ⟨hi, by simpa using hne⟩
  rw [Hub.leave]
  split_ifs with hlast
  · refine live_move rfl (fun i other q hne hi hq => ?_) nofun
    apply InLiveRoom.setRoom (hs i other q hi hq) hroom
    intro _ hmember
    simp only [Bool.and_eq_true, List.isEmpty_iff] at hlast
    have hmember := hstays i hne hmember
    rw [hlast.1.2] at hmember
    cases hmember
  · refine live_move rfl (fun i other q hne hi hq => ?_) nofun
    apply InLiveRoom.setRoom (hs i other q hi hq) hroom
    intro _ hmember hretired hsubscribed
    exact ⟨hstays i hne hmember, hretired, hsubscribed⟩

theorem Live.unregister (hsound : s.Sound) (hs : s.Live) (hc : s.sessions[c]? = some session)
    (hpoint : session.point = .retiring r) (hroom : s.rooms[r]? = some room) :
    ((s.finishRetire r room).move c session .left).Live := by
  obtain ⟨roomr, hroomr, hlocked⟩ := hsound.sessions.retiring c session r hc hpoint
  obtain rfl := Option.some.inj (hroom.symm.trans hroomr)
  have hwas := (hsound.rooms.sound room (List.mem_of_getElem? hroom)).locked hlocked
  have hlisted := hsound.rooms.listed r room hroom (by simp [Room.listed, hlocked])
  refine live_move rfl (fun i other q _ hi hq => ?_) nofun
  obtain ⟨roomq, hroomq, hmember, hretired, hsubscribed, hlookup⟩ := hs i other q hi hq
  have hrq : r ≠ q := by
    rintro rfl
    obtain rfl := Option.some.inj (hroom.symm.trans hroomq)
    rw [hwas] at hretired
    cases hretired
  refine ⟨roomq, (List.getElem?_set_ne hrq).trans hroomq, hmember, hretired, hsubscribed, ?_⟩
  -- the topic that is removed led to the retired room, this one to another
  change (mapDelete s.registry room.topic).lookup other.topic = some q
  rw [lookup_mapDelete, if_neg ?_, hlookup]
  intro htopic
  rw [eq_of_beq htopic, hlisted, Option.some.injEq] at hlookup
  exact hrq hlookup

theorem Live.teardown (hs : s.Live) (hroom : s.rooms[r]? = some room)
    (hsubscribed : room.subscribed = false) : (s.teardown r room).Live := by
  intro i other q hi hq
  apply InLiveRoom.setRoom (hs i other q hi hq) hroom
  intro _ _ _ hwas
  rw [hsubscribed] at hwas
  cases hwas

/-- A step keeps the members in live rooms, unless it adds one too late. -/
theorem Live.step_iff {a : HubStep} {s' : Hub} (hsound : s.Sound) (hs : s.Live) (ha : a ≠ .closeBus)
    (h : s.step a = some s') : s'.Live ↔ s.addsInTime a = true := by
  cases a with
  | join c =>
    obtain ⟨session, -, -, rfl⟩ := step_join h
    exact iff_of_true hs.join rfl
  | addMember c =>
    obtain ⟨session, r, room, hc, hr, hroom, hact⟩ := atRoom_eq_some h
    split_ifs at hact
    cases hact
    rw [hs.addMember_iff hsound hc (eq_joined hr) hroom]
    simp [addsInTime, hc, hr, hroom]
  | leave c =>
    obtain ⟨session, r, room, hc, hr, hroom, hact⟩ := atRoom_eq_some h
    split_ifs at hact
    cases hact
    exact iff_of_true (hs.leave hroom) rfl
  | unregister c =>
    obtain ⟨session, r, room, hc, hr, hroom, hact⟩ := atRoom_eq_some h
    cases hact
    exact iff_of_true (hs.unregister hsound hc (eq_retiring hr) hroom) rfl
  | teardown r =>
    obtain ⟨room, hroom, hsubscribed, -, rfl⟩ := step_teardown h
    exact iff_of_true (hs.teardown hroom hsubscribed) rfl
  | unregisterRoom r =>
    rw [hsound.step_unregisterRoom] at h
    cases h
  | closeBus => exact absurd rfl ha

/-- The bus is not opened again. -/
theorem busOpen_step {a : HubStep} {s' : Hub} (h : s.step a = some s') (hopen : s'.busOpen = true) :
    s.busOpen = true ∧ a ≠ .closeBus := by
  cases a with
  | join c =>
    obtain ⟨session, -, -, rfl⟩ := step_join h
    refine ⟨?_, nofun⟩
    rw [Hub.join] at hopen
    split at hopen
    · exact hopen
    · exact hopen
  | addMember c =>
    obtain ⟨session, r, room, -, -, -, hact⟩ := atRoom_eq_some h
    split_ifs at hact
    cases hact
    exact ⟨hopen, nofun⟩
  | leave c =>
    obtain ⟨session, r, room, -, -, -, hact⟩ := atRoom_eq_some h
    split_ifs at hact
    cases hact
    refine ⟨?_, nofun⟩
    rw [Hub.leave] at hopen
    split_ifs at hopen
    · exact hopen
    · exact hopen
  | unregister c =>
    obtain ⟨session, r, room, -, -, -, hact⟩ := atRoom_eq_some h
    cases hact
    exact ⟨hopen, nofun⟩
  | teardown r =>
    obtain ⟨room, -, -, -, rfl⟩ := step_teardown h
    exact ⟨hopen, nofun⟩
  | unregisterRoom r =>
    cases hroom : s.rooms[r]? with
    | none => simp [step, hroom] at h
    | some room =>
      simp only [step, hroom] at h
      split_ifs at h
      cases h
      exact ⟨hopen, nofun⟩
  | closeBus =>
    cases h
    cases hopen

theorem closeBus_not_mem {schedule : List HubStep} {s' : Hub} (h : exec Hub.step s schedule = some s')
    (hopen : s'.busOpen = true) : s.busOpen = true ∧ ∀ a ∈ schedule, a ≠ .closeBus := by
  induction schedule generalizing s with
  | nil =>
    cases h
    exact ⟨hopen, nofun⟩
  | cons a schedule ih =>
    obtain ⟨s₁, hs₁, h⟩ := exec_cons_eq_some.1 h
    obtain ⟨hopen₁, hrest⟩ := ih h
    obtain ⟨hopen₀, ha⟩ := busOpen_step hs₁ hopen₁
    exact ⟨hopen₀, List.forall_mem_cons.2 ⟨ha, hrest⟩⟩

theorem init_point {topics : List Bytes} (hc : (init topics).sessions[c]? = some session) :
    session.point = .idle := by
  obtain ⟨topic, -, rfl⟩ : ∃ topic ∈ topics, (⟨topic, .idle⟩ : Session) = session := by
    simpa [init] using List.mem_of_getElem? hc
  rfl

theorem sound_init (topics : List Bytes) : (init topics).Sound := by
  refine ⟨rfl, ⟨nofun, nofun, nofun⟩, ⟨fun c session r hc hpoint => ?_, fun c session r hc hpoint => ?_,
    fun c c' session session' r hc _ hpoint => ?_⟩⟩
  all_goals
    rw [init_point hc] at hpoint
    cases hpoint

theorem live_init (topics : List Bytes) : (init topics).Live := by
  intro c session r hc hpoint
  rw [init_point hc] at hpoint
  cases hpoint

/-- **Rooms stay live.** As long as the bus is open, every member that has been added and has not left
is in the room that the registry has for its topic, with its subscription, at every moment of a run if
and only if no `AddMember` comes after the room of its `Join` has retired. -/
theorem members_live_iff (topics : List Bytes) (schedule : List HubStep) (s : Hub)
    (h : exec Hub.step (init topics) schedule = some s) (hopen : s.busOpen = true) :
    Always Hub.step Live (init topics) schedule ↔
      Throughout Hub.step (fun s a => s.addsInTime a = true) (init topics) schedule := by
  have hclose := (closeBus_not_mem h hopen).2
  exact always_iff_throughout (fun s a ha s' hsound hs' => hsound.step (hclose a ha) hs')
    (fun s a ha s' hsound hs hs' => hs.step_iff hsound (hclose a ha) hs') (sound_init topics)
    (live_init topics) h

end Members

/-- Two sessions in one room; one of them leaves, and the room goes on. -/
theorem members_live_two :
    Always Hub.step Live (init [utf8 "rooms:acme:a", utf8 "rooms:acme:a"])
      [.join 0, .join 1, .addMember 1, .addMember 0, .leave 1] := by
  obtain ⟨s, hs⟩ := Option.isSome_iff_exists.1
    (by decide +kernel : (exec Hub.step (init [utf8 "rooms:acme:a", utf8 "rooms:acme:a"])
      [.join 0, .join 1, .addMember 1, .addMember 0, .leave 1]).isSome = true)
  have hopen : (exec Hub.step (init [utf8 "rooms:acme:a", utf8 "rooms:acme:a"])
      [.join 0, .join 1, .addMember 1, .addMember 0, .leave 1]).map Hub.busOpen = some true := by
    decide +kernel
  rw [hs] at hopen
  exact (members_live_iff _ _ s hs (Option.some.inj hopen)).2 (by decide +kernel)

/-- The second session looks the room up, the first one leaves it and retires it, and the second one is
added to it: every call has returned, the bus is open, and the member is in a room without a subscription
that the registry does not have. -/
theorem join_during_retirement :
    ∃ s : Hub, exec Hub.step (init [utf8 "rooms:acme:a", utf8 "rooms:acme:a"])
        [.join 0, .addMember 0, .join 1, .leave 0, .unregister 0, .teardown 0, .addMember 1] = some s ∧
      s.busOpen = true ∧ s.settled = true ∧ s.registry = [] ∧
      s.rooms = [⟨utf8 "rooms:acme:a", [1], false, true, false, false⟩] ∧ ¬ s.Live := by
  refine ⟨⟨[⟨utf8 "rooms:acme:a", [1], false, true, false, false⟩], [],
    [⟨utf8 "rooms:acme:a", .left⟩, ⟨utf8 "rooms:acme:a", .member 0⟩], true⟩, by decide +kernel, rfl,
    by decide +kernel, rfl, rfl, fun hlive => ?_⟩
  obtain ⟨room, -, -, -, -, hlookup⟩ := hlive 1 ⟨utf8 "rooms:acme:a", .member 0⟩ 0 rfl rfl
  cases hlookup

end Hub

end Astrate.Channels
