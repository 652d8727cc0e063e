import Astrate.Engine.Triggers

/-!
# Watches of the Channels socket

`handleWatch` of `internal/appengine/channels/ws.go` with `Room.Watch` and `Room.dispatch` of
`room.go`. The payload of a watch is decoded three times: as the request, as the shape from which the
authorization path is derived, and as the condition of the trigger. The token is asked about the path;
what is stored is the device of the request and the trigger.

A watch of a device is stored with that device, so that it only ever delivers events of the device
named in the path. A watch of a group is authorized for the group, but the group is not stored, and its
trigger matches events of any device (`watch_sound_iff`, `group_watch_delivers_strangers`).
-/

set_option autoImplicit false

namespace Astrate.Channels

open Astrate.GoLib
open Astrate.GoLib.Json (StructField Generic)
open Astrate.InterfaceSchema (stringField)
open Astrate.Triggers

/-! ## Requests -/

/-- The payload of a watch. -/
structure WatchRequest where
  name : Bytes := []
  deviceID : Bytes := []
  groupName : Bytes := []
  simpleTrigger : Bytes := []
  deriving DecidableEq

/-- Its members. -/
def watchRequestFields : List (StructField WatchRequest) :=
  [stringField "name" (·.name) fun r v => { r with name := v },
    stringField "device_id" (·.deviceID) fun r v => { r with deviceID := v },
    stringField "group_name" (·.groupName) fun r v => { r with groupName := v },
    rawField "simple_trigger" fun r v => { r with simpleTrigger := v }]

/-- `triggerShape`. -/
structure TriggerShape where
  type : Bytes := []
  interfaceName : Bytes := []
  matchPath : Bytes := []
  groupName : Bytes := []
  deviceID : Bytes := []
  deriving DecidableEq

/-- Its members. -/
def triggerShapeFields : List (StructField TriggerShape) :=
  [stringField "type" (·.type) fun t v => { t with type := v },
    stringField "interface_name" (·.interfaceName) fun t v => { t with interfaceName := v },
    stringField "match_path" (·.matchPath) fun t v => { t with matchPath := v },
    stringField "group_name" (·.groupName) fun t v => { t with groupName := v },
    stringField "device_id" (·.deviceID) fun t v => { t with deviceID := v }]

/-- The errors of `watchAuthPath`. -/
inductive PathError where
  | parse
  | nestedGroupName
  | noTriggerTarget
  | groupDeviceNotWildcard
  | unauthorizedTrigger
  deriving DecidableEq, Repr

/-- `watchAuthPath` behind the decoding. -/
def authPath (req : WatchRequest) (ts : TriggerShape) : Except PathError Bytes :=
  if req.groupName = [] ∧ ts.groupName ≠ [] then .error .nestedGroupName
  else if req.groupName ≠ [] then
    if ts.type = utf8 "device_trigger" ∧ ts.deviceID ≠ [] ∧ ts.deviceID ≠ utf8 "*" then
      .error .groupDeviceNotWildcard
    else if ts.type = utf8 "data_trigger" then
      .ok (utf8 "groups/" ++ req.groupName ++ utf8 "/" ++ ts.interfaceName ++ ts.matchPath)
    else .ok (utf8 "groups/" ++ req.groupName)
  else if ts.type = utf8 "data_trigger" then
    if req.deviceID = [] then .error .noTriggerTarget
    else .ok (req.deviceID ++ utf8 "/" ++ ts.interfaceName ++ ts.matchPath)
  else if ts.deviceID = [] ∨ ts.deviceID ≠ req.deviceID then .error .unauthorizedTrigger
  else .ok ts.deviceID

/-- `watchAuthPath`. -/
def watchAuthPath (req : WatchRequest) : Except PathError Bytes :=
  match (Json.scanDocument req.simpleTrigger).bind (Json.decodeStruct triggerShapeFields false {}) with
  | none => .error .parse
  | some ts => authPath req ts

/-! ## Rooms -/

/-- A watch of a room. -/
structure WatchEntry where
  name : Bytes
  deviceID : Bytes
  tg : Condition

/-- The errors of `Room.Watch`. -/
inductive RoomError where
  | nameRequired
  | simpleTriggerRequired
  | compileCondition (err : ConditionError)
  deriving DecidableEq

/-- `Room.Watch`: the entry it stores under the name of the request. -/
def roomWatch (req : WatchRequest) : Except RoomError WatchEntry :=
  if req.name = [] then .error .nameRequired
  else if req.simpleTrigger = [] then .error .simpleTriggerRequired
  else
    match compileCondition req.simpleTrigger with
    | .error err => .error (.compileCondition err)
    | .ok tg => .ok ⟨req.name, req.deviceID, tg⟩

/-- The replies of `handleWatch` to a watch it refuses. -/
inductive WatchRefusal where
  | invalidPayload
  | unauthorized
  | groupDevice
  | changeset
  | invalidSimpleTrigger
  | invalidTrigger
  deriving DecidableEq, Repr

/-- The reason in the reply; the changeset reply carries an object of errors instead. -/
def WatchRefusal.reason : WatchRefusal → Option String
  | .invalidPayload => some "invalid payload"
  | .unauthorized => some "unauthorized"
  | .groupDevice => some "device_id must be * for group triggers"
  | .changeset => none
  | .invalidSimpleTrigger => some "invalid simple_trigger"
  | .invalidTrigger => some "invalid trigger"

def pathRefusal : PathError → WatchRefusal
  | .unauthorizedTrigger => .unauthorized
  | .groupDeviceNotWildcard => .groupDevice
  | .nestedGroupName | .noTriggerTarget => .changeset
  | .parse => .invalidSimpleTrigger

/-- A watch that was accepted: its request, the path the token was asked about, and the entry. -/
structure AcceptedWatch where
  request : WatchRequest
  path : Bytes
  entry : WatchEntry

/-- `handleWatch`, with `AuthorizesChannel` of the token for the verb `WATCH`. -/
def handleWatch (authorizes : Bytes → Bool) (payload : Bytes) : Except WatchRefusal AcceptedWatch :=
  match (Json.scanDocument payload).bind (Json.decodeStruct watchRequestFields false {}) with
  | none => .error .invalidPayload
  | some req =>
    match watchAuthPath req with
    | .error err => .error (pathRefusal err)
    | .ok path =>
      if authorizes path then
        match roomWatch req with
        | .error _ => .error .invalidTrigger
        | .ok entry => .ok ⟨req, path, entry⟩
      else .error .unauthorized

/-! ## Events -/

/-- The kinds of events. -/
inductive EventKind where
  | incomingData
  | deviceRegistered
  | deviceConnected
  | deviceDisconnected
  | deviceDeletionStarted
  | deviceDeletionFinished
  | deviceError
  deriving DecidableEq, Repr

/-- `stream.Event`; the device ID is kept as the identifier that `DeviceID` encodes. -/
structure Event (β : Type) where
  kind : EventKind
  deviceID : DeviceID
  interface : Bytes := []
  path : Bytes := []
  interfaceMajor : Int := 0
  ip : Bytes := []
  errorName : Bytes := []
  errorMetadata : List (Bytes × Bytes) := []
  value : β
  timestamp : Time

/-- What an event carries. -/
inductive EventBody (β : Type) where
  | incomingData (interface path : Bytes) (value : β)
  | deviceConnected (ip : Bytes)
  | deviceDisconnected
  | deviceError (name : Bytes) (metadata : List (Bytes × Bytes))

/-- `SimpleEvent`. -/
structure SimpleEvent (β : Type) where
  timestamp : Time
  deviceID : DeviceID
  triggerName : Bytes
  event : EventBody β

/-- The device conditions under which `dispatch` looks for an event. -/
def EventKind.deviceCondition : EventKind → Option DeviceCondition
  | .deviceConnected => some .deviceConnected
  | .deviceDisconnected => some .deviceDisconnected
  | .deviceError => some .deviceError
  | _ => none

section

variable {β : Type} (valueMatches : Bytes → β → Option Generic → Bool)

/-- The body of the envelope, for the kinds that have one. -/
def eventBody (ev : Event β) : Option (EventBody β) :=
  match ev.kind with
  | .incomingData => some (.incomingData ev.interface ev.path ev.value)
  | .deviceConnected => some (.deviceConnected ev.ip)
  | .deviceDisconnected => some .deviceDisconnected
  | .deviceError => some (.deviceError ev.errorName ev.errorMetadata)
  | _ => none

/-- The trigger of a watch matches the event. -/
def matchesTrigger (tg : Condition) (ev : Event β) : Bool :=
  match ev.kind with
  | .incomingData =>
    tg.matchesData valueMatches
      { deviceID := ev.deviceID.string, interface := ev.interface, major := ev.interfaceMajor,
        path := ev.path, on := .incomingData, value := ev.value }
  | kind =>
    kind.deviceCondition.any fun on =>
      tg.matchesDevice { deviceID := ev.deviceID.string, on := on }

/-- One pass of the loop of `dispatch` over the watches: the envelope, if the watch gives one. -/
def envelope (w : WatchEntry) (ev : Event β) : Option (SimpleEvent β) :=
  if w.deviceID ≠ [] ∧ w.deviceID ≠ ev.deviceID.string then none
  else if matchesTrigger valueMatches w.tg ev then
    (eventBody ev).map fun body => ⟨ev.timestamp, ev.deviceID, w.name, body⟩
  else none

end

/-! ## What a path authorizes -/

/-- The path names the target itself, or something below it. -/
def Targets (target path : Bytes) : Prop := path = target ∨ ∃ rest, path = target ++ 47 :: rest

/-- The path names the device, or a group that the device is a member of. -/
def Covers (member : Bytes → DeviceID → Prop) (path : Bytes) (id : DeviceID) : Prop :=
  Targets id.string path ∨ ∃ group, Targets (utf8 "groups/" ++ group) path ∧ member group id

theorem utf8_slash : utf8 "/" = [47] := by decide

theorem utf8_groups : utf8 "groups/" = utf8 "groups" ++ [47] := by decide

theorem authPath_device {req : WatchRequest} {ts : TriggerShape} {path : Bytes}
    (hgroup : req.groupName = []) (h : authPath req ts = .ok path) :
    req.deviceID ≠ [] ∧ Targets req.deviceID path := by
  rw [authPath] at h
  split_ifs at h with hnested hgroup' hwild hdata hdata' hdevice htarget
  · exact absurd hgroup hgroup'
  · exact absurd hgroup hgroup'
  · cases h
    exact ⟨hdevice, Or.inr ⟨ts.interfaceName ++ ts.matchPath, by simp [utf8_slash]⟩⟩
  · cases h
    rw [not_or, not_not] at htarget
    exact ⟨htarget.2 ▸ htarget.1, Or.inl htarget.2⟩

theorem authPath_group {req : WatchRequest} {ts : TriggerShape} {path : Bytes}
    (hgroup : req.groupName ≠ []) (h : authPath req ts = .ok path) :
    ∃ rest, path = utf8 "groups" ++ 47 :: rest := by
  rw [authPath] at h
  split_ifs at h with hnested hwild hdata
  · cases h
    exact ⟨req.groupName ++ utf8 "/" ++ ts.interfaceName ++ ts.matchPath, by simp [utf8_groups]⟩
  · cases h
    exact ⟨req.groupName, by simp [utf8_groups]⟩

/-- The text of a device ID is not the word that begins the paths of groups. -/
theorem not_targets_of_groups (id : DeviceID) (rest : Bytes) :
    ¬ Targets id.string (utf8 "groups" ++ 47 :: rest) := by
  have hslash : (47 : UInt8) ∉ id.string := by
    intro hmem
    have hurl := DeviceID.urlByte_of_mem hmem
    revert hurl
    decide
  rintro (h | ⟨rest', h⟩)
  · exact hslash (h ▸ List.mem_append_right _ List.mem_cons_self)
  · -- both sides are cut at their first slash
    have hcut := (cutByte_eq_some_iff 47 _ _ _).2 ⟨h, hslash⟩
    rw [(cutByte_eq_some_iff 47 _ _ _).2 ⟨rfl, by decide⟩, Option.some.injEq, Prod.mk.injEq] at hcut
    have hlength := id.length_string
    rw [← hcut.1] at hlength
    revert hlength
    decide

/-- What is behind a watch that was accepted. -/
theorem handleWatch_eq_ok {authorizes : Bytes → Bool} {payload : Bytes} {w : AcceptedWatch}
    (h : handleWatch authorizes payload = .ok w) :
    authorizes w.path = true ∧ w.entry.deviceID = w.request.deviceID ∧
      ∃ ts, authPath w.request ts = .ok w.path := by
  rw [handleWatch] at h
  cases hreq : (Json.scanDocument payload).bind (Json.decodeStruct watchRequestFields false {}) with
  | none => simp [hreq] at h
  | some req =>
    cases hpath : watchAuthPath req with
    | error err => simp [hreq, hpath] at h
    | ok path =>
      by_cases hauth : authorizes path = true
      · cases hroom : roomWatch req with
        | error err => simp [hreq, hpath, hauth, hroom] at h
        | ok entry =>
          simp only [hreq, hpath, hauth, if_true, hroom, Except.ok.injEq] at h
          subst h
          refine ⟨hauth, ?_, ?_⟩
          · rw [roomWatch] at hroom
            split_ifs at hroom
            cases htg : compileCondition req.simpleTrigger with
            | error err => simp [htg] at hroom
            | ok tg =>
              simp only [htg, Except.ok.injEq] at hroom
              rw [← hroom]
          · rw [watchAuthPath] at hpath
            cases hts : (Json.scanDocument req.simpleTrigger).bind
                (Json.decodeStruct triggerShapeFields false {}) with
            | none => simp [hts] at hpath
            | some ts =>
              simp only [hts] at hpath
              exact ⟨ts, hpath⟩
      · simp [hreq, hpath, hauth] at h

section

variable {β : Type} (valueMatches : Bytes → β → Option Generic → Bool)

/-- An accepted watch delivers only events of devices its path names, whoever is in the groups, exactly
when it is not the watch of a group or never delivers anything. -/
theorem watch_sound_iff {authorizes : Bytes → Bool} {payload : Bytes} {w : AcceptedWatch}
    (h : handleWatch authorizes payload = .ok w) :
    (∀ (member : Bytes → DeviceID → Prop) (ev : Event β) (env : SimpleEvent β),
        envelope valueMatches w.entry ev = some env → Covers member w.path ev.deviceID) ↔
      w.request.groupName = [] ∨ ∀ ev : Event β, envelope valueMatches w.entry ev = none := by
  obtain ⟨-, hentry, ts, hpath⟩ := handleWatch_eq_ok h
  constructor
  · intro hsound
    by_contra hnot
    rw [not_or, not_forall] at hnot
    obtain ⟨hgroup, ev, hev⟩ := hnot
    obtain ⟨env, henv⟩ := Option.ne_none_iff_exists'.1 hev
    obtain ⟨rest, hrest⟩ := authPath_group hgroup hpath
    -- with empty groups nobody is authorized by a path of a group
    rcases hsound (fun _ _ => False) ev env henv with htarget | ⟨group, -, hfalse⟩
    · rw [hrest] at htarget
      exact not_targets_of_groups ev.deviceID rest htarget
    · exact hfalse
  · rintro (hgroup | hnone) member ev env henv
    · obtain ⟨hne, htarget⟩ := authPath_device hgroup hpath
      rw [envelope] at henv
      split_ifs at henv with hother
      rw [not_and_or, not_not, not_not, hentry] at hother
      rcases hother with hempty | heq
      · exact absurd hempty hne
      · exact Or.inl (heq ▸ htarget)
    · rw [hnone ev] at henv
      cases henv

end

/-- Values that only the wildcard matches. -/
def wildcardMatches (op : Bytes) (_ : Unit) (_ : Option Generic) : Bool := op == utf8 "*"

/-- A watch of the connections of one device. -/
def deviceWatchPayload : Bytes :=
  utf8 "\x7b\"name\":\"w\",\"device_id\":\"BwcHBwcHBwcHBwcHBwcHBw\"," ++
    utf8 "\"simple_trigger\":\x7b\"type\":\"device_trigger\",\"on\":\"device_connected\"," ++
    utf8 "\"device_id\":\"BwcHBwcHBwcHBwcHBwcHBw\"\x7d\x7d"

/-- It delivers events of that device only. -/
theorem watch_sound_device :
    ∃ w, handleWatch (fun path => path == utf8 "BwcHBwcHBwcHBwcHBwcHBw") deviceWatchPayload = .ok w ∧
      ∀ (member : Bytes → DeviceID → Prop) (ev : Event Unit) (env : SimpleEvent Unit),
        envelope wildcardMatches w.entry ev = some env → Covers member w.path ev.deviceID := by
  have hrun : ((handleWatch (fun path => path == utf8 "BwcHBwcHBwcHBwcHBwcHBw")
      deviceWatchPayload).toOption.map fun w => w.request.groupName) = some [] := by decide +kernel
  obtain ⟨w, hw, hgroup⟩ := Option.map_eq_some_iff.1 hrun
  have haccepted := toOption_eq_some_iff.1 hw
  exact ⟨w, haccepted, (watch_sound_iff wildcardMatches haccepted).2 (Or.inl hgroup)⟩

/-- A watch of all data of a group. -/
def groupWatchPayload : Bytes :=
  utf8 "\x7b\"name\":\"w\",\"group_name\":\"kitchen\"," ++
    utf8 "\"simple_trigger\":\x7b\"type\":\"data_trigger\",\"on\":\"incoming_data\"," ++
    utf8 "\"interface_name\":\"*\",\"match_path\":\"/*\",\"value_match_operator\":\"*\"\x7d\x7d"

/-- A token that grants the group is asked and says yes, and an event of a device that is in no group is
delivered. -/
theorem group_watch_delivers_strangers :
    ∃ w, handleWatch (fun path => path == utf8 "groups/kitchen/*/*") groupWatchPayload = .ok w ∧
      w.path = utf8 "groups/kitchen/*/*" ∧
      ∃ (ev : Event Unit) (env : SimpleEvent Unit), envelope wildcardMatches w.entry ev = some env ∧
        ¬ Covers (fun _ _ => False) w.path ev.deviceID := by
  let ev : Event Unit :=
    { kind := .incomingData, deviceID := Vector.replicate 16 9, interface := utf8 "org.example.Door",
      path := utf8 "/open", interfaceMajor := 1, value := (), timestamp := ⟨0⟩ }
  have hrun : ((handleWatch (fun path => path == utf8 "groups/kitchen/*/*")
      groupWatchPayload).toOption.map
        fun w => (w.path, (envelope wildcardMatches w.entry ev).isSome)) =
      some (utf8 "groups" ++ 47 :: utf8 "kitchen/*/*", true) := by decide +kernel
  obtain ⟨w, hw, hresult⟩ := Option.map_eq_some_iff.1 hrun
  rw [Prod.mk.injEq] at hresult
  obtain ⟨env, henv⟩ := Option.isSome_iff_exists.1 hresult.2
  refine ⟨w, toOption_eq_some_iff.1 hw, hresult.1, ev, env, henv, ?_⟩
  rintro (htarget | ⟨group, -, hfalse⟩)
  · rw [hresult.1] at htarget
    exact not_targets_of_groups ev.deviceID _ htarget
  · exact hfalse

end Astrate.Channels
