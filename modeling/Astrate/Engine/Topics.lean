import Astrate.DeviceID
import Astrate.GoLib.Time

/-!
# Topics

Topic classification of `internal/engine/topics.go`: an inbound topic is `<realm>/<device_id>[/<rest>]`,
and `rest` tells introspection, capabilities, control and data apart. The topic of a data publish is
split by the longest interface name the device declares.
-/

set_option autoImplicit false

namespace Astrate.Engine

open Astrate.GoLib

/-- `broker.InboundMessage`. -/
structure InboundMessage where
  realm : Bytes
  deviceID : DeviceID
  topic : Bytes
  payload : Bytes
  receivedAt : Time
  deriving DecidableEq

/-- The kinds of a topic under the device root. -/
inductive TopicKind where
  | introspection
  | capabilities
  | control
  | data
  deriving DecidableEq, Repr

/-- Sixteen octets in base64. -/
def deviceIDStringLen : Nat := 22

/-- What follows the root `<realm>/<device_id>`, when the topic carries it. -/
def splitDeviceTopic (topic realm : Bytes) (id : DeviceID) : Option Bytes :=
  let root := realm.length + 1 + deviceIDStringLen
  if topic.length < root ∨ topic.take realm.length ≠ realm ∨ topic[realm.length]? ≠ some 47 ∨
      (topic.take root).drop (realm.length + 1) ≠ id.string then none
  else if topic.length = root then some []
  else if topic[root]? ≠ some 47 then none
  else some (topic.drop (root + 1))

def controlRoot : Bytes := utf8 "control/"

/-- The kind of a topic, and the subpath of a control topic. -/
def classify (rest : Bytes) : TopicKind × Bytes :=
  if rest = [] then (.introspection, [])
  else if rest = utf8 "capabilities" then (.capabilities, [])
  else if rest = utf8 "control" then (.control, [])
  else if controlRoot.isPrefixOf rest then (.control, rest.drop controlRoot.length)
  else (.data, [])

/-- A message on a data topic of its device. -/
def InboundMessage.CarriesData (m : InboundMessage) : Prop :=
  ∃ rest, splitDeviceTopic m.topic m.realm m.deviceID = some rest ∧ (classify rest).1 = .data

/-- The positions of the slashes, from the last to the first. -/
def slashesFromEnd (s : Bytes) : List Nat :=
  ((List.range s.length).filter fun i => s[i]? = some 47).reverse

/-- The interface name and path of a data topic: the longest declared name that ends at a slash or at
the end. -/
def matchInterface {ν : Type} (rest : Bytes) (declares : Bytes → Option ν) : Option (Bytes × Bytes × ν) :=
  (rest.length :: slashesFromEnd rest).findSome? fun i =>
    (declares (rest.take i)).map fun v => (rest.take i, rest.drop i, v)

end Astrate.Engine
