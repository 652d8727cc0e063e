import Astrate.Broker.Agreement

/-!
# Delivery of server-owned data

The engine hands values for a device to the broker, which asks the access matrix again before it
delivers them. Topics the engine builds hold no wildcard, and their interface is the one the matrix
looks up. What the engine does not look at is their length: names have up to 128 octets and each of up
to 64 levels may have 256, while the matrix refuses topics above 512 (`delivery_allowed_iff`).
-/

set_option autoImplicit false

namespace Astrate.Broker

open Astrate.GoLib
open Astrate.InterfaceSchema (Ownership CompiledInterface compile_aggregation not_mem_name pathText_of_matchPath)
open Astrate.Engine (Introspection InterfaceVersion RealmCatalog StoreError ServerPorts ServerState
  Sees PathOK deviceTopic publishServerValue unsetServerProperty)
open Astrate.Store (StoredInterface)

/-! ## Topics -/

theorem deviceTopic_eq (i : Identity) (rest : Bytes) :
    deviceTopic i.realm i.deviceID rest = i.baseTopic ++ 47 :: rest := by
  simp [deviceTopic, Identity.baseTopic, Identity.cn]

/-- A path that goes on a topic as it is. -/
structure TopicPath (path : Bytes) : Prop where
  rooted : path = [] ∨ ∃ rest, path = 47 :: rest
  no_plus : 43 ∉ path
  no_hash : 35 ∉ path

theorem topicPath_of_pathText {path : Bytes} (h : InterfaceSchema.PathText path) : TopicPath path := by
  obtain ⟨c, rest, hpath, -⟩ := h.rooted
  exact ⟨.inr ⟨c :: rest, hpath⟩, h.no_plus, h.no_hash⟩

theorem topicPath_of_matchPath {ci : CompiledInterface} (haccepted : Engine.Accepted ci)
    {path : Bytes} {ptr : InterfaceSchema.MappingPtr} (h : ci.trie.matchPath path = some ptr) :
    TopicPath path := by
  obtain ⟨data, iface, ids, hparse, hcompile⟩ := haccepted
  exact topicPath_of_pathText (pathText_of_matchPath hparse hcompile h)

theorem topicPath_of_pathOK {ci : CompiledInterface} (haccepted : Engine.Accepted ci) {path : Bytes}
    (h : PathOK ci path) : TopicPath path := by
  unfold PathOK at h
  by_cases hobj : ci.aggregation = .object
  · rw [if_pos hobj] at h
    obtain ⟨data, iface, ids, hparse, hcompile⟩ := haccepted
    have hagg : iface.aggregation = .object := (compile_aggregation hcompile).symm.trans hobj
    rcases Engine.objectPath_cases hparse hcompile hagg h with ⟨-, rfl⟩ | ⟨-, htext⟩
    · exact ⟨.inl rfl, List.not_mem_nil, List.not_mem_nil⟩
    · exact topicPath_of_pathText htext
  · rw [if_neg hobj] at h
    obtain ⟨ptr, hptr⟩ := h
    exact topicPath_of_matchPath haccepted hptr

/-- The topic of a value of a server-owned interface. -/
theorem data_delivered_iff (i : Identity) {name path : Bytes} (hname : 47 ∉ name)
    (hpath : path = [] ∨ ∃ rest, path = 47 :: rest) {ownership : Bytes → Option Ownership}
    (hown : ownership name = some .server) :
    checkACL i.baseTopic (i.baseTopic ++ 47 :: (name ++ path)) false ownership = true ↔
      (i.baseTopic ++ 47 :: (name ++ path)).length ≤ maxTopicBytes := by
  have hiface : deliveryIface (name ++ path) = name := by
    rcases hpath with rfl | ⟨rest, rfl⟩
    · rw [deliveryIface, List.append_nil, (cutByte_eq_none_iff 47 name).2 hname]
      rfl
    · rw [deliveryIface, (cutByte_eq_some_iff 47 _ name rest).2 ⟨rfl, hname⟩]
      rfl
  rw [checkACL_read_iff]
  refine ⟨And.left, fun hlength => ⟨hlength, _, rfl, .inr (.inr (.inr ?_))⟩⟩
  rw [hiface, hown]

section Topic

variable {i : Identity} (hi : validRealmName i.realm = true)

include hi

/-- A topic below an identity holds a wildcard only where the rest does. -/
theorem not_mem_deviceTopic {c : UInt8} (hc : c = 43 ∨ c = 35) {rest : Bytes} (hrest : c ∉ rest) :
    c ∉ i.baseTopic ++ 47 :: rest := by
  have hbase : c ∉ i.baseTopic := by
    rcases hc with rfl | rfl
    · exact Identity.not_mem_cn hi (by decide) (by decide) (by decide)
    · exact Identity.not_mem_cn hi (by decide) (by decide) (by decide)
  have hslash : c ≠ 47 := by
    rcases hc with rfl | rfl
    · decide
    · decide
  simp [hbase, hslash, hrest]

/-- The list of the server-owned properties is always delivered. -/
theorem list_delivered (ownership : Bytes → Option Ownership) :
    checkACL i.baseTopic (i.baseTopic ++ 47 :: consumerProperties) false ownership = true := by
  have hlength := Identity.length_cn hi
  have hlist : consumerProperties.length = 27 := by decide
  refine checkACL_read_iff.2 ⟨?_, _, rfl, .inr (.inr (.inl rfl))⟩
  simp only [maxRealmNameLen, DeviceID.encodedLen] at hlength
  simp only [Identity.baseTopic, List.length_append, List.length_cons, hlist, maxTopicBytes]
  omega

end Topic

/-! ## Requests -/

/-- A successful request for a server-owned interface the device declares hands the broker topics
without wildcards, and they are all delivered just when the topic of the value is not too long. -/
theorem delivery_allowed_iff {σ : Type} {p : ServerPorts σ} {cn : Bytes} {i : Identity}
    (hcn : parseCN cn = .ok i) {rs : RealmCatalog} {intro : Introspection}
    (hsees : Sees p i.realm i.deviceID rs intro)
    {getInterface : Bytes → Int → Except StoreError StoredInterface}
    (hfresh : UpToDate getInterface rs.schema) {name path : Bytes} {ver : InterfaceVersion}
    {ci : CompiledInterface} (hdeclared : intro.lookup name = some ver)
    (hinstalled : rs.iface name ver.major = some ci) {s s' : ServerState σ}
    (hcall : (∃ value ts,
        publishServerValue p i.realm i.deviceID name path value ts s = (.ok (), s')) ∨
      unsetServerProperty p i.realm i.deviceID name path s = (.ok (), s')) :
    ∃ msgs, s'.handed = s.handed ++ msgs ∧ msgs ≠ [] ∧
      (∀ m ∈ msgs, 43 ∉ m.topic ∧ 35 ∉ m.topic) ∧
      ((∀ m ∈ msgs, checkACL i.baseTopic m.topic false
          (fun n => (loadOwnership getInterface intro).lookup n) = true) ↔
        (i.baseTopic ++ 47 :: (name ++ path)).length ≤ maxTopicBytes) := by
  have hi := validRealmName_of_parseCN hcn
  obtain ⟨hmem, hciname, -⟩ := RealmCatalog.iface_eq_some hinstalled
  have haccepted := rs.accepted ci hmem
  have hresolved : rs.resolve (fun n => intro.lookup n) name = some ci :=
    RealmCatalog.resolve_of_declared hdeclared hinstalled
  have hnameOK : InterfaceSchema.interfaceNameOK name = true := hciname ▸ haccepted.name_ok
  -- What both requests have established about the interface and the path.
  obtain ⟨msgs, hhanded, hne, hserver, hpath, htopics⟩ : ∃ msgs, s'.handed = s.handed ++ msgs ∧
      msgs ≠ [] ∧ ci.ownership = .server ∧ TopicPath path ∧
      (∃ m ∈ msgs, m.topic = i.baseTopic ++ 47 :: (name ++ path)) ∧
      ∀ m ∈ msgs, m.topic = i.baseTopic ++ 47 :: (name ++ path) ∨
        m.topic = i.baseTopic ++ 47 :: consumerProperties := by
    rcases hcall with ⟨value, ts, hpublish⟩ | hunset
    · obtain ⟨⟨ci', hresolve, hown, hpath⟩, m, htopic, hhanded⟩ :=
        hsees.publishServerValue_ok hpublish
      rw [hresolved, Option.some.injEq] at hresolve
      subst hresolve
      rw [deviceTopic_eq] at htopic
      exact ⟨[m], hhanded, List.cons_ne_nil _ _, hown, topicPath_of_pathOK haccepted hpath,
        ⟨m, List.mem_cons_self, htopic⟩, by simp [htopic]⟩
    · obtain ⟨⟨ci', hresolve, hown, ptr, hptr⟩, m, m', htopic, htopic', hhanded⟩ :=
        hsees.unsetServerProperty_ok hunset
      rw [hresolved, Option.some.injEq] at hresolve
      subst hresolve
      rw [deviceTopic_eq] at htopic htopic'
      exact ⟨[m, m'], hhanded, List.cons_ne_nil _ _, hown, topicPath_of_matchPath haccepted hptr,
        ⟨m, List.mem_cons_self, htopic⟩, by simp [htopic, htopic', consumerProperties]⟩
  obtain ⟨⟨m₀, hm₀, htopic₀⟩, htopics⟩ := htopics
  have hown : (loadOwnership getInterface intro).lookup name = some .server := by
    obtain ⟨si, hget, hsi⟩ := hfresh name ver.major ci hinstalled
    rw [lookup_loadOwnership hdeclared hget, hsi, hserver]
  have hplus : 43 ∉ name ++ path := by
    rw [List.mem_append]
    exact not_or.2 ⟨not_mem_name hnameOK (by decide), hpath.no_plus⟩
  have hhash : 35 ∉ name ++ path := by
    rw [List.mem_append]
    exact not_or.2 ⟨not_mem_name hnameOK (by decide), hpath.no_hash⟩
  have hdata : checkACL i.baseTopic (i.baseTopic ++ 47 :: (name ++ path)) false
      (fun n => (loadOwnership getInterface intro).lookup n) = true ↔
        (i.baseTopic ++ 47 :: (name ++ path)).length ≤ maxTopicBytes :=
    data_delivered_iff i (not_mem_name hnameOK (by decide)) hpath.rooted hown
  refine ⟨msgs, hhanded, hne, fun m hm => ?_, ⟨fun hall => ?_, fun hlength m hm => ?_⟩⟩
  · rcases htopics m hm with htopic | htopic
    · rw [htopic]
      exact ⟨not_mem_deviceTopic hi (.inl rfl) hplus, not_mem_deviceTopic hi (.inr rfl) hhash⟩
    · rw [htopic]
      exact ⟨not_mem_deviceTopic hi (.inl rfl) (by decide), not_mem_deviceTopic hi (.inr rfl) (by decide)⟩
  · rw [← hdata, ← htopic₀]
    exact hall m₀ hm₀
  · rcases htopics m hm with htopic | htopic
    · rw [htopic]
      exact hdata.2 hlength
    · rw [htopic]
      exact list_delivered hi _

/-! ## A device with a display -/

def displayDocument : Bytes :=
  Json.marshal true <| InterfaceSchema.InterfaceJSON.toAny
    { interfaceName := some (utf8 "org.example.Display"), versionMajor := some 1,
      versionMinor := some 0, type := some .properties, ownership := some .server,
      mappings := .ofList
        [{ endpoint := some (utf8 "/%\x7broom\x7d/%\x7bwall\x7d/text"), type := some .string,
           allowUnset := some true }] }

def displayInterface : InterfaceSchema.Interface :=
  { name := utf8 "org.example.Display", major := 1, minor := 0, type := .properties,
    ownership := .server, aggregation := .individual,
    mappings :=
      [{ endpoint := utf8 "/%\x7broom\x7d/%\x7bwall\x7d/text", type := .string, allowUnset := true }] }

def displayCompiled : CompiledInterface :=
  (InterfaceSchema.compile displayInterface none).toOption.get (by decide +kernel)

theorem display_accepted : Engine.Accepted displayCompiled := by
  have hparse : InterfaceSchema.parseInterface displayDocument = .ok displayInterface := by
    decide +kernel
  exact ⟨_, _, none, hparse, rfl⟩

/-- The device declares the display; its properties are kept in a list. -/
def displayPorts : Engine.ServerPorts (List Store.Property) where
  drv := Bson.reader
  zlib := Zlib.stored
  compact := some
  now := fun _ => ⟨0⟩
  realmOrReload := fun _ env => (some (Engine.soleCatalog display_accepted), env)
  peek := fun _ _ _ => none
  getDevice := fun _ _ env => (.ok ⟨[(utf8 "org.example.Display", ⟨1, 0⟩)], none⟩, env)
  upsertProperty := fun row env => (.ok (), env ++ [row])
  unsetProperty := fun _ env => (.ok false, env)
  appendDatastreams := fun _ env => (.ok (), env)
  listServerOwnedProperties := fun _ _ env => (.ok env, env)
  publish := fun _ env => (.ok (), env)

theorem display_sees :
    Sees displayPorts (utf8 "acme") (Vector.replicate 16 0) (Engine.soleCatalog display_accepted)
      [(utf8 "org.example.Display", ⟨1, 0⟩)] where
  name := rfl
  schema := fun env rs h => by
    cases h
    rfl
  cached := nofun
  stored := fun env d h => by
    cases h
    rfl

/-- A text for the display on a wall. -/
def showText (path : Bytes) : Except Engine.ServerError Unit × ServerState (List Store.Property) :=
  publishServerValue displayPorts (utf8 "acme") (Vector.replicate 16 0) (utf8 "org.example.Display")
    path (utf8 "\"on\"") none ⟨[], []⟩

theorem delivery_allowed_kitchen :
    (showText (utf8 "/kitchen/north/text")).1.isOk = true ∧
      ∀ m ∈ (showText (utf8 "/kitchen/north/text")).2.handed,
        checkACL (utf8 "acme/AAAAAAAAAAAAAAAAAAAAAA") m.topic false
          (fun n => (loadOwnership (soleStore displayCompiled)
            [(utf8 "org.example.Display", ⟨1, 0⟩)]).lookup n) = true := by
  have hok : (showText (utf8 "/kitchen/north/text")).1.isOk = true := by decide +kernel
  have hcn : parseCN (utf8 "acme/AAAAAAAAAAAAAAAAAAAAAA") =
      .ok ⟨utf8 "acme", Vector.replicate 16 0⟩ := by decide +kernel
  have hrun : showText (utf8 "/kitchen/north/text") = (.ok (), (showText (utf8 "/kitchen/north/text")).2) :=
    Call.eq_of_isOk hok
  obtain ⟨msgs, hhanded, -, -, hallowed⟩ := delivery_allowed_iff hcn display_sees
    (upToDate_sole display_accepted) rfl (Engine.iface_soleCatalog display_accepted) (.inl ⟨_, _, hrun⟩)
  refine ⟨hok, fun m hm => ?_⟩
  rw [hhanded] at hm
  exact hallowed.2 (by decide +kernel) m hm

/-- The display of a room and a wall with long names. -/
def longPath : Bytes :=
  47 :: (List.replicate 250 97 ++ 47 :: (List.replicate 250 98 ++ utf8 "/text"))

/-- Its text is stored and reported as published, and the broker does not deliver it. -/
theorem long_topic_undelivered :
    (showText longPath).1.isOk = true ∧ (showText longPath).2.env.length = 1 ∧
      Sees displayPorts (utf8 "acme") (Vector.replicate 16 0) (Engine.soleCatalog display_accepted)
        [(utf8 "org.example.Display", ⟨1, 0⟩)] ∧
      UpToDate (soleStore displayCompiled) (Engine.soleCatalog display_accepted).schema ∧
      (showText longPath).2.handed.map (fun m => checkACL (utf8 "acme/AAAAAAAAAAAAAAAAAAAAAA") m.topic
        false (fun n => (loadOwnership (soleStore displayCompiled)
          [(utf8 "org.example.Display", ⟨1, 0⟩)]).lookup n)) = [false] := by
  refine ⟨by decide +kernel, by decide +kernel, display_sees, upToDate_sole display_accepted, ?_⟩
  decide +kernel

end Astrate.Broker
