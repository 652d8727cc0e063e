import Astrate.Engine.Shard
import Astrate.InterfaceSchema.Alphabet

/-!
# Routing of data topics

A data publish goes to `<realm>/<device_id>/<interface name><path>`. This module follows such a topic
through `splitDeviceTopic`, `classify` and `matchInterface`. Interface names hold no slash, so the
longest declared prefix is the name itself and nothing is taken for the data of another interface
(`matchInterface_append`). The reserved words are told apart from names by the rest of the topic, all
but one: an interface called `control` has its data taken for control messages
(`data_topic_routed_iff`).
-/

set_option autoImplicit false

namespace Astrate.Engine

open Astrate.GoLib
open Astrate.InterfaceSchema (Interface CompiledInterface EndpointIDResolver MappingPtr parseInterface
  compile interfaceNameOK nameByte not_mem_name interfaceNameOK_ne_nil pathText_of_matchPath
  parseInterface_wellFormed)

/-- The topic `<realm>/<device_id>/<rest>`. -/
def deviceTopic (realm : Bytes) (id : DeviceID) (rest : Bytes) : Bytes :=
  realm ++ 47 :: (id.string ++ 47 :: rest)

/-! ## The root of a device -/

theorem splitDeviceTopic_deviceTopic (realm : Bytes) (id : DeviceID) (rest : Bytes) :
    splitDeviceTopic (deviceTopic realm id rest) realm id = some rest := by
  have hid : id.string.length = deviceIDStringLen := id.length_string
  have hroot : deviceTopic realm id rest = (realm ++ 47 :: id.string) ++ 47 :: rest := by
    simp [deviceTopic]
  have hlength : (realm ++ 47 :: id.string).length = realm.length + 1 + deviceIDStringLen := by
    simp only [List.length_append, List.length_cons, hid]
    omega
  have htake : (deviceTopic realm id rest).take (realm.length + 1 + deviceIDStringLen) =
      realm ++ 47 :: id.string := by
    rw [hroot, ← hlength, List.take_left]
  have hbad : ¬ ((deviceTopic realm id rest).length < realm.length + 1 + deviceIDStringLen ∨
      (deviceTopic realm id rest).take realm.length ≠ realm ∨
      (deviceTopic realm id rest)[realm.length]? ≠ some 47 ∨
      ((deviceTopic realm id rest).take (realm.length + 1 + deviceIDStringLen)).drop
        (realm.length + 1) ≠ id.string) := by
    rw [htake]
    simp only [deviceTopic, List.length_append, List.length_cons, hid, List.take_left, ne_eq,
      List.drop_append, not_true_eq_false, false_or]
    simp
    omega
  have hne : (deviceTopic realm id rest).length ≠ realm.length + 1 + deviceIDStringLen := by
    rw [hroot, List.length_append, hlength, List.length_cons]
    omega
  have hslash : (deviceTopic realm id rest)[realm.length + 1 + deviceIDStringLen]? = some 47 := by
    rw [hroot, ← hlength]
    simp
  unfold splitDeviceTopic
  rw [if_neg hbad, if_neg hne, if_neg (not_not.2 hslash), hroot, ← hlength]
  generalize realm ++ 47 :: id.string = root
  simp [List.drop_append]

/-! ## Reserved words -/

/-- Behind a name the topic goes on, so only the control channel can be mistaken. -/
theorem classify_name {name rest : Bytes} (hname : 47 ∉ name) :
    classify (name ++ 47 :: rest) = if name = utf8 "control" then (.control, rest) else (.data, []) := by
  have hslash : ∀ word : Bytes, 47 ∉ word → name ++ 47 :: rest ≠ word := by
    rintro word hword rfl
    exact hword (by simp)
  unfold classify
  rw [if_neg (hslash [] List.not_mem_nil), if_neg (hslash _ (by decide)), if_neg (hslash _ (by decide))]
  by_cases hcontrol : name = utf8 "control"
  · subst hcontrol
    rfl
  · rw [if_neg hcontrol, if_neg]
    -- The name and `control` are both what precedes the first slash.
    rw [List.isPrefixOf_iff_prefix]
    rintro ⟨tail, htail⟩
    have hcut : cutByte 47 (name ++ 47 :: rest) = some (utf8 "control", tail) := by
      rw [← htail]
      exact (cutByte_eq_some_iff ..).2 ⟨rfl, by decide⟩
    rw [(cutByte_eq_some_iff 47 _ name rest).2 ⟨rfl, hname⟩] at hcut
    exact hcontrol (congrArg Prod.fst (Option.some.inj hcut))

/-! ## The interface of a topic -/

/-- A search that can only stop at one element stops there. -/
theorem findSome?_eq_of_unique {α β : Type} {f : α → Option β} {l : List α} {a : α} (hmem : a ∈ l)
    (h : ∀ b ∈ l, (f b).isSome = true → b = a) : l.findSome? f = f a := by
  induction l with
  | nil => cases hmem
  | cons b bs ih =>
    rw [List.findSome?_cons]
    cases hb : f b with
    | some x =>
      have heq := h b List.mem_cons_self (by rw [hb]; rfl)
      rw [← heq, hb]
    | none =>
      rcases List.mem_cons.1 hmem with rfl | hmem
      · rw [hb]
        rw [List.findSome?_eq_none_iff]
        intro c hc
        by_contra hsome
        have heq := h c (List.mem_cons_of_mem _ hc) (Option.isSome_iff_ne_none.2 hsome)
        rw [heq] at hsome
        exact hsome hb
      · exact ih hmem fun c hc => h c (List.mem_cons_of_mem _ hc)

theorem mem_slashesFromEnd {s : Bytes} {i : Nat} : i ∈ slashesFromEnd s ↔ s[i]? = some 47 := by
  unfold slashesFromEnd
  rw [List.mem_reverse, List.mem_filter, List.mem_range, decide_eq_true_eq]
  refine and_iff_right_of_imp fun h => ?_
  by_contra hlt
  rw [List.getElem?_eq_none (by omega)] at h
  cases h

section MatchInterface

variable {ν : Type} {declares : Bytes → Option ν}

/-- Declared names hold no slash, so the topic is cut at the first one. -/
theorem matchInterface_append (hdeclares : ∀ name, (declares name).isSome = true → 47 ∉ name)
    {name rest : Bytes} (hname : 47 ∉ name) :
    matchInterface (name ++ 47 :: rest) declares = (declares name).map fun v => (name, 47 :: rest, v) := by
  have hstop := findSome?_eq_of_unique
    (f := fun i => (declares ((name ++ 47 :: rest).take i)).map fun v =>
      ((name ++ 47 :: rest).take i, (name ++ 47 :: rest).drop i, v))
    (l := (name ++ 47 :: rest).length :: slashesFromEnd (name ++ 47 :: rest)) (a := name.length) ?_ ?_
  · unfold matchInterface
    rw [hstop]
    simp
  · exact List.mem_cons_of_mem _ (mem_slashesFromEnd.2 (by simp))
  · intro i hi hsome
    rw [Option.isSome_map] at hsome
    have hfree := hdeclares _ hsome
    -- A longer prefix would hold the slash, and before it there is none.
    have hle : i ≤ name.length := by
      by_contra hgt
      apply hfree
      rw [List.take_append, List.take_of_length_le (by omega)]
      obtain ⟨k, hk⟩ : ∃ k, i - name.length = k + 1 := ⟨i - name.length - 1, by omega⟩
      rw [hk, List.take_succ_cons]
      simp
    rcases List.mem_cons.1 hi with rfl | hi
    · simp at hle
    · by_contra hne
      have hlt : i < name.length := by omega
      have hslash := mem_slashesFromEnd.1 hi
      rw [List.getElem?_append_left hlt] at hslash
      exact hname (List.mem_of_getElem? hslash)

/-- A topic that was resolved is the name followed by the path, which is empty or starts with a
slash. -/
theorem matchInterface_eq_some {rest name path : Bytes} {v : ν}
    (h : matchInterface rest declares = some (name, path, v)) :
    rest = name ++ path ∧ declares name = some v ∧ (path = [] ∨ ∃ r, path = 47 :: r) := by
  obtain ⟨i, hi, hv⟩ := List.exists_of_findSome?_eq_some h
  obtain ⟨v', hdeclares, heq⟩ := Option.map_eq_some_iff.1 hv
  obtain ⟨rfl, rfl, rfl⟩ := heq
  refine ⟨(List.take_append_drop i rest).symm, hdeclares, ?_⟩
  rcases List.mem_cons.1 hi with rfl | hi
  · exact .inl (List.drop_length ..)
  · obtain ⟨hlt, hslash⟩ := List.getElem?_eq_some_iff.1 (mem_slashesFromEnd.1 hi)
    right
    rw [List.drop_eq_getElem_cons hlt, hslash]
    exact ⟨_, rfl⟩

end MatchInterface

/-! ## Declared names -/

theorem slash_not_mem_of_parseIntrospectionEntry {entry name : Bytes} {v : InterfaceVersion}
    (h : parseIntrospectionEntry entry = .ok (name, v)) : 47 ∉ name := by
  unfold parseIntrospectionEntry at h
  cases hcut : cutByte 58 entry with
  | none =>
    rw [hcut] at h
    cases h
  | some p =>
    rw [hcut] at h
    dsimp only at h
    split_ifs at h with hnil hmeta
    · cases h
    · cases h
    cases hversions : cutByte 58 p.2 with
    | none =>
      rw [hversions] at h
      cases h
    | some q =>
      rw [hversions] at h
      dsimp only at h
      split at h
      · cases h
      · cases h
      · cases h
        intro hslash
        exact hmeta (List.any_eq_true.2 ⟨47, hslash, by decide⟩)

theorem slash_not_mem_of_parseIntrospectionEntries {entries : List Bytes} :
    ∀ {start intro : Introspection}, parseIntrospectionEntries start entries = .ok intro →
      (∀ name, (start.lookup name).isSome = true → 47 ∉ name) →
      ∀ name, (intro.lookup name).isSome = true → 47 ∉ name := by
  induction entries with
  | nil =>
    intro start intro h hstart
    cases h
    exact hstart
  | cons entry entries ih =>
    intro start intro h hstart
    obtain ⟨⟨name, v⟩, hentry, h⟩ := bind_eq_ok_iff.1 h
    refine ih h fun name' hsome => ?_
    rw [lookup_mapSet] at hsome
    split_ifs at hsome with heq
    · rw [eq_of_beq heq]
      exact slash_not_mem_of_parseIntrospectionEntry hentry
    · exact hstart name' hsome

/-- No name of an accepted introspection holds a slash. -/
theorem slash_not_mem_of_parseIntrospection {text : Bytes} {intro : Introspection}
    (h : parseIntrospection text = .ok intro) : ∀ name, (intro.lookup name).isSome = true → 47 ∉ name := by
  unfold parseIntrospection at h
  split_ifs at h
  · cases h
    exact nofun
  · exact slash_not_mem_of_parseIntrospectionEntries h nofun

/-! ## Data topics -/

/-- The topic of legal data is split, told to be data and attributed to its interface, path and declared
version just when the interface is not called `control`. -/
theorem data_topic_routed_iff {data : Bytes} {iface : Interface} {ids : Option EndpointIDResolver}
    {ci : CompiledInterface} (hparse : parseInterface data = .ok iface)
    (hcompile : compile iface ids = .ok ci) {text : Bytes} {intro : Introspection}
    (hintro : parseIntrospection text = .ok intro) {v : InterfaceVersion}
    (hdeclared : intro.lookup iface.name = some v) {path : Bytes} {p : MappingPtr}
    (hmatch : ci.trie.matchPath path = some p) (realm : Bytes) (id : DeviceID) :
    (∃ rest, splitDeviceTopic (deviceTopic realm id (iface.name ++ path)) realm id = some rest ∧
      (classify rest).1 = .data ∧
      matchInterface rest (fun name => intro.lookup name) = some (iface.name, path, v)) ↔
    iface.name ≠ utf8 "control" := by
  have hname : 47 ∉ iface.name :=
    not_mem_name (parseInterface_wellFormed hparse).name_ok (by decide)
  obtain ⟨c, r, rfl, -⟩ := (pathText_of_matchPath hparse hcompile hmatch).rooted
  have hclass := @classify_name iface.name (c :: r) hname
  constructor
  · rintro ⟨rest, hsplit, hdata, -⟩ hcontrol
    rw [splitDeviceTopic_deviceTopic, Option.some.injEq] at hsplit
    subst hsplit
    rw [show InterfaceSchema.slash = 47 from rfl, hclass, if_pos hcontrol] at hdata
    cases hdata
  · intro hne
    refine ⟨_, splitDeviceTopic_deviceTopic realm id _, ?_, ?_⟩
    · rw [show InterfaceSchema.slash = 47 from rfl, hclass, if_neg hne]
    · rw [show InterfaceSchema.slash = 47 from rfl,
        matchInterface_append (slash_not_mem_of_parseIntrospection hintro) hname, hdeclared]
      rfl

/-- The unit of the sensor of an introspected device. -/
theorem data_topic_routed_sensor :
    ∃ intro rest, parseIntrospection (utf8 "org.example.Sensors:1:2;org.example.Lamp:0:1") = .ok intro ∧
      splitDeviceTopic (deviceTopic (utf8 "acme") (Vector.replicate 16 0)
        (utf8 "org.example.Sensors" ++ utf8 "/4/unit")) (utf8 "acme") (Vector.replicate 16 0) =
          some rest ∧
      (classify rest).1 = .data ∧
      matchInterface rest (fun name => intro.lookup name) =
        some (utf8 "org.example.Sensors", utf8 "/4/unit", ⟨1, 2⟩) := by
  obtain ⟨ci, p, hcompile, hmatch⟩ : ∃ ci p, compile InterfaceSchema.sensorInterface none = .ok ci ∧
      ci.trie.matchPath (utf8 "/4/unit") = some p := ⟨_, _, rfl, rfl⟩
  have hintro : parseIntrospection (utf8 "org.example.Sensors:1:2;org.example.Lamp:0:1") =
      .ok [(utf8 "org.example.Sensors", ⟨1, 2⟩), (utf8 "org.example.Lamp", ⟨0, 1⟩)] := by
    decide +kernel
  have hdeclared : List.lookup InterfaceSchema.sensorInterface.name
      [(utf8 "org.example.Sensors", (⟨1, 2⟩ : InterfaceVersion)), (utf8 "org.example.Lamp", ⟨0, 1⟩)] =
        some ⟨1, 2⟩ := by decide +kernel
  obtain ⟨rest, hrouted⟩ := (data_topic_routed_iff InterfaceSchema.parseInterface_sensor hcompile
    hintro hdeclared hmatch (utf8 "acme") (Vector.replicate 16 0)).2 (by decide)
  exact ⟨_, rest, hintro, hrouted⟩

/-- A device-owned datastream called `control`. -/
def controlDocument : Bytes :=
  Json.marshal true <| InterfaceSchema.InterfaceJSON.toAny
    { interfaceName := some (utf8 "control"), versionMajor := some 1, versionMinor := some 0,
      type := some .datastream, ownership := some .device,
      mappings := .ofList [{ endpoint := some (utf8 "/level"), type := some .integer }] }

def controlInterface : Interface :=
  { name := utf8 "control", major := 1, minor := 0, type := .datastream, ownership := .device,
    aggregation := .individual, mappings := [{ endpoint := utf8 "/level", type := .integer }] }

/-- It is accepted, declared and matched, and its data is taken for a control message. -/
theorem control_data_swallowed :
    parseInterface controlDocument = .ok controlInterface ∧
      parseIntrospection (utf8 "control:1:0") = .ok [(utf8 "control", ⟨1, 0⟩)] ∧
      (∃ ci p, compile controlInterface none = .ok ci ∧
        ci.trie.matchPath (utf8 "/level") = some p) ∧
      (splitDeviceTopic (deviceTopic (utf8 "acme") (Vector.replicate 16 0)
        (utf8 "control" ++ utf8 "/level")) (utf8 "acme") (Vector.replicate 16 0)).map classify =
          some (.control, utf8 "level") := by
  refine ⟨by decide +kernel, by decide +kernel, ⟨_, _, rfl, rfl⟩, by decide +kernel⟩

end Astrate.Engine
