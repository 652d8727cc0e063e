import Astrate.Broker.Acl
import Astrate.Engine.ObjectPaths

/-!
# The access matrix and the engine

The broker cuts a publish topic at its first slash, the engine looks for a declared interface and then
for an endpoint. Where the engine would take a publish, the broker lets it through, with one
exception: an object-aggregated interface whose endpoints have a single level is published on its bare
name, and there the broker asks for a path (`publish_allowed_iff`).
-/

set_option autoImplicit false

namespace Astrate.Broker

open Astrate.GoLib
open Astrate.InterfaceSchema (Ownership Interface CompiledInterface EndpointIDResolver MappingPtr
  Mapping EndpointSegment parseInterface compile compile_aggregation not_mem_name pathText_of_matchPath
  parseInterface_wellFormed)
open Astrate.Engine (Introspection RealmSchema DeviceState StoreError matchInterface objectPathOK objectPath_cases
  processData finishData matchInterface_eq_some)
open Astrate.Store (StoredInterface)

/-! ## The ownership map -/

section Ownership

variable (getInterface : Bytes → Int → Except StoreError StoredInterface)

/-- `loadOwnership`: interfaces that cannot be read are skipped. -/
def loadOwnership (intro : Introspection) : List (Bytes × Ownership) :=
  intro.filterMap fun e =>
    match getInterface e.1 e.2.major with
    | .error _ => none
    | .ok si => some (e.1, si.ownership)

/-- The store knows the interfaces of the schema. -/
def UpToDate (realm : RealmSchema) : Prop :=
  ∀ name major ci, realm.iface name major = some ci →
    ∃ si, getInterface name major = .ok si ∧ si.ownership = ci.ownership

variable {getInterface}

theorem lookup_loadOwnership {intro : Introspection} {name : Bytes} {ver : Engine.InterfaceVersion}
    {si : StoredInterface} (hdeclared : intro.lookup name = some ver)
    (hget : getInterface name ver.major = .ok si) :
    (loadOwnership getInterface intro).lookup name = some si.ownership := by
  induction intro with
  | nil => cases hdeclared
  | cons e intro ih =>
    obtain ⟨name', ver'⟩ := e
    rw [List.lookup_cons] at hdeclared
    by_cases heq : name = name'
    · subst heq
      simp only [BEq.rfl, Option.some.injEq] at hdeclared
      subst hdeclared
      simp [loadOwnership, hget]
    · rw [beq_false_of_ne heq] at hdeclared
      have hrest := ih hdeclared
      simp only [loadOwnership] at hrest ⊢
      cases hother : getInterface name' ver'.major with
      | error err => simpa [hother] using hrest
      | ok si' => simpa [hother, List.lookup_cons, beq_false_of_ne heq] using hrest

end Ownership

/-! ## What the engine takes -/

/-- A publish that gets as far as the decoder: a declared and installed interface of the device, and a
path that it has. -/
structure Reaches (realm : RealmSchema) (dev : DeviceState) (rest name path : Bytes)
    (ci : CompiledInterface) : Prop where
  found : ∃ ver, matchInterface rest dev.declares = some (name, path, ver) ∧
    realm.iface name ver.major = some ci
  owned : ci.ownership = .device
  path_ok : if ci.aggregation = .object then objectPathOK ci path = true
    else ∃ p, ci.trie.matchPath path = some p

section Depth

variable {data : Bytes} {iface : Interface} {ids : Option EndpointIDResolver}
  {ci : CompiledInterface} (hparse : parseInterface data = .ok iface)
  (hcompile : compile iface ids = .ok ci)

include hparse hcompile

/-- The path of an object publish is empty just when the endpoints have a single level. -/
theorem objectPath_eq_nil_iff {path : Bytes} (hobj : iface.aggregation = .object)
    (h : objectPathOK ci path = true) : path = [] ↔ ¬ ∀ m ∈ iface.mappings, 2 ≤ m.levels.length := by
  have wf := parseInterface_wellFormed hparse
  rcases objectPath_cases hparse hcompile hobj h with ⟨hnil, hpath⟩ | ⟨hne, htext⟩
  · refine iff_of_true hpath fun hall => ?_
    obtain ⟨m, hm⟩ := List.exists_mem_of_ne_nil _ wf.mappings_ne_nil
    have htwo := hall m hm
    rw [wf.levels_concat hobj hm, hnil] at htwo
    simp at htwo
  · obtain ⟨c, r, rfl, -⟩ := htext.rooted
    refine iff_of_false (List.cons_ne_nil _ _) (not_not.2 fun m hm => ?_)
    rw [wf.levels_concat hobj hm, List.length_append, List.length_singleton]
    exact Nat.succ_le_succ (List.length_pos_iff.2 hne)

/-- A path the engine takes starts with a level that is not empty, or it is empty. -/
theorem path_of_reaches {realm : RealmSchema} {dev : DeviceState} {rest name path : Bytes}
    (h : Reaches realm dev rest name path ci) : path = [] ∨ ∃ c r, path = 47 :: c :: r := by
  have hpath := h.path_ok
  by_cases hobj : ci.aggregation = .object
  · rw [if_pos hobj] at hpath
    have hagg : iface.aggregation = .object := (compile_aggregation hcompile).symm.trans hobj
    refine (objectPath_cases hparse hcompile hagg hpath).imp And.right fun htext => ?_
    obtain ⟨c, r, rfl, -⟩ := htext.2.rooted
    exact ⟨c, r, rfl⟩
  · rw [if_neg hobj] at hpath
    obtain ⟨p, hp⟩ := hpath
    obtain ⟨c, r, rfl, -⟩ := (pathText_of_matchPath hparse hcompile hp).rooted
    exact .inr ⟨c, r, rfl⟩

end Depth

/-! ## Publishing -/

/-- A topic the engine would take data from is open to its device just when it has a path, that is
when the interface is not object-aggregated over endpoints of a single level; the topic of an
interface called `capabilities` is open for another reason. -/
theorem publish_allowed_iff {data : Bytes} {iface : Interface} {ids : Option EndpointIDResolver}
    {ci : CompiledInterface} (hparse : parseInterface data = .ok iface)
    (hcompile : compile iface ids = .ok ci) {realm : RealmSchema} {dev : DeviceState}
    {rest path : Bytes} (hreaches : Reaches realm dev rest iface.name path ci)
    {getInterface : Bytes → Int → Except StoreError StoredInterface}
    (hfresh : UpToDate getInterface realm) (i : Identity)
    (hlength : (i.baseTopic ++ 47 :: rest).length ≤ maxTopicBytes) :
    checkACL i.baseTopic (i.baseTopic ++ 47 :: rest) true
        (fun name => (loadOwnership getInterface dev.introspection).lookup name) = true ↔
      (iface.aggregation = .object → ∀ m ∈ iface.mappings, 2 ≤ m.levels.length) ∨
        iface.name = utf8 "capabilities" := by
  have hname : 47 ∉ iface.name :=
    not_mem_name (parseInterface_wellFormed hparse).name_ok (by decide)
  obtain ⟨ver, hmatch, hiface⟩ := hreaches.found
  obtain ⟨hrest, hdeclared, -⟩ := matchInterface_eq_some hmatch
  obtain ⟨si, hget, hown⟩ := hfresh _ _ _ hiface
  have hlookup : (loadOwnership getInterface dev.introspection).lookup iface.name = some .device := by
    rw [lookup_loadOwnership hdeclared hget, hown, hreaches.owned]
  have hagg := compile_aggregation hcompile
  rw [checkACL_write_iff]
  rcases path_of_reaches hparse hcompile hreaches with rfl | ⟨c, r, rfl⟩
  · -- The bare name: only object aggregation has it, and the broker finds no path.
    subst hrest
    have hobj : iface.aggregation = .object := by
      by_contra hne
      have hpath := hreaches.path_ok
      rw [if_neg (hagg ▸ hne)] at hpath
      obtain ⟨p, hp⟩ := hpath
      obtain ⟨c, r, heq, -⟩ := (pathText_of_matchPath hparse hcompile hp).rooted
      cases heq
    have hpath := hreaches.path_ok
    rw [if_pos (hagg.trans hobj)] at hpath
    have hflat := (objectPath_eq_nil_iff hparse hcompile hobj hpath).1 rfl
    refine Iff.trans ?_ (or_iff_right fun hdeep => hflat (hdeep hobj)).symm
    constructor
    · rintro ⟨-, -, htopic | ⟨rest, htopic, hmay⟩⟩
      · simp at htopic
      · obtain rfl : iface.name = rest := by simpa using htopic
        rcases hmay with hword | ⟨name, path, hsplit, -⟩
        · simp only [publishWords, List.mem_cons, List.not_mem_nil, or_false] at hword
          rcases hword with hword | hword | hword
          · exact hword
          · exact absurd (by rw [hword]; decide) hname
          · exact absurd (by rw [hword]; decide) hname
        · exact absurd (by rw [hsplit]; simp) hname
    · intro hword
      refine ⟨by simp, hlength, .inr ⟨_, rfl, .inl ?_⟩⟩
      rw [hword]
      decide
  · subst hrest
    refine iff_of_true ⟨by simp, hlength, .inr ⟨_, rfl, .inr ⟨iface.name, c :: r, rfl, hname,
      List.cons_ne_nil _ _, hlookup⟩⟩⟩ (.inl fun hobj => ?_)
    have hpath := hreaches.path_ok
    rw [if_pos (hagg.trans hobj)] at hpath
    by_contra hflat
    cases (objectPath_eq_nil_iff hparse hcompile hobj hpath).2 hflat

section SoleInterface

variable {ci : CompiledInterface} (h : Engine.Accepted ci)

/-- The store of a realm with one interface. -/
def soleStore (ci : CompiledInterface) (name : Bytes) (major : Int) : Except StoreError StoredInterface :=
  if name = ci.name ∧ major = ci.major then
    .ok { id := 1, realmID := 1, name := ci.name, major := ci.major, minor := ci.minor,
          type := ci.type, ownership := ci.ownership, aggregation := ci.aggregation,
          definition := [], endpoints := [] }
  else .error .notFound

theorem upToDate_sole : UpToDate (soleStore ci) (Engine.soleCatalog h).schema := by
  intro name major ci' hiface
  obtain ⟨hmem, hname, hmajor⟩ := Engine.RealmCatalog.iface_eq_some hiface
  obtain rfl := List.mem_singleton.1 hmem
  exact ⟨_, if_pos ⟨hname.symm, hmajor.symm⟩, rfl⟩

/-- A device that declares the interface and publishes on it. -/
theorem reaches_sole {rest path : Bytes} {intro : Introspection}
    (hmatch : matchInterface rest (fun name => intro.lookup name) =
      some (ci.name, path, ⟨ci.major, ci.minor⟩))
    (howned : ci.ownership = .device)
    (hpath : if ci.aggregation = .object then objectPathOK ci path = true
      else ∃ p, ci.trie.matchPath path = some p) :
    Reaches (Engine.soleCatalog h).schema { introspection := intro, formatHint := .bson } rest ci.name path ci :=
  ⟨⟨_, hmatch, Engine.iface_soleCatalog h⟩, howned, hpath⟩

end SoleInterface

/-- The sensor's unit. -/
theorem publish_allowed_sensor :
    ∃ ci, ∃ h : Engine.Accepted ci,
      Reaches (Engine.soleCatalog h).schema
        { introspection := [(utf8 "org.example.Sensors", ⟨1, 2⟩)], formatHint := .bson }
        (utf8 "org.example.Sensors/4/unit") (utf8 "org.example.Sensors") (utf8 "/4/unit") ci ∧
      checkACL (utf8 "acme/AAAAAAAAAAAAAAAAAAAAAA")
        (utf8 "acme/AAAAAAAAAAAAAAAAAAAAAA/org.example.Sensors/4/unit") true
        (fun name => (loadOwnership (soleStore ci)
          [(utf8 "org.example.Sensors", ⟨1, 2⟩)]).lookup name) = true := by
  have hreaches : Reaches (Engine.soleCatalog Engine.sensor_accepted).schema
      { introspection := [(utf8 "org.example.Sensors", ⟨1, 2⟩)], formatHint := .bson }
      (utf8 "org.example.Sensors/4/unit") (utf8 "org.example.Sensors") (utf8 "/4/unit")
      Engine.sensorCompiled :=
    reaches_sole Engine.sensor_accepted (by decide +kernel) (by decide +kernel) ⟨_, rfl⟩
  have hcompile : compile InterfaceSchema.sensorInterface none = .ok Engine.sensorCompiled := rfl
  refine ⟨_, Engine.sensor_accepted, hreaches, ?_⟩
  exact (publish_allowed_iff InterfaceSchema.parseInterface_sensor hcompile hreaches
    (upToDate_sole Engine.sensor_accepted) ⟨utf8 "acme", Vector.replicate 16 0⟩ (by decide +kernel)).2
      (.inl (by decide))

/-- An object-aggregated datastream over endpoints of a single level. -/
def positionDocument : Bytes :=
  Json.marshal true <| InterfaceSchema.InterfaceJSON.toAny
    { interfaceName := some (utf8 "org.example.Position"), versionMajor := some 1,
      versionMinor := some 0, type := some .datastream, ownership := some .device,
      aggregation := some .object,
      mappings := .ofList [{ endpoint := some (utf8 "/altitude"), type := some .double }] }

def positionInterface : Interface :=
  { name := utf8 "org.example.Position", major := 1, minor := 0, type := .datastream,
    ownership := .device, aggregation := .object,
    mappings := [{ endpoint := utf8 "/altitude", type := .double }] }

def positionCompiled : CompiledInterface := (compile positionInterface none).toOption.get (by decide +kernel)

/-- The engine takes its data on the bare name, and the broker denies the publish. -/
theorem bare_name_denied :
    parseInterface positionDocument = .ok positionInterface ∧
      ∃ ci, ∃ h : Engine.Accepted ci, compile positionInterface none = .ok ci ∧
        Reaches (Engine.soleCatalog h).schema
          { introspection := [(utf8 "org.example.Position", ⟨1, 0⟩)], formatHint := .bson }
          (utf8 "org.example.Position") (utf8 "org.example.Position") [] ci ∧
        UpToDate (soleStore ci) (Engine.soleCatalog h).schema ∧
        checkACL (utf8 "acme/AAAAAAAAAAAAAAAAAAAAAA")
          (utf8 "acme/AAAAAAAAAAAAAAAAAAAAAA/org.example.Position") true
          (fun name => (loadOwnership (soleStore ci)
            [(utf8 "org.example.Position", ⟨1, 0⟩)]).lookup name) = false := by
  have hparse : parseInterface positionDocument = .ok positionInterface := by decide +kernel
  have hcompile : compile positionInterface none = .ok positionCompiled := rfl
  have h : Engine.Accepted positionCompiled := ⟨_, _, _, hparse, hcompile⟩
  have hpath : objectPathOK positionCompiled [] = true := by decide +kernel
  exact ⟨hparse, _, h, hcompile, reaches_sole h (by decide +kernel) rfl hpath, upToDate_sole h,
    by decide +kernel⟩

end Astrate.Broker
