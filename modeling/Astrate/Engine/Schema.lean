import Astrate.Engine.Data
import Astrate.Store.Interfaces

/-!
# Compiled realms

`realmSchema` of `internal/engine/cache.go` with its three ways to find an interface, and the part of
`buildRealm` that compiles the stored definitions. The source keeps two maps that are filled in the
order of the stored rows; here the compiled interfaces are kept in that order, and where two have the
same key the later one is found. `RealmCatalog.schema` is the view the shards have of a realm.
-/

set_option autoImplicit false

namespace Astrate.Store

open Astrate.GoLib

/-- `StoredInterface.ResolveInterface` and `StoredInterface.ResolveEndpoint`. -/
def StoredInterface.resolver (si : StoredInterface) : InterfaceSchema.EndpointIDResolver where
  resolveInterface name major :=
    if name ≠ si.name ∨ major ≠ si.major then
      errorf "store: resolver holds %s v%d, asked for %s v%d"
        [.str si.name, .int si.major, .str name, .int major]
    else .ok si.id
  resolveEndpoint endpoint :=
    match si.endpoints.lookup endpoint with
    | none =>
      errorf "store: interface %s v%d has no endpoint %q" [.str si.name, .int si.major, .str endpoint]
    | some id => .ok id

end Astrate.Store

namespace Astrate.Engine

open Astrate.GoLib
open Astrate.InterfaceSchema (CompiledInterface parseInterface compile)
open Astrate.Store (StoredInterface)

/-- The compiled form of a stored interface; one that does not parse or compile is skipped. -/
def compileStored (si : StoredInterface) : Option CompiledInterface :=
  match parseInterface si.definition with
  | .error _ => none
  | .ok iface =>
    match compile iface (some si.resolver) with
    | .error _ => none
    | .ok ci => some ci

variable {ci : CompiledInterface}

theorem accepted_of_compileStored {si : StoredInterface} (h : compileStored si = some ci) : Accepted ci := by
  unfold compileStored at h
  cases hparse : parseInterface si.definition with
  | error err =>
    rw [hparse] at h
    cases h
  | ok iface =>
    rw [hparse] at h
    dsimp only at h
    cases hcompile : compile iface (some si.resolver) with
    | error err =>
      rw [hcompile] at h
      cases h
    | ok ci' =>
      rw [hcompile] at h
      cases h
      exact ⟨_, _, _, hparse, hcompile⟩

/-- `realmSchema`. -/
structure RealmCatalog where
  id : Int
  name : Bytes
  interfaces : List CompiledInterface
  accepted : ∀ ci ∈ interfaces, Accepted ci
  triggers : List Trigger

/-- `buildRealm` on what it has loaded; the triggers come compiled. -/
def buildRealm (realmID : Int) (name : Bytes) (stored : List StoredInterface)
    (triggers : List Trigger) : RealmCatalog where
  id := realmID
  name := name
  interfaces := stored.filterMap compileStored
  accepted := by
    intro ci hci
    obtain ⟨si, -, h⟩ := List.mem_filterMap.1 hci
    exact accepted_of_compileStored h
  triggers := triggers

namespace RealmCatalog

variable (r : RealmCatalog)

/-- `realmSchema.iface`. -/
def iface (name : Bytes) (major : Int) : Option CompiledInterface :=
  r.interfaces.reverse.find? fun ci => ci.name = name && ci.major = major

/-- `realmSchema.ifaceByID`. -/
def ifaceByID (id : Int) : Option CompiledInterface :=
  r.interfaces.reverse.find? fun ci => ci.id = id

/-- One pass of the loop of `latestIface`. The source goes through one entry per major, in any order;
among rows of one major that entry is the last one. -/
def laterMajor (name : Bytes) (best : Option CompiledInterface) (ci : CompiledInterface) :
    Option CompiledInterface :=
  if ci.name = name then
    match best with
    | none => some ci
    | some b => if ci.major ≥ b.major then some ci else some b
  else best

/-- `realmSchema.latestIface`: the highest major under a name. -/
def latestIface (name : Bytes) : Option CompiledInterface :=
  r.interfaces.foldl (laterMajor name) none

variable {r}

theorem iface_eq_some {name : Bytes} {major : Int}
    (h : r.iface name major = some ci) : ci ∈ r.interfaces ∧ ci.name = name ∧ ci.major = major := by
  have hkey := List.find?_some h
  have hmem := List.mem_of_find?_eq_some h
  rw [List.mem_reverse] at hmem
  rw [Bool.and_eq_true, decide_eq_true_eq, decide_eq_true_eq] at hkey
  exact ⟨hmem, hkey⟩

theorem ifaceByID_eq_some {id : Int} (h : r.ifaceByID id = some ci) : ci ∈ r.interfaces ∧ ci.id = id := by
  have hkey := List.find?_some h
  have hmem := List.mem_of_find?_eq_some h
  rw [List.mem_reverse] at hmem
  rw [decide_eq_true_eq] at hkey
  exact ⟨hmem, hkey⟩

/-- Where ids tell interfaces apart, each is found by its own. -/
theorem ifaceByID_of_mem (hids : (r.interfaces.map fun ci => ci.id).Nodup)
    (hci : ci ∈ r.interfaces) : r.ifaceByID ci.id = some ci := by
  cases hfind : r.ifaceByID ci.id with
  | none =>
    rw [ifaceByID, List.find?_eq_none] at hfind
    exact absurd (decide_eq_true rfl) (hfind ci (List.mem_reverse.2 hci))
  | some ci' =>
    obtain ⟨hmem, hid⟩ := ifaceByID_eq_some hfind
    rw [List.inj_on_of_nodup_map hids hmem hci hid]

theorem laterMajor_eq_some {name : Bytes} {best : Option CompiledInterface} {b : CompiledInterface}
    (h : laterMajor name best ci = some b) : (b = ci ∧ ci.name = name) ∨ best = some b := by
  unfold laterMajor at h
  by_cases hname : ci.name = name
  · rw [if_pos hname] at h
    cases best with
    | none =>
      cases h
      exact .inl ⟨rfl, hname⟩
    | some b' =>
      dsimp only at h
      split_ifs at h
      · cases h
        exact .inl ⟨rfl, hname⟩
      · exact .inr h
  · rw [if_neg hname] at h
    exact .inr h

theorem latestIface_eq_some {name : Bytes}
    (h : r.latestIface name = some ci) : ci ∈ r.interfaces ∧ ci.name = name := by
  -- The candidate so far is always one of the interfaces seen.
  have hfold : ∀ (cis : List CompiledInterface) (best : Option CompiledInterface),
      (∀ b, best = some b → b ∈ r.interfaces ∧ b.name = name) → (∀ c ∈ cis, c ∈ r.interfaces) →
      ∀ c, cis.foldl (laterMajor name) best = some c → c ∈ r.interfaces ∧ c.name = name := by
    intro cis
    induction cis with
    | nil => exact fun best hbest _ c hc => hbest c hc
    | cons d cis ih =>
      intro best hbest hcis c hc
      refine ih _ (fun b hb => ?_) (fun c hc => hcis c (List.mem_cons_of_mem _ hc)) c hc
      rcases laterMajor_eq_some hb with ⟨rfl, hname⟩ | hb
      · exact ⟨hcis _ List.mem_cons_self, hname⟩
      · exact hbest b hb
  exact hfold r.interfaces none nofun (fun c hc => hc) ci h

/-- The interface of a name: of the declared major, or the latest one when that is not installed. -/
def resolve (r : RealmCatalog) (declares : Bytes → Option InterfaceVersion) (name : Bytes) :
    Option CompiledInterface :=
  match (declares name).bind fun v => r.iface name v.major with
  | some ci => some ci
  | none => r.latestIface name

theorem resolve_of_declared {declares : Bytes → Option InterfaceVersion} {name : Bytes}
    {v : InterfaceVersion} (hdeclared : declares name = some v)
    (hiface : r.iface name v.major = some ci) : r.resolve declares name = some ci := by
  rw [resolve, hdeclared, Option.bind_some, hiface]

theorem resolve_eq_some {declares : Bytes → Option InterfaceVersion} {name : Bytes}
    (h : r.resolve declares name = some ci) : ci ∈ r.interfaces ∧ ci.name = name := by
  rw [resolve] at h
  cases hdeclared : (declares name).bind fun v => r.iface name v.major with
  | none =>
    rw [hdeclared] at h
    exact latestIface_eq_some h
  | some ci' =>
    rw [hdeclared] at h
    cases h
    obtain ⟨v, -, hiface⟩ := Option.bind_eq_some_iff.1 hdeclared
    obtain ⟨hmem, hname, -⟩ := iface_eq_some hiface
    exact ⟨hmem, hname⟩

/-- The view of a shard. -/
def schema (r : RealmCatalog) : RealmSchema where
  id := r.id
  name := r.name
  iface := r.iface
  accepted := fun _ _ ci h => r.accepted ci (iface_eq_some h).1
  triggers := r.triggers

end RealmCatalog

/-- A realm with one interface. -/
def soleCatalog {ci : CompiledInterface} (h : Accepted ci) : RealmCatalog where
  id := 1
  name := utf8 "acme"
  interfaces := [ci]
  accepted := by
    intro ci' hci'
    rw [List.mem_singleton] at hci'
    exact hci' ▸ h
  triggers := []

theorem iface_soleCatalog (h : Accepted ci) : (soleCatalog h).iface ci.name ci.major = some ci := by
  simp [soleCatalog, RealmCatalog.iface]

end Astrate.Engine
