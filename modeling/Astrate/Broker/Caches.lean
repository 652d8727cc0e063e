import Astrate.Broker.Agreement
import Astrate.GoLib.Refill

/-!
# The broker's caches

`realmPools.Reload` and `deviceSession.refresh` (`internal/broker/authhook.go`) read the store without a
lock and install the result under one. `Reload` reads all realms at once; `refresh` reads the device and
then one interface after the other. Both are refills in the sense of `GoLib.Refill`.

Two calls that overlap can install in the opposite order of their reads, and then the older content
stays (`reload_removes_realm`). `caches_current` is about the schedules where they do not.
-/

set_option autoImplicit false

namespace Astrate.Broker

open Astrate.GoLib
open Astrate.InterfaceSchema (Ownership)
open Astrate.Engine (Introspection InterfaceVersion StoreError)
open Astrate.Store (StoredInterface)

/-! ## Realm pools -/

/-- A row of `realms`, as far as it is read here. -/
structure RealmRow where
  id : Int
  name : Bytes
  caCertificatePEM : Bytes
  deriving DecidableEq

section Pools

variable {χ : Type}

/-- `realmCA`; the pool of a realm holds its certificate alone. -/
structure RealmCA (χ : Type) where
  id : Int
  name : Bytes
  cert : χ
  deriving DecidableEq

/-- The content of `realmPools`: the map and the certificates of the handshake. -/
structure PoolContent (χ : Type) where
  byName : List (Bytes × RealmCA χ)
  clientCAs : List χ
  deriving DecidableEq

/-- `rebuildTLSLocked`. -/
def rebuildTLS (byName : List (Bytes × RealmCA χ)) : PoolContent χ :=
  ⟨byName, byName.map fun e => e.2.cert⟩

/-- One pass of the loop of `Reload`; a realm whose certificate does not parse is skipped. -/
def addRealm (parse : Bytes → Option χ) (byName : List (Bytes × RealmCA χ)) (r : RealmRow) :
    List (Bytes × RealmCA χ) :=
  match parse r.caCertificatePEM with
  | none => byName
  | some cert => mapSet byName r.name ⟨r.id, r.name, cert⟩

def reloadPools (parse : Bytes → Option χ) (realms : List RealmRow) : PoolContent χ :=
  rebuildTLS (realms.foldl (addRealm parse) [])

/-- `realmPools.Reload`: one read of the store, which may fail. -/
def poolFiller (parse : Bytes → Option χ) :
    Filler (Except StoreError (List RealmRow)) (List RealmRow) (PoolContent χ) where
  begin := fun realms => realms.toOption
  ready := fun _ => true
  next := fun _ realms => realms
  result := reloadPools parse

end Pools

/-! ## Sessions -/

/-- What `refresh` reads: the introspection of its device, and interfaces of the realm. -/
structure SessionStore where
  introspection : Except StoreError Introspection
  getInterface : Bytes → Int → Except StoreError StoredInterface

/-- One pass of the loop of `loadOwnership`. -/
def addOwnership (getInterface : Bytes → Int → Except StoreError StoredInterface)
    (ownership : List (Bytes × Ownership)) (e : Bytes × InterfaceVersion) : List (Bytes × Ownership) :=
  match getInterface e.1 e.2.major with
  | .error _ => ownership
  | .ok si => ownership ++ [(e.1, si.ownership)]

/-- `deviceSession.refresh`: the interfaces still to be read and what has been found. -/
def sessionFiller :
    Filler SessionStore (Introspection × List (Bytes × Ownership)) (List (Bytes × Ownership)) where
  begin := fun st => st.introspection.toOption.map fun intro => (intro, [])
  ready := fun seen => seen.1.isEmpty
  next := fun st seen =>
    match seen.1 with
    | [] => seen
    | e :: rest => (rest, addOwnership st.getInterface seen.2 e)
  result := fun seen => seen.2

/-! ## Overlapping calls -/

/-- What `Reload` has seen is one version of the realms. -/
theorem at?_of_seen {χ : Type} {parse : Bytes → Option χ}
    {st : Versions (Except StoreError (List RealmRow))} {v : Nat} {realms : List RealmRow}
    (h : Refill.Seen (poolFiller parse) st v realms) : st.at? v = some (.ok realms) := by
  induction h with
  | @begin store seen hstore h =>
    cases store with
    | error err => cases h
    | ok realms =>
      cases h
      exact hstore
  | next _ _ _ ih => exact ih

/-- In every schedule of commits and calls where no call installs what it read while a call that read
an older store is still on its way, both caches are at least as recent as anything that was installed:
the pools are those of one version of the realms, and the ownership map of a session was read from some
version on. -/
theorem caches_current {χ : Type} (parse : Bytes → Option χ) :
    (∀ {store : Except StoreError (List RealmRow)} {cache : PoolContent χ} {n : Nat}
      {schedule : List (FillStep (Except StoreError (List RealmRow)))}
      {s : Refill (Except StoreError (List RealmRow)) (List RealmRow) (PoolContent χ)},
      exec (Refill.step (poolFiller parse)) (Refill.init store cache n) schedule = some s →
      Throughout (Refill.step (poolFiller parse)) (fun s a => s.inOrder a = true)
        (Refill.init store cache n) schedule →
      ∀ u ∈ s.installs, ∃ v realms, u ≤ v ∧ s.store.at? v = some (.ok realms) ∧
        s.cache = reloadPools parse realms) ∧
    ∀ {store : SessionStore} {cache : List (Bytes × Ownership)} {n : Nat}
      {schedule : List (FillStep SessionStore)}
      {s : Refill SessionStore (Introspection × List (Bytes × Ownership)) (List (Bytes × Ownership))},
      exec (Refill.step sessionFiller) (Refill.init store cache n) schedule = some s →
      Throughout (Refill.step sessionFiller) (fun s a => s.inOrder a = true)
        (Refill.init store cache n) schedule →
      ∀ u ∈ s.installs, ∃ v, u ≤ v ∧ Refill.Corresponds sessionFiller s.store v s.cache := by
  refine ⟨fun hrun hok u hu => ?_, fun hrun hok => Refill.current_of_exec hrun hok⟩
  obtain ⟨v, huv, realms, hseen, -, hcache⟩ := Refill.current_of_exec hrun hok u hu
  exact ⟨v, realms, huv, at?_of_seen hseen, hcache⟩

/-- A realm and its certificate. -/
def acmeRealm : RealmRow := ⟨1, utf8 "acme", utf8 "pem"⟩

/-- Two calls overlap and install in the order of their reads. -/
theorem caches_current_overlap :
    ∃ s, exec (Refill.step (poolFiller some)) (Refill.init (.ok []) ⟨[], []⟩ 2)
        [.begin 0, .commit (.ok [acmeRealm]), .begin 1, .install 0, .install 1] = some s ∧
      s.installs = [0, 1] ∧ s.cache = reloadPools some [acmeRealm] ∧
      ∀ u ∈ s.installs, ∃ v realms, u ≤ v ∧ s.store.at? v = some (.ok realms) ∧
        s.cache = reloadPools some realms := by
  obtain ⟨s, hrun, hinstalls, hcache⟩ : ∃ s, exec (Refill.step (poolFiller some))
      (Refill.init (.ok []) ⟨[], []⟩ 2)
        [.begin 0, .commit (.ok [acmeRealm]), .begin 1, .install 0, .install 1] = some s ∧
      s.installs = [0, 1] ∧ s.cache = reloadPools some [acmeRealm] := ⟨_, rfl, rfl, rfl⟩
  exact ⟨s, hrun, hinstalls, hcache, (caches_current some).1 hrun (by decide +kernel)⟩

/-- The stores of a session before and after its device declares an interface. -/
def emptySession : SessionStore := ⟨.ok [], fun _ _ => .error .notFound⟩

def displaySession : SessionStore where
  introspection := .ok [(utf8 "org.example.Display", ⟨1, 0⟩)]
  getInterface := fun name major =>
    .ok { id := 1, realmID := 1, name := name, major := major, minor := 0, type := .properties,
          ownership := .server, aggregation := .individual, definition := [], endpoints := [] }

/-- An older call installs behind a newer one: a realm that was there is removed again, and an interface
that was known is forgotten. -/
theorem reload_removes_realm :
    (∃ s, exec (Refill.step (poolFiller some)) (Refill.init (.ok []) ⟨[], []⟩ 2)
        [.begin 0, .commit (.ok [acmeRealm]), .begin 1, .install 1, .install 0] = some s ∧
      s.installs = [1, 0] ∧ s.store.current = .ok [acmeRealm] ∧ s.cache = ⟨[], []⟩ ∧
      ∀ v realms, 1 ≤ v → s.store.at? v = some (.ok realms) → s.cache ≠ reloadPools some realms) ∧
    ∃ s, exec (Refill.step sessionFiller) (Refill.init emptySession [] 2)
        [.begin 0, .commit displaySession, .begin 1, .next 1, .install 1, .install 0] = some s ∧
      s.installs = [1, 0] ∧ s.cache = [] ∧
      loadOwnership displaySession.getInterface [(utf8 "org.example.Display", ⟨1, 0⟩)] =
        [(utf8 "org.example.Display", .server)] := by
  refine ⟨⟨_, rfl, rfl, rfl, rfl, fun v realms hv hat => ?_⟩, _, rfl, rfl, rfl, rfl⟩
  rcases v with _ | _ | v
  · omega
  · cases hat
    decide +kernel
  · cases hat

end Astrate.Broker
