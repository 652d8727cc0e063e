import Astrate.Broker.Agreement
import Astrate.GoLib.Schedule

/-!
# Permissions of offline devices

`offlineACL` of `internal/broker/aclhook.go` answers for devices that are not connected, from a cache
with one entry per device. A call that finds no fresh entry puts an empty one in its place, reads the
store without the lock and fills the entry in afterwards. The calls below run for one device, each
through the points between which others can run; the store does not change.

A call that finds the entry of another call reads whatever is in it. If that is before the other call
has filled it in, the answer is that the interface is unknown (`ownershipOf_agrees_iff`).
-/

set_option autoImplicit false

namespace Astrate.Broker

open Astrate.GoLib
open Astrate.InterfaceSchema (Ownership)
open Astrate.Engine (Introspection StoreError)
open Astrate.Store (StoredInterface)

/-- Ten seconds. -/
def offlineACLCacheTTL : Int := 10000000000

/-- What `load` reads: the realms by name, the introspection of a device, and interfaces. -/
structure OfflineStore where
  lookup : Bytes → Option Int
  getDevice : Int → DeviceID → Except StoreError Introspection
  getInterface : Int → Bytes → Int → Except StoreError StoredInterface

/-- `offlineACL.load`. -/
def OfflineStore.load (st : OfflineStore) (cn : Bytes) : List (Bytes × Ownership) :=
  match parseCN cn with
  | .error _ => []
  | .ok identity =>
    match st.lookup identity.realm with
    | none => []
    | some realmID =>
      match st.getDevice realmID identity.deviceID with
      | .error _ => []
      | .ok intro => loadOwnership (st.getInterface realmID) intro

/-- `offlineEntry`. The source has no field `loading`: it says here that the call which made the entry
has not filled it in yet. -/
structure OfflineEntry where
  ownership : List (Bytes × Ownership)
  loadedAt : Int
  loading : Bool
  deriving DecidableEq

/-- Where a call of `ownershipOf` is. Entries are named by the order in which they were made. -/
inductive OwnershipCall where
  /-- Before the lock. -/
  | start (iface : Bytes)
  /-- Behind the lock, with a fresh entry. -/
  | hit (entry : Nat) (iface : Bytes)
  /-- Behind the lock, with an entry of its own. -/
  | claimed (entry : Nat) (iface : Bytes)
  /-- With what the store has given. -/
  | loaded (entry : Nat) (iface : Bytes) (ownership : List (Bytes × Ownership))
  /-- Behind the second lock. -/
  | filled (iface : Bytes) (ownership : List (Bytes × Ownership))
  | returned (iface : Bytes) (result : Option Ownership)
  deriving DecidableEq

/-- The cache and the calls. -/
structure OfflineState where
  entries : List OfflineEntry
  current : Option Nat
  calls : List OwnershipCall

/-- No entry, and a call for each of these interfaces. -/
def OfflineState.init (ifaces : List Bytes) : OfflineState := ⟨[], none, ifaces.map .start⟩

/-- The entry of the device, if it is fresh. -/
def OfflineState.fresh (s : OfflineState) (now : Int) : Option Nat := do
  let e ← s.current
  let entry ← s.entries[e]?
  if now - entry.loadedAt < offlineACLCacheTTL then some e else none

/-- A call goes on. -/
def OfflineState.moveTo (s : OfflineState) (c : Nat) (call : OwnershipCall) : OfflineState :=
  { s with calls := s.calls.set c call }

section

variable (st : OfflineStore) (cn : Bytes)

/-- The next step of a call that is at this point. -/
def ownershipStep (s : OfflineState) (c : Nat) (now : Int) : OwnershipCall → Option OfflineState
  | .start iface =>
    match s.fresh now with
    | some e => some (s.moveTo c (.hit e iface))
    | none =>
      some { entries := s.entries ++ [⟨[], now, true⟩], current := some s.entries.length,
             calls := s.calls.set c (.claimed s.entries.length iface) }
  | .hit e iface =>
    (s.entries[e]?).map fun entry => s.moveTo c (.returned iface (entry.ownership.lookup iface))
  | .claimed e iface => some (s.moveTo c (.loaded e iface (st.load cn)))
  | .loaded e iface ownership =>
    (s.entries[e]?).map fun entry =>
      { s with
        entries := s.entries.set e { entry with ownership := ownership, loading := false }
        calls := s.calls.set c (.filled iface ownership) }
  | .filled iface ownership => some (s.moveTo c (.returned iface (ownership.lookup iface)))
  | .returned _ _ => none

/-- A call takes its next step at some time. -/
def offlineStep (s : OfflineState) (a : Nat × Int) : Option OfflineState :=
  match s.calls[a.1]? with
  | none => none
  | some call => ownershipStep st cn s a.1 a.2 call

/-- A call that reads an entry finds it filled in, or there is nothing to find. -/
def readsFilled (s : OfflineState) (a : Nat × Int) : Bool :=
  match s.calls[a.1]? with
  | some (.hit e iface) =>
    match s.entries[e]? with
    | some entry => !entry.loading || ((st.load cn).lookup iface).isNone
    | none => true
  | _ => true

/-- Entries are empty until they hold what the store has. -/
structure OfflineState.Coherent (s : OfflineState) : Prop where
  entries : ∀ e ∈ s.entries, e.ownership = if e.loading then [] else st.load cn
  loaded : ∀ e iface own, .loaded e iface own ∈ s.calls → own = st.load cn
  filled : ∀ iface own, .filled iface own ∈ s.calls → own = st.load cn

/-- Every answer given so far is the one of the store. -/
def OfflineState.Answered (s : OfflineState) : Prop :=
  ∀ (c : Nat) iface result, s.calls[c]? = some (.returned iface result) →
    result = (st.load cn).lookup iface

variable {st cn} {s s' : OfflineState}

theorem coherent_init (ifaces : List Bytes) : (OfflineState.init ifaces).Coherent st cn := by
  refine ⟨fun e he => (nomatch he), fun e iface own h => ?_, fun iface own h => ?_⟩
  · simp [OfflineState.init] at h
  · simp [OfflineState.init] at h

/-- A call moves to a point that carries nothing else than what the store has. -/
theorem OfflineState.Coherent.moveTo (h : s.Coherent st cn) (c : Nat) (call : OwnershipCall)
    (hloaded : ∀ e iface own, call = .loaded e iface own → own = st.load cn)
    (hfilled : ∀ iface own, call = .filled iface own → own = st.load cn) :
    (s.moveTo c call).Coherent st cn where
  entries := h.entries
  loaded := fun e iface own => of_mem_set (h.loaded e iface own) (hloaded e iface own)
  filled := fun iface own => of_mem_set (h.filled iface own) (hfilled iface own)

/-- Entries may be replaced by coherent ones. -/
theorem OfflineState.Coherent.replace (h : s.Coherent st cn) {entries : List OfflineEntry}
    (hentries : ∀ e ∈ entries, e.ownership = if e.loading then [] else st.load cn)
    (current : Option Nat) : OfflineState.Coherent st cn ⟨entries, current, s.calls⟩ :=
  ⟨hentries, h.loaded, h.filled⟩

theorem coherent_step {a : Nat × Int} (h : s.Coherent st cn) (hstep : offlineStep st cn s a = some s') :
    s'.Coherent st cn := by
  obtain ⟨c, now⟩ := a
  unfold offlineStep at hstep
  cases hcall : s.calls[c]? with
  | none =>
    rw [hcall] at hstep
    cases hstep
  | some call =>
    have hmem := List.mem_of_getElem? hcall
    rw [hcall] at hstep
    cases call with
    | start iface =>
      simp only [ownershipStep] at hstep
      cases hfresh : s.fresh now with
      | some e =>
        rw [hfresh] at hstep
        cases hstep
        exact h.moveTo c _ nofun nofun
      | none =>
        rw [hfresh] at hstep
        cases hstep
        -- The new entry is empty and its load is still to come.
        refine (h.moveTo c (.claimed s.entries.length iface) nofun nofun).replace ?_ _
        exact forall_mem_concat h.entries rfl
    | hit e iface =>
      obtain ⟨entry, -, rfl⟩ := Option.map_eq_some_iff.1 hstep
      exact h.moveTo c _ nofun nofun
    | claimed e iface =>
      cases hstep
      refine h.moveTo c _ (fun _ _ _ heq => ?_) nofun
      cases heq
      rfl
    | loaded e iface own =>
      obtain ⟨entry, hentry, rfl⟩ := Option.map_eq_some_iff.1 hstep
      have hown := h.loaded e iface own hmem
      refine (h.moveTo c (.filled iface own) nofun (fun _ _ heq => ?_)).replace ?_ _
      · cases heq
        exact hown
      · exact forall_mem_set h.entries hown
    | filled iface own =>
      cases hstep
      exact h.moveTo c _ nofun nofun
    | returned iface result => cases hstep

/-- What a step adds to the answers. -/
theorem answered_moveTo {c : Nat} {old call : OwnershipCall} (hold : s.calls[c]? = some old)
    (hreturned : ∀ iface result, old ≠ .returned iface result) :
    (∀ (c' : Nat) iface result, (s.calls.set c call)[c']? = some (.returned iface result) →
        result = (st.load cn).lookup iface) ↔
      s.Answered st cn ∧
        ∀ iface result, call = .returned iface result → result = (st.load cn).lookup iface := by
  have hlt : c < s.calls.length := (List.getElem?_eq_some_iff.1 hold).1
  constructor
  · intro h
    refine ⟨fun c' iface result hc' => ?_, fun iface result heq => ?_⟩
    · have hne : c ≠ c' := by
        rintro rfl
        rw [hold, Option.some.injEq] at hc'
        exact hreturned iface result hc'
      exact h c' iface result (by rw [List.getElem?_set_ne hne]; exact hc')
    · exact h c iface result (by rw [List.getElem?_set_self hlt, heq])
  · rintro ⟨h, hcall⟩ c' iface result hc'
    by_cases hne : c = c'
    · subst hne
      rw [List.getElem?_set_self hlt, Option.some.injEq] at hc'
      exact hcall iface result hc'
    · rw [List.getElem?_set_ne hne] at hc'
      exact h c' iface result hc'

theorem forall_returned {iface : Bytes} {result : Option Ownership} :
    (∀ iface' result', OwnershipCall.returned iface result = .returned iface' result' →
        result' = (st.load cn).lookup iface') ↔ result = (st.load cn).lookup iface := by
  constructor
  · exact fun h => h iface result rfl
  · rintro h iface' result' heq
    cases heq
    exact h

theorem answered_step {a : Nat × Int} (h : s.Coherent st cn) (hstep : offlineStep st cn s a = some s') :
    s'.Answered st cn ↔ s.Answered st cn ∧ readsFilled st cn s a = true := by
  obtain ⟨c, now⟩ := a
  unfold offlineStep at hstep
  unfold readsFilled
  cases hcall : s.calls[c]? with
  | none =>
    rw [hcall] at hstep
    cases hstep
  | some call =>
    have hmem := List.mem_of_getElem? hcall
    rw [hcall] at hstep
    cases call with
    | start iface =>
      simp only [ownershipStep] at hstep
      cases hfresh : s.fresh now with
      | some e =>
        rw [hfresh] at hstep
        cases hstep
        refine (answered_moveTo hcall (fun _ _ => nofun)).trans ?_
        simp
      | none =>
        rw [hfresh] at hstep
        cases hstep
        refine (answered_moveTo hcall (fun _ _ => nofun)).trans ?_
        simp
    | hit e iface =>
      obtain ⟨entry, hentry, rfl⟩ := Option.map_eq_some_iff.1 hstep
      refine (answered_moveTo hcall (fun _ _ => nofun)).trans (and_congr_right fun _ => ?_)
      have hown := h.entries entry (List.mem_of_getElem? hentry)
      rw [forall_returned]
      dsimp only
      rw [hentry]
      dsimp only
      cases hloading : entry.loading with
      | true =>
        rw [hloading, if_pos rfl] at hown
        rw [hown]
        cases (st.load cn).lookup iface with
        | none => simp
        | some own => simp
      | false =>
        rw [hloading, if_neg Bool.false_ne_true] at hown
        rw [hown]
        simp
    | claimed e iface =>
      cases hstep
      refine (answered_moveTo hcall (fun _ _ => nofun)).trans ?_
      simp
    | loaded e iface own =>
      obtain ⟨entry, hentry, rfl⟩ := Option.map_eq_some_iff.1 hstep
      refine (answered_moveTo hcall (fun _ _ => nofun)).trans ?_
      simp
    | filled iface own =>
      cases hstep
      refine (answered_moveTo hcall (fun _ _ => nofun)).trans (and_congr_right fun _ => ?_)
      rw [forall_returned, h.filled iface own hmem]
      simp
    | returned iface result => cases hstep

end

/-- In every interleaving of calls for one device, all answers are those of the store just when no call
reads an entry that is still being loaded, unless the store knows nothing of the interface either. -/
theorem ownershipOf_agrees_iff (st : OfflineStore) (cn : Bytes) (ifaces : List Bytes)
    {schedule : List (Nat × Int)} {s : OfflineState}
    (h : exec (offlineStep st cn) (OfflineState.init ifaces) schedule = some s) :
    (∀ (c : Nat) iface result, s.calls[c]? = some (.returned iface result) →
        result = (st.load cn).lookup iface) ↔
      Throughout (offlineStep st cn) (fun s a => readsFilled st cn s a = true)
        (OfflineState.init ifaces) schedule := by
  have hinit : (OfflineState.init ifaces).Answered st cn := by
    intro c iface result hc
    simp [OfflineState.init] at hc
  have hrun : s.Answered st cn ↔ (OfflineState.init ifaces).Answered st cn ∧
      Throughout (offlineStep st cn) (fun s a => readsFilled st cn s a = true)
        (OfflineState.init ifaces) schedule :=
    exec_good_iff (fun _ _ _ hcoherent hstep => coherent_step hcoherent hstep)
      (fun _ _ _ hcoherent hstep => answered_step hcoherent hstep) (coherent_init ifaces) h
  exact hrun.trans (and_iff_right hinit)

/-- A store with one device that declares one server-owned interface. -/
def displayStore : OfflineStore where
  lookup := fun _ => some 1
  getDevice := fun _ _ => .ok [(utf8 "org.example.Display", ⟨1, 0⟩)]
  getInterface := fun _ name major =>
    .ok { id := 1, realmID := 1, name := name, major := major, minor := 0, type := .properties,
          ownership := .server, aggregation := .individual, definition := [], endpoints := [] }

/-- Two deliveries ask about the display. -/
def displayCalls : OfflineState :=
  OfflineState.init [utf8 "org.example.Display", utf8 "org.example.Display"]

/-- The second call starts while the first one loads and reads when it is done. -/
theorem ownershipOf_agrees_late :
    ∃ s, exec (offlineStep displayStore (utf8 "acme/AAAAAAAAAAAAAAAAAAAAAA")) displayCalls
        [(0, 0), (1, 1), (0, 2), (0, 3), (1, 4), (0, 5)] = some s ∧
      s.calls = [.returned (utf8 "org.example.Display") (some .server),
        .returned (utf8 "org.example.Display") (some .server)] ∧
      ∀ (c : Nat) iface result, s.calls[c]? = some (.returned iface result) →
        result = (displayStore.load (utf8 "acme/AAAAAAAAAAAAAAAAAAAAAA")).lookup iface := by
  obtain ⟨s, hrun, hcalls⟩ : ∃ s, exec (offlineStep displayStore
      (utf8 "acme/AAAAAAAAAAAAAAAAAAAAAA")) displayCalls
        [(0, 0), (1, 1), (0, 2), (0, 3), (1, 4), (0, 5)] = some s ∧
      s.calls = [.returned (utf8 "org.example.Display") (some .server),
        .returned (utf8 "org.example.Display") (some .server)] := ⟨_, rfl, rfl⟩
  exact ⟨s, hrun, hcalls, (ownershipOf_agrees_iff _ _ _ hrun).2 (by decide +kernel)⟩

/-- The second call reads the entry the first one has just made: the display is unknown to it. -/
theorem loading_entry_denies :
    (displayStore.load (utf8 "acme/AAAAAAAAAAAAAAAAAAAAAA")).lookup (utf8 "org.example.Display") =
        some .server ∧
      (exec (offlineStep displayStore (utf8 "acme/AAAAAAAAAAAAAAAAAAAAAA")) displayCalls
        [(0, 0), (1, 1), (1, 2)]).map (fun s => s.calls[1]?) =
          some (some (.returned (utf8 "org.example.Display") none)) ∧
      checkACL (utf8 "acme/AAAAAAAAAAAAAAAAAAAAAA")
        (utf8 "acme/AAAAAAAAAAAAAAAAAAAAAA/org.example.Display/kitchen/north/text") false
        (fun _ => none) = false := by
  refine ⟨by decide +kernel, by decide +kernel, by decide +kernel⟩

end Astrate.Broker
