import Astrate.Engine.SchemaCache
import Astrate.GoLib.Chan

/-!
# Notifications of interface changes

`Listen` of `internal/store/notify.go` and `runInvalidation` of `internal/engine/router.go` over the
schema cache: whoever changes the interfaces of a realm sends a notification with the id of the realm
afterwards, the listener passes notifications on as long as its connection stands, and the consumer
reloads the realm of each.

A notification that is sent while the listener has no connection is lost, and so is one that is on its
way when the connection breaks. Nothing is passed on when the listener connects again, so the snapshot
stays behind (`change_during_outage`). Without such a loss it shows every change once the notifications
have been consumed (`snapshot_coherent`).
-/

set_option autoImplicit false

namespace Astrate.Engine

open Astrate.GoLib
open Astrate.Store (StoredInterface)

/-- `strconv.ParseInt(s, 10, 16)`, without its error. -/
def parseInt16 (s : Bytes) : Option Int :=
  match parseInt s with
  | .ok i => if i < -32768 ∨ 32767 < i then none else some i
  | .error _ => none

/-- The payload of `NotifyInterfacesChanged`. -/
def realmPayload (realmID : Int16) : Bytes := formatInt realmID.toInt

theorem parseInt16_realmPayload (realmID : Int16) : parseInt16 (realmPayload realmID) = some realmID.toInt := by
  have hle := realmID.le_toInt
  have hlt := realmID.toInt_lt
  rw [parseInt16, realmPayload, parseInt_formatInt (by omega) (by omega)]
  exact if_neg (by omega)

/-- The cache with the listener and the consumer. `changes` lists the changes so far, each with its realm
and the version of the store that has it. -/
structure Coherence where
  cache : SchemaCache
  changes : List (Int16 × Nat) := []
  /-- The changes whose notification is still to be sent. -/
  pending : List (Int16 × Nat) := []
  /-- The connection of `Listen`, behind `LISTEN`. -/
  listening : Bool := false
  /-- The notifications that the connection has not delivered yet. -/
  wire : List Bytes := []
  /-- The notification in the hands of `Listen`. -/
  held : Option Bytes := none
  out : Chan Bytes := { cap := 16 }
  /-- The reloads of `runInvalidation`, the last one first. -/
  consumed : List Nat := []

/-- A step of the system. -/
inductive CoherenceStep where
  /-- The interfaces of a realm are changed. -/
  | change (realmID : Int16) (store : SchemaStore)
  /-- `NotifyInterfacesChanged`, for the change at this place. -/
  | notify (k : Nat)
  /-- Dial and `LISTEN`. -/
  | connect
  | lose
  /-- `WaitForNotification`. -/
  | receive
  /-- `out <- n`. -/
  | forward
  /-- The consumer takes a notification and starts the reload. -/
  | consume
  /-- Another reload is called, of a realm or of all. -/
  | refresh (realm : Option Int)
  /-- A reload goes on or fails, or something else in the store is changed. -/
  | cache (a : CacheStep)

/-- A reload is called. -/
def SchemaCache.call (s : SchemaCache) (realm : Option Int) : SchemaCache :=
  { s with
    reloads := s.reloads ++ [⟨realm, s.store.number, if realm.isSome then .reloadRealm else .loadAll⟩] }

/-- The reload has returned, with or without an error. -/
def ReloadPoint.isReturned : ReloadPoint → Bool
  | .returned _ => true
  | _ => false

namespace Coherence

/-- The engine starts with `loadAll`, the reload with the number 0. -/
def init (store : SchemaStore) : Coherence := { cache := SchemaCache.init store [none] }

/-- `start` goes on to `Listen` once `loadAll` has returned. -/
def started (s : Coherence) : Bool :=
  match s.cache.reloads[0]? with
  | some r =>
    match r.point with
    | .returned ok => ok
    | _ => false
  | none => false

/-- The consumer waits for a notification. -/
def idle (s : Coherence) : Bool :=
  match s.consumed with
  | [] => true
  | c :: _ => s.cache.reloads[c]?.any fun r => r.point.isReturned

/-- One step, if possible. -/
def step (s : Coherence) : CoherenceStep → Option Coherence
  | .change realmID store =>
    let cache := { s.cache with store := s.cache.store.commit store }
    some { s with
      cache := cache
      changes := s.changes ++ [(realmID, cache.store.number)]
      pending := s.pending ++ [(realmID, cache.store.number)] }
  | .notify k =>
    match s.pending[k]? with
    | none => none
    | some e =>
      some { s with
        pending := s.pending.eraseIdx k
        wire := if s.listening then s.wire ++ [realmPayload e.1] else s.wire }
  | .connect =>
    if s.started && !s.listening && s.held.isNone then some { s with listening := true } else none
  | .lose => if s.listening then some { s with listening := false, wire := [] } else none
  | .receive =>
    match s.listening, s.held, s.wire with
    | true, none, n :: wire => some { s with held := some n, wire := wire }
    | _, _, _ => none
  | .forward =>
    match s.held with
    | none => none
    | some n =>
      match s.out.send n with
      | .sent out => some { s with held := none, out := out }
      | _ => none
  | .consume =>
    match s.out.recv with
    | none => none
    | some r =>
      if s.idle then
        some { s with
          out := r.2
          cache := s.cache.call (parseInt16 r.1)
          consumed := s.cache.reloads.length :: s.consumed }
      else none
  | .refresh realm => some { s with cache := s.cache.call realm }
  | .cache a =>
    match s.cache.step a with
    | none => none
    | some cache => some { s with cache := cache }

/-- No notification gets lost: it is sent while the listener is connected, and the connection does not
break before it was received. -/
def losesNothing (s : Coherence) : CoherenceStep → Bool
  | .notify _ => s.listening
  | .lose => s.wire.isEmpty
  | _ => true

/-- The listener is connected, every change was notified, and every notification that came was consumed
without an error. -/
structure Settled (s : Coherence) : Prop where
  listening : s.listening = true
  pending : s.pending = []
  wire : s.wire = []
  held : s.held = none
  out : s.out.queue = []
  consumed : ∀ c ∈ s.consumed, ∃ r, s.cache.reloads[c]? = some r ∧ r.point = .returned true

end Coherence

/-! ## Calls of reloads -/

namespace SchemaCache

variable {s s' : SchemaCache} {c : Nat} {r : Reload}

theorem getElem?_call {realm : Option Int} (h : (s.call realm).reloads[c]? = some r) :
    s.reloads[c]? = some r ∨ r.began = s.store.number ∧ r.point.holds = false ∧ r.point ≠ .returned true := by
  rcases Nat.lt_or_ge c s.reloads.length with hlt | hge
  · rw [call, List.getElem?_append_left hlt] at h
    exact Or.inl h
  · rw [call, List.getElem?_append_right hge, List.getElem?_singleton] at h
    by_cases hzero : c - s.reloads.length = 0
    · rw [if_pos hzero] at h
      cases h
      refine Or.inr ⟨rfl, ?_⟩
      cases realm with
      | none => exact ⟨rfl, nofun⟩
      | some id => exact ⟨rfl, nofun⟩
    · rw [if_neg hzero] at h
      cases h

theorem Sound.call (h : Sound s) (realm : Option Int) : Sound (s.call realm) := by
  have howed : ∀ id n, (s.call realm).Owed id n → s.Owed id n := by
    rintro id n (hentry | ⟨r, hr, hreturned, hrest⟩)
    · exact Or.inl hentry
    · obtain ⟨c, hc⟩ := List.mem_iff_getElem?.1 hr
      rcases getElem?_call hc with hold | ⟨-, -, hnew⟩
      · exact Or.inr ⟨r, List.mem_of_getElem? hold, hreturned, hrest⟩
      · exact absurd hreturned hnew
  refine ⟨fun r hr => ?_, fun id n hn => h.owed id n (howed id n hn), h.consistent, h.genuine,
    fun c r hr hholds => ?_, fun c r next todo seen hr hpoint => ?_⟩
  · obtain ⟨c, hc⟩ := List.mem_iff_getElem?.1 hr
    rcases getElem?_call hc with hold | ⟨hbegan, -⟩
    · exact h.began r (List.mem_of_getElem? hold)
    · exact Nat.le_of_eq hbegan
  · rcases getElem?_call hr with hold | ⟨-, hnew, -⟩
    · exact h.held c r hold hholds
    · rw [hnew] at hholds
      cases hholds
  · rcases getElem?_call hr with hold | ⟨-, hnew, -⟩
    · exact (h.building c r next todo seen hold hpoint).mono fun id n hn => hn.imp_left (howed id n)
    · rw [hpoint] at hnew
      cases hnew

/-- What a step of a reload leaves of it. -/
theorem run_reloads (h : s.run c r = some s') :
    s'.store = s.store ∧ ∃ r', s'.reloads = s.reloads.set c r' ∧ r'.realm = r.realm ∧
      r'.point ≠ .idle ∧ (r.point ≠ .idle → r'.began = r.began) := by
  unfold SchemaCache.run at h
  rcases hpoint : r.point with _ | _ | _ | _ | ⟨next, _ | ⟨realm, todo⟩, seen⟩ | ok
  · simp only [hpoint] at h
    cases h
    refine ⟨rfl, _, rfl, rfl, ?_, fun hne => absurd rfl hne⟩
    split_ifs
    · exact nofun
    · exact nofun
  · simp only [hpoint] at h
    split at h
    · split at h
      · cases h
        exact ⟨rfl, _, rfl, rfl, nofun, fun _ => rfl⟩
      · cases h
        exact ⟨rfl, _, rfl, rfl, nofun, fun _ => rfl⟩
    · cases h
  · simp only [hpoint] at h
    split at h
    · cases h
      exact ⟨rfl, _, rfl, rfl, nofun, fun _ => rfl⟩
    · cases h
  · simp only [hpoint] at h
    cases h
    exact ⟨rfl, _, rfl, rfl, nofun, fun _ => rfl⟩
  · simp only [hpoint] at h
    cases h
    exact ⟨rfl, _, rfl, rfl, nofun, fun _ => rfl⟩
  · simp only [hpoint] at h
    cases h
    refine ⟨rfl, _, rfl, rfl, ?_, fun _ => rfl⟩
    rw [build.eq_def]
    split
    · exact nofun
    · split_ifs
      · exact nofun
      · exact nofun
  · simp [hpoint] at h

/-- A reload that has begun since version `n`. -/
def Begun (s : SchemaCache) (c : Nat) (id : Int) (n : Nat) : Prop :=
  ∃ r, s.reloads[c]? = some r ∧ r.point ≠ .idle ∧ r.realm = some id ∧ n ≤ r.began

theorem Begun.call {id : Int} {n : Nat} (h : s.Begun c id n) (realm : Option Int) :
    (s.call realm).Begun c id n := by
  obtain ⟨r, hr, hrest⟩ := h
  exact ⟨r, (List.getElem?_append_left (List.getElem?_eq_some_iff.1 hr).1).trans hr, hrest⟩

theorem begun_call (s : SchemaCache) (id : Int) {n : Nat} (hn : n ≤ s.store.number) :
    (s.call (some id)).Begun s.reloads.length id n :=
  ⟨_, List.getElem?_concat_length, nofun, rfl, hn⟩

theorem Begun.step {id : Int} {n : Nat} {a : CacheStep} (h : s.Begun c id n)
    (hstep : s.step a = some s') : s'.Begun c id n := by
  have hset : ∀ {i r₀ r'}, s.reloads[i]? = some r₀ → s'.reloads = s.reloads.set i r' →
      r'.realm = r₀.realm → r'.point ≠ .idle → (r₀.point ≠ .idle → r'.began = r₀.began) →
      s'.Begun c id n := by
    intro i r₀ r' hi hreloads hrealm' hpoint' hbegan
    rw [Begun, hreloads]
    refine exists_getElem?_set hi (fun _ hr₀ => ?_) h
    exact ⟨hpoint', hrealm'.trans hr₀.2.1, (hbegan hr₀.1).symm ▸ hr₀.2.2⟩
  cases a with
  | commit store =>
    cases hstep
    exact h
  | run i =>
    obtain ⟨r₀, hi, hrun⟩ := step_run hstep
    obtain ⟨-, r', hreloads, hrealm', hpoint', hbegan⟩ := run_reloads hrun
    exact hset hi hreloads hrealm' hpoint' hbegan
  | fail i =>
    obtain ⟨r₀, hi, -, rfl⟩ := step_fail hstep
    exact hset hi rfl rfl nofun fun _ => rfl

theorem number_step {a : CacheStep} (hstep : s.step a = some s') : s.store.number ≤ s'.store.number := by
  cases a with
  | commit store =>
    cases hstep
    rw [Versions.number_commit]
    exact Nat.le_succ _
  | run i =>
    obtain ⟨r, -, hrun⟩ := step_run hstep
    rw [(run_reloads hrun).1]
  | fail i =>
    obtain ⟨r, -, -, rfl⟩ := step_fail hstep
    exact Nat.le_refl _

theorem ShowsSince.mono {id : Int} {n m : Nat} (h : s.ShowsSince id n) (hm : m ≤ n) : s.ShowsSince id m := by
  rcases h with ⟨e, v, he, hv, hc⟩ | ⟨hnone, v, store, hv, hrest⟩
  · exact Or.inl ⟨e, v, he, Nat.le_trans hm hv, hc⟩
  · exact Or.inr ⟨hnone, v, store, Nat.le_trans hm hv, hrest⟩

end SchemaCache

/-! ## Coherence -/

namespace Coherence

variable {s s' : Coherence} {a : CoherenceStep}

/-- The change is on its way to the snapshot. -/
def Covered (s : Coherence) (e : Int16 × Nat) : Prop :=
  e ∈ s.pending ∨ realmPayload e.1 ∈ s.wire ++ s.held.toList ++ s.out.queue ∨
    ∃ c ∈ s.consumed, s.cache.Begun c e.1.toInt e.2

/-- What every step keeps. -/
structure Tracked (s : Coherence) : Prop where
  cache : s.cache.Sound
  changes : ∀ e ∈ s.changes, e.2 ≤ s.cache.store.number
  covered : ∀ e ∈ s.changes, s.Covered e

theorem tracked_init (store : SchemaStore) : (init store).Tracked :=
  ⟨SchemaCache.sound_init store [none], nofun, nofun⟩

section

variable (hs : s.Tracked)

include hs

/-- A change of the cache alone. -/
theorem Tracked.setCache {cache : SchemaCache} (hcache : cache.Sound)
    (hnumber : s.cache.store.number ≤ cache.store.number)
    (hbegun : ∀ c id n, s.cache.Begun c id n → cache.Begun c id n) : Tracked { s with cache := cache } where
  cache := hcache
  changes := fun e he => Nat.le_trans (hs.changes e he) hnumber
  covered := by
    intro e he
    rcases hs.covered e he with hpending | hway | ⟨c, hc, hreload⟩
    · exact Or.inl hpending
    · exact Or.inr (Or.inl hway)
    · exact Or.inr (Or.inr ⟨c, hc, hbegun c _ _ hreload⟩)

theorem Tracked.change (realmID : Int16) (store : SchemaStore)
    (hstep : s.step (.change realmID store) = some s') : s'.Tracked := by
  cases hstep
  have hnumber : s.cache.store.number ≤ (s.cache.store.commit store).number := by
    rw [Versions.number_commit]
    exact Nat.le_succ _
  refine ⟨hs.cache.commit store, ?_, fun e he => ?_⟩
  · exact forall_mem_concat (fun e he => Nat.le_trans (hs.changes e he) hnumber) (Nat.le_refl _)
  · rcases List.mem_append.1 he with he | he
    · rcases hs.covered e he with hpending | hway | hreload
      · exact Or.inl (List.mem_append_left _ hpending)
      · exact Or.inr (Or.inl hway)
      · exact Or.inr (Or.inr hreload)
    · exact Or.inl (List.mem_append_right _ he)

/-- A change that is notified goes over to the wire. -/
theorem Tracked.notify {k : Nat} (hlistening : s.listening = true)
    (hstep : s.step (.notify k) = some s') : s'.Tracked := by
  cases hk : s.pending[k]? with
  | none =>
    simp only [step, hk] at hstep
    cases hstep
  | some sent =>
    simp only [step, hk, hlistening, if_true] at hstep
    cases hstep
    refine ⟨hs.cache, hs.changes, fun e he => ?_⟩
    rcases hs.covered e he with hpending | hway | hreload
    · obtain ⟨i, hi⟩ := List.mem_iff_getElem?.1 hpending
      by_cases hik : i = k
      · subst hik
        obtain rfl := Option.some.inj (hk.symm.trans hi)
        exact Or.inr (Or.inl (by simp))
      · exact Or.inl (List.mem_eraseIdx_iff_getElem?.2 ⟨i, hik, hi⟩)
    · refine Or.inr (Or.inl ?_)
      simp only [List.mem_append] at hway ⊢
      rcases hway with (hwire | hheld) | hout
      · exact Or.inl (Or.inl (Or.inl hwire))
      · exact Or.inl (Or.inr hheld)
      · exact Or.inr hout
    · exact Or.inr (Or.inr hreload)

/-- The notifications under way stay the same, wherever they are. -/
theorem Tracked.pass (hcache : s'.cache = s.cache) (hchanges : s'.changes = s.changes)
    (hpending : s'.pending = s.pending) (hconsumed : s'.consumed = s.consumed)
    (hway : ∀ n, n ∈ s.wire ++ s.held.toList ++ s.out.queue → n ∈ s'.wire ++ s'.held.toList ++ s'.out.queue) :
    s'.Tracked where
  cache := hcache ▸ hs.cache
  changes := by
    rw [hchanges, hcache]
    exact hs.changes
  covered := by
    intro e he
    rw [hchanges] at he
    rw [Covered, hpending, hconsumed, hcache]
    rcases hs.covered e he with h | h | h
    · exact Or.inl h
    · exact Or.inr (Or.inl (hway _ h))
    · exact Or.inr (Or.inr h)

theorem Tracked.receive (hstep : s.step .receive = some s') : s'.Tracked := by
  rw [step] at hstep
  split at hstep
  · next n wire hlistening hheld hwire =>
    cases hstep
    refine hs.pass rfl rfl rfl rfl fun m hm => ?_
    simp only [hwire, hheld, Option.toList_none, Option.toList_some, List.mem_append, List.mem_cons,
      List.not_mem_nil, or_false] at hm ⊢
    rcases hm with (rfl | hm) | hm
    · exact Or.inl (Or.inr rfl)
    · exact Or.inl (Or.inl hm)
    · exact Or.inr hm
  · cases hstep

theorem Tracked.forward (hstep : s.step .forward = some s') : s'.Tracked := by
  rw [step] at hstep
  split at hstep
  · cases hstep
  · next n hheld =>
    split at hstep
    · next out hsend =>
      cases hstep
      obtain ⟨-, rfl⟩ := Chan.send_eq_sent hsend
      refine hs.pass rfl rfl rfl rfl fun m hm => ?_
      simp only [hheld, Option.toList_none, Option.toList_some, List.mem_append, List.mem_singleton,
        List.not_mem_nil, or_false] at hm ⊢
      rcases hm with (hm | rfl) | hm
      · exact Or.inl hm
      · exact Or.inr (Or.inr rfl)
      · exact Or.inr (Or.inl hm)
    · cases hstep

/-- The notification that is consumed turns into a reload, which begins after the change. -/
theorem Tracked.consume (hstep : s.step .consume = some s') : s'.Tracked := by
  rw [step] at hstep
  split at hstep
  · cases hstep
  · next r hrecv =>
    split_ifs at hstep
    cases hstep
    obtain ⟨hqueue, -⟩ := Chan.recv_eq_some hrecv
    refine ⟨hs.cache.call _, hs.changes, fun e he => ?_⟩
    rcases hs.covered e he with hpending | hway | ⟨c, hc, hreload⟩
    · exact Or.inl hpending
    · rw [hqueue] at hway
      simp only [List.mem_append, List.mem_cons] at hway
      rcases hway with hway | hnow | hqueued
      · exact Or.inr (Or.inl (List.mem_append_left _ (List.mem_append.2 hway)))
      · refine Or.inr (Or.inr ⟨s.cache.reloads.length, List.mem_cons_self, ?_⟩)
        rw [← hnow, parseInt16_realmPayload]
        exact SchemaCache.begun_call s.cache _ (hs.changes e he)
      · exact Or.inr (Or.inl (List.mem_append_right _ hqueued))
    · exact Or.inr (Or.inr ⟨c, List.mem_cons_of_mem _ hc, hreload.call _⟩)

theorem Tracked.step (hok : s.losesNothing a = true) (hstep : s.step a = some s') : s'.Tracked := by
  cases a with
  | change realmID store => exact hs.change realmID store hstep
  | notify k => exact hs.notify hok hstep
  | connect =>
    rw [Coherence.step] at hstep
    split_ifs at hstep
    cases hstep
    exact hs.pass rfl rfl rfl rfl fun _ => id
  | lose =>
    rw [Coherence.step] at hstep
    split_ifs at hstep
    cases hstep
    -- nothing was on the wire
    have hwire : s.wire = [] := List.isEmpty_iff.1 hok
    refine hs.pass rfl rfl rfl rfl fun m hm => ?_
    rwa [hwire] at hm
  | receive => exact hs.receive hstep
  | forward => exact hs.forward hstep
  | consume => exact hs.consume hstep
  | refresh realm =>
    cases hstep
    exact hs.setCache (hs.cache.call realm) (Nat.le_refl _) fun _ _ _ h => h.call realm
  | cache a =>
    rw [Coherence.step] at hstep
    split at hstep
    · cases hstep
    · next cache hcache =>
      cases hstep
      exact hs.setCache (hs.cache.step hcache) (SchemaCache.number_step hcache)
        fun _ _ _ h => h.step hcache

end

/-- **Coherence.** When no notification gets lost, the snapshot shows every change that was made to a
realm, once the listener is connected and all notifications have been consumed without an error. -/
theorem snapshot_coherent (store : SchemaStore) (schedule : List CoherenceStep) (s : Coherence)
    (hrun : exec step (init store) schedule = some s)
    (hkept : Throughout step (fun s a => s.losesNothing a = true) (init store) schedule)
    (hsettled : s.Settled) (realmID : Int16) (version : Nat) (hchange : (realmID, version) ∈ s.changes) :
    s.cache.ShowsSince realmID.toInt version := by
  have hs : s.Tracked :=
    exec_invariant (fun _ _ _ hs hok hstep => hs.step hok hstep) (tracked_init store) hkept hrun
  rcases hs.covered _ hchange with hpending | hway | ⟨c, hc, r, hr, -, hrealm, hbegan⟩
  · rw [hsettled.pending] at hpending
    cases hpending
  · rw [hsettled.wire, hsettled.held, hsettled.out] at hway
    cases hway
  · obtain ⟨r', hr', hreturned⟩ := hsettled.consumed c hc
    obtain rfl := Option.some.inj (hr.symm.trans hr')
    have hfresh := hs.cache.owed _ _ (Or.inr ⟨r, List.mem_of_getElem? hr, hreturned, hrealm, rfl⟩)
    exact (hs.cache.showsSince hfresh).mono hbegan

/-! ## Changes that are not seen -/

/-- What was read of a realm while its interfaces stayed the same. -/
def readsOf (stored : List StoredInterface) : RealmReads → Prop
  | .rows rows => rows = stored
  | .interfaces found | .triggers found _ | .policies found _ => found = stored.map (withEndpoints stored)

theorem readsOf_of_seen {realm : Int × Bytes} {st : Versions SchemaStore} {v : Nat}
    {stored : List StoredInterface} {reads : RealmReads}
    (hsame : ∀ w store, v ≤ w → st.at? w = some store → store.interfaces realm.1 = stored)
    (h : Refill.Seen (realmFiller realm) st v reads) : readsOf stored reads := by
  induction h with
  | begin hstore h =>
    cases h
    exact hsame v _ (Nat.le_refl v) hstore
  | @next w store reads _ hw hstore ih =>
    cases reads with
    | rows rows =>
      obtain rfl : rows = stored := ih
      change List.map _ _ = _
      rw [hsame w store hw hstore]
    | interfaces found => exact ih
    | triggers found triggers => exact ih
    | policies found triggers => exact ih

theorem interfaces_of_corresponds {realm : Int × Bytes} {st : Versions SchemaStore} {v : Nat}
    {stored : List StoredInterface} {schema : RealmCatalog}
    (hsame : ∀ w store, v ≤ w → st.at? w = some store → store.interfaces realm.1 = stored)
    (h : Refill.Corresponds (realmFiller realm) st v schema) :
    schema.interfaces = (stored.map (withEndpoints stored)).filterMap compileStored := by
  obtain ⟨reads, hseen, hready, rfl⟩ := h
  have hreads := readsOf_of_seen hsame hseen
  cases reads with
  | policies found triggers =>
    obtain rfl : found = _ := hreads
    rfl
  | _ => cases hready

/-- The store of one realm with these interfaces. -/
def acmeWith (stored : List StoredInterface) : SchemaStore where
  realms := [(1, utf8 "acme")]
  interfaces := fun _ => stored
  triggers := fun _ => []
  ids_nodup := List.nodup_singleton _
  names_nodup := List.nodup_singleton _

def acmeInterface : StoredInterface where
  id := 1
  realmID := 1
  name := utf8 "a.B"
  major := 1
  minor := 0
  type := .properties
  ownership := .device
  aggregation := .individual
  definition :=
    utf8 "\x7b\"interface_name\":\"a.B\",\"version_major\":1,\"version_minor\":0,\"type\":\"properties\"," ++
    utf8 "\"ownership\":\"device\",\"mappings\":[\x7b\"endpoint\":\"/a\",\"type\":\"integer\"\x7d]\x7d"
  endpoints := [(utf8 "/a", 1)]

/-- The engine has loaded its snapshot. -/
def acmeLoaded : List CoherenceStep := List.replicate 9 (.cache (.run 0))

/-- An interface is installed while the listener is connected. -/
def installConnected : List CoherenceStep :=
  acmeLoaded ++ [.connect, .change 1 (acmeWith [acmeInterface]), .notify 0, .receive, .forward, .consume] ++
    List.replicate 7 (.cache (.run 1))

theorem snapshot_coherent_acme :
    ∃ s : Coherence, exec step (init (acmeWith [])) installConnected = some s ∧ s.Settled ∧
      s.cache.ShowsSince 1 1 := by
  have hrun : ∃ s, exec step (init (acmeWith [])) installConnected = some s ∧ s.listening = true ∧
      s.pending = [] ∧ s.wire = [] ∧ s.held = none ∧ s.out.queue = [] ∧ s.consumed = [1] ∧
      s.changes = [(1, 1)] ∧ s.cache.reloads[1]? = some ⟨some 1, 1, .returned true⟩ :=
    ⟨_, rfl, rfl, rfl, rfl, rfl, rfl, rfl, rfl, rfl⟩
  obtain ⟨s, hrun, hlistening, hpending, hwire, hheld, hout, hconsumed, hchanges, hreload⟩ := hrun
  have hsettled : s.Settled := by
    refine ⟨hlistening, hpending, hwire, hheld, hout, fun c hc => ?_⟩
    rw [hconsumed, List.mem_singleton] at hc
    subst hc
    exact ⟨_, hreload, rfl⟩
  refine ⟨s, hrun, hsettled, ?_⟩
  exact snapshot_coherent (acmeWith []) installConnected s hrun (by decide +kernel) hsettled 1 1
    (by rw [hchanges]; exact List.mem_singleton_self _)

/-- An interface is installed while the listener is not connected. -/
def installDisconnected : List CoherenceStep :=
  acmeLoaded ++ [.connect, .lose, .change 1 (acmeWith [acmeInterface]), .notify 0, .connect]

/-- The listener is connected again, and nothing is left to be consumed; the snapshot is without the
interface. -/
theorem change_during_outage :
    ∃ s : Coherence, exec step (init (acmeWith [])) installDisconnected = some s ∧ s.Settled ∧
      (1, 1) ∈ s.changes ∧ ¬ s.cache.ShowsSince 1 1 := by
  have hrun : ∃ s e, exec step (init (acmeWith [])) installDisconnected = some s ∧ s.listening = true ∧
      s.pending = [] ∧ s.wire = [] ∧ s.held = none ∧ s.out.queue = [] ∧ s.consumed = [] ∧
      s.changes = [(1, 1)] ∧ s.cache.store = ⟨[acmeWith []], acmeWith [acmeInterface]⟩ ∧
      s.cache.snap.byID.lookup 1 = some e ∧ e.schema.interfaces = [] :=
    ⟨_, _, rfl, rfl, rfl, rfl, rfl, rfl, rfl, rfl, rfl, rfl, rfl⟩
  obtain ⟨s, e, hrun, hlistening, hpending, hwire, hheld, hout, hconsumed, hchanges, hstore, he, hnone⟩ := hrun
  refine ⟨s, hrun, ⟨hlistening, hpending, hwire, hheld, hout, ?_⟩, ?_, ?_⟩
  · rw [hconsumed]
    exact nofun
  · rw [hchanges]
    exact List.mem_singleton_self _
  · rintro (⟨e', v, he', hv, hcorresponds⟩ | ⟨hmissing, -⟩)
    · obtain rfl := Option.some.inj (he.symm.trans he')
      have hsame : ∀ w store, v ≤ w → s.cache.store.at? w = some store →
          store.interfaces 1 = [acmeInterface] := by
        intro w store hw hat
        have hle := Versions.le_number_of_at? hat
        rw [hstore] at hat hle
        obtain rfl : w = 1 := by
          change w ≤ 1 at hle
          omega
        cases hat
        rfl
      have hinterfaces := interfaces_of_corresponds hsame hcorresponds
      obtain ⟨ci, hci⟩ := Option.isSome_iff_exists.1
        (by decide +kernel : (compileStored (withEndpoints [acmeInterface] acmeInterface)).isSome = true)
      rw [hnone, List.map_cons, List.map_nil, List.filterMap_cons_some hci] at hinterfaces
      cases hinterfaces
    · rw [he] at hmissing
      cases hmissing

end Coherence

end Astrate.Engine
