import Astrate.Engine.Schema
import Astrate.GoLib.Refill

/-!
# The schema cache under concurrent reloads

`schemaCache` of `internal/engine/cache.go`: `loadAll` rebuilds the snapshot of all realms, `reloadRealm`
(that is `RefreshInterfaces`) that of one, or of all when it is not known yet. Both read the store and
swap the snapshot while they hold `reloadMu`; the store is changed by others meanwhile, and any of its
reads can fail.

For the sake of the statements every schema carries the number of the version its first read saw, every
snapshot the number of the version its realms were listed at, and every reload that of the version
current when it began. No step depends on them. Whoever holds the lock reads later than whatever is in
the snapshot was read, which is the invariant behind `refresh_visible`.
-/

set_option autoImplicit false

namespace Astrate.Engine

open Astrate.GoLib
open Astrate.Store (StoredInterface)

/-! ## Reading a realm -/

/-- What the cache reads in the database. The id of a realm is its primary key and its name is unique.
Triggers come compiled. -/
structure SchemaStore where
  realms : List (Int × Bytes)
  interfaces : Int → List StoredInterface
  triggers : Int → List Trigger
  ids_nodup : (realms.map Prod.fst).Nodup
  names_nodup : (realms.map Prod.snd).Nodup

/-- What `buildRealm` has read so far. `LoadRealmInterfaces` runs two queries, and the delivery policies
that are read last change nothing of a schema. -/
inductive RealmReads where
  | rows (rows : List StoredInterface)
  | interfaces (stored : List StoredInterface)
  | triggers (stored : List StoredInterface) (triggers : List Trigger)
  | policies (stored : List StoredInterface) (triggers : List Trigger)

/-- The endpoints that are stored under the id of a row by now. -/
def withEndpoints (now : List StoredInterface) (si : StoredInterface) : StoredInterface :=
  match now.find? fun si' => si'.id = si.id with
  | none => { si with endpoints := [] }
  | some si' => { si with endpoints := si'.endpoints }

/-- `buildRealm`, read by read. -/
def realmFiller (realm : Int × Bytes) : Filler SchemaStore RealmReads RealmCatalog where
  begin store := some (.rows (store.interfaces realm.1))
  ready
    | .policies _ _ => true
    | _ => false
  next store
    | .rows rows => .interfaces (rows.map (withEndpoints (store.interfaces realm.1)))
    | .interfaces stored => .triggers stored (store.triggers realm.1)
    | .triggers stored triggers => .policies stored triggers
    | .policies stored triggers => .policies stored triggers
  result
    | .rows stored => buildRealm realm.1 realm.2 stored []
    | .interfaces stored => buildRealm realm.1 realm.2 stored []
    | .triggers stored triggers => buildRealm realm.1 realm.2 stored triggers
    | .policies stored triggers => buildRealm realm.1 realm.2 stored triggers

/-! ## The cache -/

/-- A schema with the version its first read saw. -/
structure CacheEntry where
  schema : RealmCatalog
  since : Nat

/-- `schemaSnapshot`, with the version its realms were listed at. -/
structure SchemaSnapshot where
  byID : List (Int × CacheEntry) := []
  byName : List (Bytes × CacheEntry) := []
  listed : Option Nat := none

/-- `next.byID[rs.id] = rs` and `next.byName[rs.name] = rs`. -/
def SchemaSnapshot.put (next : SchemaSnapshot) (e : CacheEntry) : SchemaSnapshot :=
  { next with byID := mapSet next.byID e.schema.id e, byName := mapSet next.byName e.schema.name e }

/-- Where a reload is. -/
inductive ReloadPoint where
  | idle
  /-- Before the lock of `reloadRealm`. -/
  | reloadRealm
  /-- Before the lock of `loadAll`. -/
  | loadAll
  /-- In `loadAll`, before `ListRealms`. -/
  | listRealms
  /-- Holding the lock, with the next snapshot so far, the realms still to be put into it and what has
  been read of the first of them. -/
  | building (next : SchemaSnapshot) (todo : List (Int × Bytes)) (seen : Option (Nat × RealmReads))
  | returned (ok : Bool)

/-- `reloadMu` is held. -/
def ReloadPoint.holds : ReloadPoint → Bool
  | .listRealms | .building _ _ _ => true
  | _ => false

/-- The next step reads the store. -/
def ReloadPoint.reads : ReloadPoint → Bool
  | .listRealms => true
  | .building _ (_ :: _) none => true
  | .building _ (realm :: _) (some (_, reads)) => !(realmFiller realm).ready reads
  | _ => false

/-- A call of `reloadRealm`, or of `loadAll` when no realm is given. -/
structure Reload where
  realm : Option Int
  began : Nat := 0
  point : ReloadPoint := .idle

/-- The store, the snapshot and the reloads. -/
structure SchemaCache where
  store : Versions SchemaStore
  snap : SchemaSnapshot
  reloadMu : Option Nat
  reloads : List Reload

/-- A step of the system. -/
inductive CacheStep where
  /-- A mutation of the store is committed. -/
  | commit (store : SchemaStore)
  /-- A reload begins or goes on. -/
  | run (c : Nat)
  /-- The read a reload is about to make fails. -/
  | fail (c : Nat)

namespace SchemaCache

/-- `newSchemaCache`, with the reloads to come. -/
def init (store : SchemaStore) (realms : List (Option Int)) : SchemaCache :=
  ⟨⟨[], store⟩, {}, none, realms.map fun realm => ⟨realm, 0, .idle⟩⟩

/-- A reload goes on to another point, and the lock with it. -/
def move (s : SchemaCache) (c : Nat) (r : Reload) (reloadMu : Option Nat) : SchemaCache :=
  { s with reloadMu := reloadMu, reloads := s.reloads.set c r }

/-- One realm of the loop of `loadAll`, or the realm of `reloadRealm`: its next read, or the end of
`buildRealm`. -/
def build (s : SchemaCache) (next : SchemaSnapshot) (realm : Int × Bytes) (todo : List (Int × Bytes)) :
    Option (Nat × RealmReads) → ReloadPoint
  | none => .building next (realm :: todo) (some (s.store.number, .rows (s.store.current.interfaces realm.1)))
  | some (v, reads) =>
    if (realmFiller realm).ready reads then
      .building (next.put ⟨(realmFiller realm).result reads, v⟩) todo none
    else .building next (realm :: todo) (some (v, (realmFiller realm).next s.store.current reads))

/-- What a reload does next. -/
def run (s : SchemaCache) (c : Nat) (r : Reload) : Option SchemaCache :=
  match r.point with
  | .idle =>
    let point := if r.realm.isSome then .reloadRealm else .loadAll
    some (s.move c { r with began := s.store.number, point := point } s.reloadMu)
  | .reloadRealm =>
    match s.reloadMu, r.realm with
    | none, some id =>
      match s.snap.byID.lookup id with
      -- An unknown realm: the lock is given back and taken anew.
      | none => some (s.move c { r with point := .loadAll } none)
      | some old =>
        some (s.move c { r with point := .building s.snap [(id, old.schema.name)] none } (some c))
    | _, _ => none
  | .loadAll =>
    match s.reloadMu with
    | none => some (s.move c { r with point := .listRealms } (some c))
    | some _ => none
  | .listRealms =>
    let next := { listed := some s.store.number }
    some (s.move c { r with point := .building next s.store.current.realms none } s.reloadMu)
  | .building next [] _ =>
    some { s.move c { r with point := .returned true } none with snap := next }
  | .building next (realm :: todo) seen =>
    some (s.move c { r with point := s.build next realm todo seen } s.reloadMu)
  | .returned _ => none

/-- One step, if possible. -/
def step (s : SchemaCache) : CacheStep → Option SchemaCache
  | .commit store => some { s with store := s.store.commit store }
  | .run c =>
    match s.reloads[c]? with
    | none => none
    | some r => s.run c r
  | .fail c =>
    match s.reloads[c]? with
    | none => none
    | some r =>
      if r.point.reads then some (s.move c { r with point := .returned false } none) else none

end SchemaCache

/-! ## What a snapshot says -/

namespace SchemaSnapshot

/-- Both maps hold the same schemas, each under its own id and its own name. -/
structure Consistent (snap : SchemaSnapshot) : Prop where
  byID : ∀ id e, snap.byID.lookup id = some e →
    e.schema.id = id ∧ snap.byName.lookup e.schema.name = some e
  byName : ∀ name e, snap.byName.lookup name = some e →
    e.schema.name = name ∧ snap.byID.lookup e.schema.id = some e

/-- What the snapshot says about a realm is not older than a version: its schema was read from there on,
or it is missing since a listing from there on. -/
def Fresh (snap : SchemaSnapshot) (id : Int) (n : Nat) : Prop :=
  (∃ e, snap.byID.lookup id = some e ∧ n ≤ e.since) ∨
    (snap.byID.lookup id = none ∧ ∃ v, snap.listed = some v ∧ n ≤ v)

/-- The stamps of the snapshot tell the truth, up to the realms that are still to come. -/
structure Genuine (st : Versions SchemaStore) (todo : List (Int × Bytes)) (snap : SchemaSnapshot) :
    Prop where
  entry : ∀ id e, snap.byID.lookup id = some e →
    Refill.Corresponds (realmFiller (e.schema.id, e.schema.name)) st e.since e.schema
  listing : ∀ v, snap.listed = some v → ∃ store, st.at? v = some store ∧
    ∀ realm ∈ store.realms, realm.1 ∈ todo.map Prod.fst ∨ snap.byID.lookup realm.1 ≠ none

variable {snap : SchemaSnapshot} {st : Versions SchemaStore} {todo : List (Int × Bytes)}

theorem lookup_put (snap : SchemaSnapshot) (e : CacheEntry) (id : Int) :
    (snap.put e).byID.lookup id = if id = e.schema.id then some e else snap.byID.lookup id := by
  rw [put, lookup_mapSet]
  simp only [beq_iff_eq]

theorem lookup_byName_put (snap : SchemaSnapshot) (e : CacheEntry) (name : Bytes) :
    (snap.put e).byName.lookup name = if name = e.schema.name then some e else snap.byName.lookup name := by
  rw [put, lookup_mapSet]
  simp only [beq_iff_eq]

/-- A schema whose id and name belong together takes the place of one with both, or of none. -/
theorem Consistent.put (h : snap.Consistent) {e : CacheEntry}
    (hkeys : ∀ e', snap.byID.lookup e'.schema.id = some e' →
      (e.schema.id = e'.schema.id ↔ e.schema.name = e'.schema.name)) :
    (snap.put e).Consistent where
  byID := by
    intro id e' he'
    rw [lookup_put] at he'
    rw [lookup_byName_put]
    split_ifs at he' with hid
    · cases he'
      exact ⟨hid.symm, if_pos rfl⟩
    · obtain ⟨rfl, hname⟩ := h.byID id e' he'
      refine ⟨rfl, ?_⟩
      rw [if_neg fun heq => hid ((hkeys e' he').2 heq.symm).symm]
      exact hname
  byName := by
    intro name e' he'
    rw [lookup_byName_put] at he'
    rw [lookup_put]
    split_ifs at he' with hname
    · cases he'
      exact ⟨hname.symm, if_pos rfl⟩
    · obtain ⟨rfl, hid⟩ := h.byName name e' he'
      refine ⟨rfl, ?_⟩
      rw [if_neg fun heq => hname ((hkeys e' hid).1 heq.symm).symm]
      exact hid

theorem Genuine.commit (h : snap.Genuine st todo) (store : SchemaStore) :
    snap.Genuine (st.commit store) todo where
  entry := fun id e he => (h.entry id e he).commit store
  listing := fun v hv => by
    obtain ⟨old, hold, hrealms⟩ := h.listing v hv
    exact ⟨old, Versions.at?_commit hold store, hrealms⟩

/-- No stamp is ahead of the store. -/
theorem Genuine.le_number (h : snap.Genuine st todo) {id : Int} {n : Nat} (hn : snap.Fresh id n) :
    n ≤ st.number := by
  rcases hn with ⟨e, he, hn⟩ | ⟨-, v, hv, hn⟩
  · obtain ⟨reads, hreads, -⟩ := h.entry id e he
    exact Nat.le_trans hn hreads.le_number
  · obtain ⟨store, hstore, -⟩ := h.listing v hv
    exact Nat.le_trans hn (Versions.le_number_of_at? hstore)

end SchemaSnapshot

theorem result_id (realm : Int × Bytes) (reads : RealmReads) :
    ((realmFiller realm).result reads).id = realm.1 := by
  cases reads <;> rfl

theorem result_name (realm : Int × Bytes) (reads : RealmReads) :
    ((realmFiller realm).result reads).name = realm.2 := by
  cases reads <;> rfl

/-! ## The lock holder -/

/-- What a reload with the lock has built, where `owes id n` says that version `n` of realm `id` has to
be in the snapshot it will swap in. -/
structure Building (st : Versions SchemaStore) (owes : Int → Nat → Prop) (next : SchemaSnapshot)
    (todo : List (Int × Bytes)) (seen : Option (Nat × RealmReads)) : Prop where
  consistent : next.Consistent
  keys : ∀ p ∈ todo, ∀ q ∈ todo, p.1 = q.1 ↔ p.2 = q.2
  fits : ∀ p ∈ todo, ∀ e, next.byID.lookup e.schema.id = some e →
    (p.1 = e.schema.id ↔ p.2 = e.schema.name)
  genuine : next.Genuine st todo
  settled : ∀ id n, owes id n → id ∈ todo.map Prod.fst ∨ next.Fresh id n
  reads : ∀ v reads, seen = some (v, reads) → (∀ id n, owes id n → n ≤ v) ∧
    ∃ p, todo.head? = some p ∧ Refill.Seen (realmFiller p) st v reads

namespace Building

variable {st : Versions SchemaStore} {owes : Int → Nat → Prop} {next : SchemaSnapshot}
  {realm : Int × Bytes} {todo : List (Int × Bytes)} {seen : Option (Nat × RealmReads)}

theorem mono {owes' : Int → Nat → Prop} (h : Building st owes next todo seen)
    (howes : ∀ id n, owes' id n → owes id n) : Building st owes' next todo seen where
  consistent := h.consistent
  keys := h.keys
  fits := h.fits
  genuine := h.genuine
  settled := fun id n hn => h.settled id n (howes id n hn)
  reads := fun v reads hseen =>
    ⟨fun id n hn => (h.reads v reads hseen).1 id n (howes id n hn), (h.reads v reads hseen).2⟩

theorem commit (h : Building st owes next todo seen) (store : SchemaStore) :
    Building (st.commit store) owes next todo seen where
  consistent := h.consistent
  keys := h.keys
  fits := h.fits
  genuine := h.genuine.commit store
  settled := h.settled
  reads := fun v reads hseen => by
    obtain ⟨hv, p, hp, hreads⟩ := h.reads v reads hseen
    exact ⟨hv, p, hp, hreads.commit store⟩

/-- Another read changes nothing of what was built. -/
theorem read (h : Building st owes next todo seen) {v : Nat} {reads : RealmReads}
    (hv : ∀ id n, owes id n → n ≤ v) {p : Int × Bytes} (hp : todo.head? = some p)
    (hreads : Refill.Seen (realmFiller p) st v reads) : Building st owes next todo (some (v, reads)) where
  consistent := h.consistent
  keys := h.keys
  fits := h.fits
  genuine := h.genuine
  settled := h.settled
  reads := fun _ _ heq => by
    cases heq
    exact ⟨hv, p, hp, hreads⟩

/-- The end of `buildRealm`: what was read is not older than anything owed. -/
theorem put {v : Nat} {reads : RealmReads} (h : Building st owes next (realm :: todo) (some (v, reads)))
    (hready : (realmFiller realm).ready reads = true) :
    Building st owes (next.put ⟨(realmFiller realm).result reads, v⟩) todo none := by
  obtain ⟨hv, p, hp, hreads⟩ := h.reads v reads rfl
  rw [List.head?_cons, Option.some.injEq] at hp
  subst hp
  have hid := result_id realm reads
  have hname := result_name realm reads
  refine ⟨h.consistent.put fun e' he' => ?_, fun p hp q hq => ?_, fun p hp e' he' => ?_,
    ⟨fun id e' he' => ?_, fun w hw => ?_⟩, fun id n hn => ?_, fun _ _ heq => (nomatch heq)⟩
  · rw [hid, hname]
    exact h.fits realm List.mem_cons_self e' he'
  · exact h.keys p (List.mem_cons_of_mem _ hp) q (List.mem_cons_of_mem _ hq)
  · rw [SchemaSnapshot.lookup_put] at he'
    split_ifs at he' with heq
    · cases he'
      rw [hid, hname]
      exact h.keys p (List.mem_cons_of_mem _ hp) realm List.mem_cons_self
    · exact h.fits p (List.mem_cons_of_mem _ hp) e' he'
  · rw [SchemaSnapshot.lookup_put] at he'
    split_ifs at he' with heq
    · cases he'
      rw [hid, hname]
      exact ⟨reads, hreads, hready, rfl⟩
    · exact h.genuine.entry id e' he'
  · obtain ⟨store, hstore, hrealms⟩ := h.genuine.listing w hw
    refine ⟨store, hstore, fun p hp => ?_⟩
    rw [SchemaSnapshot.lookup_put]
    split_ifs with heq
    · exact .inr (Option.some_ne_none _)
    · rcases hrealms p hp with hmem | hsome
      · rw [List.map_cons, List.mem_cons] at hmem
        exact .inl (hmem.resolve_left fun h => heq (h.trans hid.symm))
      · exact .inr hsome
  · -- The realm itself has just been read; the others stand as they were.
    by_cases hrealm : id = realm.1
    · refine .inr (.inl ⟨⟨(realmFiller realm).result reads, v⟩, ?_, hv id n hn⟩)
      rw [SchemaSnapshot.lookup_put]
      exact if_pos (hrealm.trans hid.symm)
    · rcases h.settled id n hn with hmem | hfresh
      · rw [List.map_cons, List.mem_cons] at hmem
        exact .inl (hmem.resolve_left hrealm)
      · refine .inr ?_
        rw [SchemaSnapshot.Fresh, SchemaSnapshot.lookup_put, if_neg fun heq => hrealm (heq.trans hid)]
        exact hfresh

end Building

/-! ## The invariant -/

namespace SchemaCache

/-- The snapshot has to be at least as recent about a realm as it was, and as a refresh of the realm
that has returned. -/
def Owed (s : SchemaCache) (id : Int) (n : Nat) : Prop :=
  (∃ e, s.snap.byID.lookup id = some e ∧ n = e.since) ∨
    ∃ r ∈ s.reloads, r.point = .returned true ∧ r.realm = some id ∧ n = r.began

/-- The holder of the lock also owes what it was called for. -/
def OwedBy (s : SchemaCache) (r : Reload) (id : Int) (n : Nat) : Prop :=
  s.Owed id n ∨ (r.realm = some id ∧ n = r.began)

/-- What every step keeps. -/
structure Sound (s : SchemaCache) : Prop where
  began : ∀ r ∈ s.reloads, r.began ≤ s.store.number
  owed : ∀ id n, s.Owed id n → s.snap.Fresh id n
  consistent : s.snap.Consistent
  genuine : s.snap.Genuine s.store []
  held : ∀ (c : Nat) r, s.reloads[c]? = some r → r.point.holds = true → s.reloadMu = some c
  building : ∀ (c : Nat) r next todo seen, s.reloads[c]? = some r →
    r.point = .building next todo seen → Building s.store (s.OwedBy r) next todo seen

variable {s s' : SchemaCache}

theorem sound_init (store : SchemaStore) (realms : List (Option Int)) : Sound (init store realms) := by
  have hidle : ∀ r ∈ (init store realms).reloads, r.began = 0 ∧ r.point = .idle := by
    intro r hr
    obtain ⟨realm, -, rfl⟩ := List.mem_map.1 hr
    exact ⟨rfl, rfl⟩
  refine ⟨fun r hr => ?_, fun id n hn => ?_, ⟨fun _ _ h => (nomatch h), fun _ _ h => (nomatch h)⟩,
    ⟨fun _ _ h => (nomatch h), fun _ h => (nomatch h)⟩, fun c r hr hholds => ?_,
    fun c r next todo seen hr hpoint => ?_⟩
  · rw [(hidle r hr).1]
    exact Nat.zero_le _
  · rcases hn with ⟨e, he, -⟩ | ⟨r, hr, hpoint, -⟩
    · cases he
    · rw [(hidle r hr).2] at hpoint
      cases hpoint
  · rw [(hidle r (List.mem_of_getElem? hr)).2] at hholds
    cases hholds
  · rw [(hidle r (List.mem_of_getElem? hr)).2] at hpoint
    cases hpoint

theorem step_run {c : Nat} (h : s.step (.run c) = some s') :
    ∃ r, s.reloads[c]? = some r ∧ s.run c r = some s' := by
  rw [step] at h
  split at h
  · cases h
  · next r hr => exact ⟨r, hr, h⟩

theorem step_fail {c : Nat} (h : s.step (.fail c) = some s') :
    ∃ r, s.reloads[c]? = some r ∧ r.point.reads = true ∧ s' = s.move c { r with point := .returned false } none := by
  rw [step] at h
  split at h
  · cases h
  · next r hr =>
    split_ifs at h with hreads
    cases h
    exact ⟨r, hr, hreads, rfl⟩

namespace Sound

theorem le_number (h : Sound s) {r : Reload} (hr : r.began ≤ s.store.number) {id : Int} {n : Nat}
    (hn : s.OwedBy r id n) : n ≤ s.store.number := by
  rcases hn with hn | ⟨-, rfl⟩
  · exact h.genuine.le_number (h.owed id n hn)
  · exact hr

theorem commit (h : Sound s) (store : SchemaStore) : Sound { s with store := s.store.commit store } where
  began := fun r hr => by
    rw [Versions.number_commit]
    exact Nat.le_succ_of_le (h.began r hr)
  owed := h.owed
  consistent := h.consistent
  genuine := h.genuine.commit store
  held := h.held
  building := fun c r next todo seen hr hpoint => (h.building c r next todo seen hr hpoint).commit store

section

variable {c : Nat} {r r' : Reload}

/-- A reload moves on without a swap. -/
theorem move (h : Sound s) {reloadMu : Option Nat} (hpoint : r'.point ≠ .returned true)
    (hbegan : r'.began ≤ s.store.number)
    (hmu : ∀ c', c ≠ c' → s.reloadMu = some c' → reloadMu = some c')
    (hheld : r'.point.holds = true → reloadMu = some c)
    (hbuilding : ∀ next todo seen, r'.point = .building next todo seen →
      Building s.store (s.OwedBy r') next todo seen) : Sound (s.move c r' reloadMu) := by
  have howed : ∀ id n, (s.move c r' reloadMu).Owed id n → s.Owed id n := by
    rintro id n (hentry | ⟨r₀, hr₀, hreturned, hrealm⟩)
    · exact .inl hentry
    · rcases List.mem_or_eq_of_mem_set hr₀ with hr₀ | rfl
      · exact .inr ⟨r₀, hr₀, hreturned, hrealm⟩
      · exact absurd hreturned hpoint
  refine ⟨forall_mem_set h.began hbegan, fun id n hn => h.owed id n (howed id n hn), h.consistent, h.genuine,
    fun c' r₀ hr₀ hholds => ?_, fun c' r₀ next todo seen hr₀ hbuild => ?_⟩
  · rw [SchemaCache.move, List.getElem?_set] at hr₀
    split_ifs at hr₀ with hc
    · cases hr₀
      exact hc ▸ hheld hholds
    · exact hmu c' hc (h.held c' r₀ hr₀ hholds)
  · have hmono : ∀ id n, (s.move c r' reloadMu).OwedBy r₀ id n → s.OwedBy r₀ id n :=
      fun id n hn => hn.imp_left (howed id n)
    rw [SchemaCache.move, List.getElem?_set] at hr₀
    split_ifs at hr₀ with hc
    · cases hr₀
      exact (hbuilding next todo seen hbuild).mono hmono
    · exact (h.building c' r₀ next todo seen hr₀ hbuild).mono hmono

/-- The swap: nobody else holds the lock, and what is owed is in the new snapshot. -/
theorem swap (h : Sound s) {next : SchemaSnapshot} {seen : Option (Nat × RealmReads)}
    (hr : s.reloads[c]? = some r) (hpoint : r.point = .building next [] seen) :
    Sound { s.move c { r with point := .returned true } none with snap := next } := by
  have hbuilding := h.building c r next [] seen hr hpoint
  have hmu : s.reloadMu = some c := h.held c r hr (by rw [hpoint]; rfl)
  have hfresh : ∀ id n, s.OwedBy r id n → next.Fresh id n := fun id n hn =>
    (hbuilding.settled id n hn).resolve_left List.not_mem_nil
  have hother : ∀ (c' : Nat) r₀, (s.reloads.set c { r with point := .returned true })[c']? = some r₀ →
      r₀.point.holds = false := by
    intro c' r₀ hr₀
    rw [List.getElem?_set] at hr₀
    split_ifs at hr₀ with hc
    · cases hr₀
      rfl
    · rw [Bool.eq_false_iff]
      intro hholds
      have := h.held c' r₀ hr₀ hholds
      rw [hmu, Option.some.injEq] at this
      exact hc this
  refine ⟨forall_mem_set h.began ?_, fun id n hn => ?_, hbuilding.consistent, hbuilding.genuine,
    fun c' r₀ hr₀ hholds => ?_, fun c' r₀ next todo seen hr₀ hbuild => ?_⟩
  · exact h.began r (List.mem_of_getElem? hr)
  · rcases hn with ⟨e, he, rfl⟩ | ⟨r₀, hr₀, hreturned, hrealm, hn⟩
    · exact .inl ⟨e, he, Nat.le_refl _⟩
    · rcases List.mem_or_eq_of_mem_set hr₀ with hr₀ | rfl
      · exact hfresh id n (.inl (.inr ⟨r₀, hr₀, hreturned, hrealm, hn⟩))
      · exact hfresh id n (.inr ⟨hrealm, hn⟩)
  · exact absurd hholds (by rw [hother c' r₀ hr₀]; exact Bool.false_ne_true)
  · have := hother c' r₀ hr₀
    rw [hbuild] at this
    cases this

/-- `reloadRealm` of a known realm starts from the current snapshot. -/
theorem building_reload (h : Sound s) {id : Int} {old : CacheEntry}
    (hold : s.snap.byID.lookup id = some old) (hrealm : r.realm = some id) :
    Building s.store (s.OwedBy r) s.snap [(id, old.schema.name)] none := by
  obtain ⟨hid, hname⟩ := h.consistent.byID id old hold
  refine ⟨h.consistent, fun p hp q hq => ?_, fun p hp e he => ?_,
    ⟨h.genuine.entry, fun v hv => ?_⟩, fun id' n hn => ?_, fun _ _ heq => (nomatch heq)⟩
  · rw [List.mem_singleton] at hp hq
    rw [hp, hq]
    exact iff_of_true rfl rfl
  · rw [List.mem_singleton] at hp
    subst hp
    constructor
    · rintro (rfl : id = _)
      rw [hold, Option.some.injEq] at he
      rw [he]
    · intro heq
      have := (h.consistent.byID _ e he).2
      rw [← heq, hname, Option.some.injEq] at this
      rw [← this]
      exact hid.symm
  · obtain ⟨store, hstore, hrealms⟩ := h.genuine.listing v hv
    exact ⟨store, hstore, fun p hp => .inr ((hrealms p hp).resolve_left List.not_mem_nil)⟩
  · rcases hn with hn | ⟨hrealm', -⟩
    · exact .inr (h.owed id' n hn)
    · rw [hrealm, Option.some.injEq] at hrealm'
      exact .inl (List.mem_singleton.2 hrealm'.symm)

/-- `loadAll` starts from an empty snapshot: whatever it will lack is not among the realms listed. -/
theorem building_listed (h : Sound s) (hbegan : r.began ≤ s.store.number) :
    Building s.store (s.OwedBy r) { listed := some s.store.number } s.store.current.realms none := by
  refine ⟨⟨fun _ _ h => (nomatch h), fun _ _ h => (nomatch h)⟩, fun p hp q hq => ?_,
    fun _ _ _ h => (nomatch h), ⟨fun _ _ h => (nomatch h), fun v hv => ?_⟩, fun id n hn => ?_,
    fun _ _ heq => (nomatch heq)⟩
  · constructor
    · exact fun heq => congrArg Prod.snd (List.inj_on_of_nodup_map s.store.current.ids_nodup hp hq heq)
    · exact fun heq => congrArg Prod.fst (List.inj_on_of_nodup_map s.store.current.names_nodup hp hq heq)
  · cases hv
    exact ⟨s.store.current, s.store.at?_number, fun p hp => .inl (List.mem_map_of_mem hp)⟩
  · exact .inr (.inr ⟨rfl, s.store.number, rfl, h.le_number hbegan hn⟩)

/-- One step of `buildRealm`. -/
theorem building_build (h : Sound s) {next : SchemaSnapshot} {realm : Int × Bytes}
    {todo : List (Int × Bytes)} {seen : Option (Nat × RealmReads)} (hr : s.reloads[c]? = some r)
    (hpoint : r.point = .building next (realm :: todo) seen) {next' : SchemaSnapshot}
    {todo' : List (Int × Bytes)} {seen' : Option (Nat × RealmReads)}
    (hbuild : s.build next realm todo seen = .building next' todo' seen') :
    Building s.store (s.OwedBy r) next' todo' seen' := by
  have hb := h.building c r next _ seen hr hpoint
  unfold build at hbuild
  rcases seen with _ | ⟨v, reads⟩
  · cases hbuild
    -- The first read sees the current version, which nothing owed is ahead of.
    exact hb.read (fun _ _ => h.le_number (h.began r (List.mem_of_getElem? hr))) rfl
      (.begin s.store.at?_number rfl)
  · dsimp only at hbuild
    split_ifs at hbuild with hready
    · cases hbuild
      exact hb.put hready
    · cases hbuild
      obtain ⟨hv, p, hp, hreads⟩ := hb.reads v reads rfl
      rw [List.head?_cons, Option.some.injEq] at hp
      subst hp
      exact hb.read hv rfl (hreads.next hreads.le_number s.store.at?_number)

theorem build_ne_returned (s : SchemaCache) (next : SchemaSnapshot) (realm : Int × Bytes)
    (todo : List (Int × Bytes)) (seen : Option (Nat × RealmReads)) :
    s.build next realm todo seen ≠ .returned true := by
  unfold build
  rcases seen with _ | ⟨v, reads⟩
  · exact fun h => (nomatch h)
  · dsimp only
    split_ifs
    · exact fun h => (nomatch h)
    · exact fun h => (nomatch h)

theorem run (h : Sound s) (hr : s.reloads[c]? = some r) (hrun : s.run c r = some s') : Sound s' := by
  have hbegan := h.began r (List.mem_of_getElem? hr)
  unfold SchemaCache.run at hrun
  rcases hpoint : r.point with _ | _ | _ | _ | ⟨next, todo, seen⟩ | ok
  · -- idle
    simp only [hpoint] at hrun
    cases hrun
    refine h.move ?_ (Nat.le_refl _) (fun _ _ hmu => hmu) ?_ ?_
    · split_ifs <;> exact fun h => (nomatch h)
    · split_ifs <;> exact fun h => (nomatch h)
    · split_ifs <;> exact fun _ _ _ h => (nomatch h)
  · -- reloadRealm
    simp only [hpoint] at hrun
    rcases hmu : s.reloadMu with _ | c'
    · rcases hrealm : r.realm with _ | id
      · simp [hmu, hrealm] at hrun
      · simp only [hmu, hrealm] at hrun
        cases hold : s.snap.byID.lookup id with
        | none =>
          simp only [hold] at hrun
          cases hrun
          exact h.move (fun h => (nomatch h)) hbegan
            (fun c' _ h => by rw [hmu] at h; cases h) (fun h => (nomatch h))
            (fun _ _ _ h => (nomatch h))
        | some old =>
          simp only [hold] at hrun
          cases hrun
          refine h.move (fun h => (nomatch h)) hbegan
            (fun c' _ h => by rw [hmu] at h; cases h) (fun _ => rfl) fun next todo seen heq => ?_
          cases heq
          exact h.building_reload hold rfl
    · simp [hmu] at hrun
  · -- loadAll
    simp only [hpoint] at hrun
    rcases hmu : s.reloadMu with _ | c'
    · simp only [hmu] at hrun
      cases hrun
      exact h.move (fun h => (nomatch h)) hbegan (fun c' _ h => by rw [hmu] at h; cases h)
        (fun _ => rfl) (fun _ _ _ h => (nomatch h))
    · simp [hmu] at hrun
  · -- listRealms
    have hmu := h.held c r hr (by rw [hpoint]; rfl)
    simp only [hpoint] at hrun
    cases hrun
    refine h.move (fun h => (nomatch h)) hbegan (fun _ _ hmu => hmu) (fun _ => hmu)
      fun next todo seen heq => ?_
    cases heq
    exact h.building_listed hbegan
  · cases todo with
    | nil =>
      simp only [hpoint] at hrun
      cases hrun
      exact h.swap hr hpoint
    | cons realm todo =>
      have hmu := h.held c r hr (by rw [hpoint]; rfl)
      simp only [hpoint] at hrun
      cases hrun
      exact h.move (build_ne_returned s next realm todo seen) hbegan (fun _ _ hmu => hmu)
        (fun _ => hmu) fun _ _ _ hbuild => h.building_build hr hpoint hbuild
  · simp [hpoint] at hrun

/-- Only the end of a reload changes the snapshot. -/
theorem run_snap {c : Nat} {r : Reload} (hrun : s.run c r = some s') :
    s'.snap = s.snap ∨ ∃ next seen, r.point = .building next [] seen ∧ s'.snap = next := by
  unfold SchemaCache.run at hrun
  rcases hpoint : r.point with _ | _ | _ | _ | ⟨next, _ | ⟨realm, todo⟩, seen⟩ | ok
  · simp only [hpoint] at hrun
    cases hrun
    exact .inl rfl
  · simp only [hpoint] at hrun
    split at hrun
    · split at hrun
      · cases hrun
        exact .inl rfl
      · cases hrun
        exact .inl rfl
    · cases hrun
  · simp only [hpoint] at hrun
    split at hrun
    · cases hrun
      exact .inl rfl
    · cases hrun
  · simp only [hpoint] at hrun
    cases hrun
    exact .inl rfl
  · simp only [hpoint] at hrun
    cases hrun
    exact .inr ⟨next, seen, rfl, rfl⟩
  · simp only [hpoint] at hrun
    cases hrun
    exact .inl rfl
  · simp [hpoint] at hrun

theorem holds_of_reads {point : ReloadPoint} (h : point.reads = true) : point.holds = true := by
  cases point <;> first | rfl | cases h

/-- Every step keeps the invariant. -/
theorem step {a : CacheStep} (h : Sound s) (hstep : s.step a = some s') : Sound s' := by
  cases a with
  | commit store =>
    cases hstep
    exact h.commit store
  | run c =>
    obtain ⟨r, hr, hrun⟩ := step_run hstep
    exact h.run hr hrun
  | fail c =>
    obtain ⟨r, hr, hreads, rfl⟩ := step_fail hstep
    have hmu := h.held c r hr (holds_of_reads hreads)
    refine h.move (fun h => (nomatch h)) (h.began r (List.mem_of_getElem? hr))
      (fun c' hne hc' => ?_) (fun h => (nomatch h)) (fun _ _ _ h => (nomatch h))
    rw [hmu, Option.some.injEq] at hc'
    exact absurd hc' hne

end

end Sound

/-! ## Freshness -/

/-- Whoever loads the snapshot sees the realm compiled from reads of version `n` or later, or misses it
because the realms of such a version are without it. -/
def ShowsSince (s : SchemaCache) (id : Int) (n : Nat) : Prop :=
  (∃ e v, s.snap.byID.lookup id = some e ∧ n ≤ v ∧
    Refill.Corresponds (realmFiller (id, e.schema.name)) s.store v e.schema) ∨
  (s.snap.byID.lookup id = none ∧ ∃ v store, n ≤ v ∧ s.store.at? v = some store ∧
    id ∉ store.realms.map Prod.fst)

theorem Sound.showsSince (h : Sound s) {id : Int} {n : Nat} (hn : s.snap.Fresh id n) : s.ShowsSince id n := by
  rcases hn with ⟨e, he, hn⟩ | ⟨hnone, v, hv, hn⟩
  · refine .inl ⟨e, e.since, he, hn, ?_⟩
    have hentry := h.genuine.entry id e he
    rw [(h.consistent.byID id e he).1] at hentry
    exact hentry
  · obtain ⟨store, hstore, hrealms⟩ := h.genuine.listing v hv
    refine .inr ⟨hnone, v, store, hn, hstore, fun hmem => ?_⟩
    obtain ⟨realm, hrealm, rfl⟩ := List.mem_map.1 hmem
    exact ((hrealms realm hrealm).resolve_left List.not_mem_nil) hnone

/-- A step leaves the snapshot, or swaps in one that is not older. -/
theorem Sound.fresh_step (h : Sound s) {a : CacheStep} (hstep : s.step a = some s') {id : Int}
    {e : CacheEntry} (he : s.snap.byID.lookup id = some e) : s'.snap.Fresh id e.since := by
  have hkept : s'.snap = s.snap → s'.snap.Fresh id e.since := fun heq =>
    .inl ⟨e, by rw [heq]; exact he, Nat.le_refl _⟩
  cases a with
  | commit store =>
    cases hstep
    exact hkept rfl
  | fail c =>
    obtain ⟨r, -, -, rfl⟩ := step_fail hstep
    exact hkept rfl
  | run c =>
    obtain ⟨r, hr, hrun⟩ := step_run hstep
    rcases run_snap hrun with heq | ⟨next, seen, hpoint, heq⟩
    · exact hkept heq
    · rw [heq]
      exact ((h.building c r next [] seen hr hpoint).settled id e.since
        (.inl (.inl ⟨e, he, rfl⟩))).resolve_left List.not_mem_nil

/-- After every schedule of reloads and mutations of the store: a refresh of a realm that returned
without an error shows in the snapshot, whatever happened since; the next step never shows an older
schema of any realm; and both maps of the snapshot hold the same schemas. -/
theorem refresh_visible {store : SchemaStore} {realms : List (Option Int)} {schedule : List CacheStep}
    {s : SchemaCache} (hrun : exec step (init store realms) schedule = some s) :
    (∀ r ∈ s.reloads, r.point = .returned true → ∀ id, r.realm = some id → s.ShowsSince id r.began) ∧
    (∀ a s', s.step a = some s' → ∀ id e, s.snap.byID.lookup id = some e →
      s'.ShowsSince id e.since) ∧
    s.snap.Consistent := by
  have hsound : Sound s := exec_preserves (fun _ _ _ h hstep => h.step hstep) (sound_init store realms) hrun
  refine ⟨fun r hr hreturned id hrealm => ?_, fun a s' hstep id e he => ?_, hsound.consistent⟩
  · exact hsound.showsSince (hsound.owed id r.began (.inr ⟨r, hr, hreturned, hrealm, rfl⟩))
  · exact (hsound.step hstep).showsSince (hsound.fresh_step hstep he)

/-- One realm without interfaces. -/
def acmeStore (triggers : List Trigger) : SchemaStore where
  realms := [(1, utf8 "acme")]
  interfaces := fun _ => []
  triggers := fun _ => triggers
  ids_nodup := by simp
  names_nodup := by simp

/-- A trigger is installed while a full reload is under way that has read the triggers already. A refresh
begins and waits for the lock. -/
def refreshDuringReload : List CacheStep :=
  List.replicate 9 (.run 0) ++ List.replicate 6 (.run 1) ++ [.commit (acmeStore [⟨[]⟩]), .run 2] ++
    List.replicate 3 (.run 1) ++ List.replicate 7 (.run 2)

/-- The refresh shows the trigger. -/
theorem refresh_visible_acme :
    ∃ s, exec step (init (acmeStore []) [none, none, some 1]) refreshDuringReload = some s ∧
      (s.snap.byID.lookup 1).map (fun e => e.schema.triggers) = some [⟨[]⟩] ∧ s.ShowsSince 1 1 := by
  have hrun : ∃ s, exec step (init (acmeStore []) [none, none, some 1]) refreshDuringReload = some s ∧
      (s.snap.byID.lookup 1).map (fun e => e.schema.triggers) = some [⟨[]⟩] ∧
      s.reloads[2]? = some ⟨some 1, 1, .returned true⟩ := ⟨_, rfl, rfl, rfl⟩
  obtain ⟨s, hrun, htriggers, hreload⟩ := hrun
  exact ⟨s, hrun, htriggers,
    (refresh_visible hrun).1 ⟨some 1, 1, .returned true⟩ (List.mem_of_getElem? hreload) rfl 1 rfl⟩

end SchemaCache

end Astrate.Engine
