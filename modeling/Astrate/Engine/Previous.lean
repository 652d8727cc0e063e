import Astrate.Engine.Poison
import Mathlib.Data.List.MinMax

/-!
# Previous values under batching

`trackPrevious` takes the previous value of a path from the pending operations of the batch, in the
order of their arrival, and else from the store: the current row of a property, the newest sample of a
datastream by timestamp. Here the snapshots of a sequence of operations that is cut into batches are
compared with those of the same sequence when every operation is flushed before the next one
(`snapshots_agree_iff`). Properties always agree; samples agree exactly when the newest sample of the
path is worth the one that arrived last.
-/

set_option autoImplicit false

namespace Astrate.Engine

open Astrate.GoLib
open Astrate.GoLib.Json (Generic scanDocument decodeAny)
open Astrate.InterfaceSchema (CompiledMapping CompiledInterface)
open Astrate.Payload (Leaf Value ScalarType DecodedPayload)
open Astrate.Store (Tables IndividualRow Property PropertyKey)

/-! ## JSON values -/

/-- `decodeCanonicalJSON`. -/
def decodeCanonicalJSON (js : Bytes) : Generic :=
  if js = [] then .null else ((scanDocument js).bind decodeAny).getD .null

/-- The canonical JSON of an operation's value. -/
def PersistOp.newJSON (op : PersistOp) : Bytes := (encodeValueJSON op.value).toOption.getD []

/-! ## Reading back -/

/-- What the database gives back: documents through its own JSON type, instants in microseconds, and one
of the newest rows of a series (`ORDER BY ts DESC LIMIT 1`). -/
structure Readback where
  jsonb : Bytes → Bytes
  newest : List IndividualRow → Option IndividualRow
  jsonb_value : ∀ v js, encodeValueJSON v = .ok js →
    decodeCanonicalJSON (jsonb js) = decodeCanonicalJSON js
  newest_eq_none : ∀ rows, newest rows = none ↔ rows = []
  newest_mem : ∀ rows r, newest rows = some r → r ∈ rows
  newest_le : ∀ rows r, newest rows = some r →
    ∀ r' ∈ rows, r'.ts.truncateMicro.nanos ≤ r.ts.truncateMicro.nanos

namespace Readback

variable (db : Readback)

/-- A row as it is read back. -/
def row (r : IndividualRow) : IndividualRow :=
  { r with
    ts := r.ts.truncateMicro
    receptionTS := r.receptionTS.truncateMicro
    valueDatetime := r.valueDatetime.map Time.truncateMicro
    valueArray := r.valueArray.map db.jsonb }

/-- `GetProperty`. -/
def getProperty (t : Tables) (key : PropertyKey) : Except StoreError Property :=
  match t.properties key with
  | some p => .ok { p with value := db.jsonb p.value }
  | none => .error .notFound

/-- The newest sample of a series. -/
def latest (t : Tables) (key : PropertyKey) : Option IndividualRow :=
  db.newest (t.individual.filter fun r => r.key = key)

/-- `LatestIndividual`. -/
def latestIndividual (t : Tables) (key : PropertyKey) : Except StoreError IndividualRow :=
  match db.latest t key with
  | some r => .ok (db.row r)
  | none => .error .notFound

/-- The previous value the store has for an operation. -/
def stored (t : Tables) (op : PersistOp) : PrevSnap :=
  if op.kind = .individual then
    match db.latest t op.key with
    | some r => ⟨true, (prevIndividualJSON (db.row r)).toOption.getD []⟩
    | none => ⟨false, []⟩
  else
    match t.properties op.key with
    | some p => ⟨true, db.jsonb p.value⟩
    | none => ⟨false, []⟩

/-- Every sample can be read back. -/
def Readable (t : Tables) : Prop :=
  ∀ r ∈ t.individual, ∃ js, prevIndividualJSON (db.row r) = .ok js

end Readback

/-- The ports of an engine whose store never fails. -/
structure Faultless {σ : Type} (e : EnginePorts σ) (db : Readback) (tables : σ → Tables) : Prop where
  persist : ∀ call env t, call.perform (tables env) = .ok t →
    ∃ env', e.persist call env = (.ok (), env') ∧ tables env' = t
  getProperty : ∀ key env, ∃ env', e.getProperty key env = (db.getProperty (tables env) key, env') ∧
    tables env' = tables env
  latestIndividual : ∀ key env, ∃ env',
    e.latestIndividual key env = (db.latestIndividual (tables env) key, env') ∧
      tables env' = tables env

/-! ## Sequences of operations -/

section

variable {σ : Type} (e : EnginePorts σ) (schema : Bytes → RealmSchema)

/-- The end of a batch, if there is one here. -/
def flushIf (cut : Bool) : Proc Event (Shard σ) Unit :=
  if cut then flush e.toBatchPort else pure ()

/-- Accept operations one after the other, with a flush behind those that are marked. -/
def acceptOps : List (PersistOp × Bool) → Proc Event (Shard σ) (List PersistOp)
  | [] => pure []
  | (op, cut) :: ops => do
      let op ← trackPrevious e (schema op.realm) op
      add op
      flushIf e cut
      let ops ← acceptOps ops
      pure (op :: ops)

/-- Accepted operations on watched paths; a path carries either samples or a property. -/
structure WatchedOps (ops : List PersistOp) : Prop where
  emitted : ∀ op ∈ ops, Emitted op
  single : ∀ op ∈ ops, op.kind ≠ .object
  watched : ∀ op ∈ ops, (schema op.realm).watches op = true
  typed : ∀ a ∈ ops, ∀ b ∈ ops, a.key = b.key → (a.kind = .individual ↔ b.kind = .individual)

variable {schema} in
theorem WatchedOps.of_subset {ops ops' : List PersistOp} (h : WatchedOps schema ops)
    (hsub : ops' ⊆ ops) : WatchedOps schema ops' where
  emitted := fun o ho => h.emitted o (hsub ho)
  single := fun o ho => h.single o (hsub ho)
  watched := fun o ho => h.watched o (hsub ho)
  typed := fun a ha b hb => h.typed a (hsub ha) b (hsub hb)

end

/-- Both operations have a snapshot, and the snapshots are equal as JSON values. -/
structure SameSnapshot (a b : PersistOp) : Prop where
  left : a.tracked = true
  right : b.tracked = true
  «exists» : a.prevExists = b.prevExists
  value : decodeCanonicalJSON a.prev = decodeCanonicalJSON b.prev

/-- Two runs went through and left the same snapshots. -/
def SameSnapshots (a b : Option (List PersistOp)) : Prop :=
  ∃ ops ops', a = some ops ∧ b = some ops' ∧ List.Forall₂ SameSnapshot ops ops'

/-- The last operation on a path. -/
def lastOn (key : PropertyKey) (ops : List PersistOp) : Option PersistOp :=
  ops.reverse.find? fun op => op.key = key

/-- Among the stored samples and those of `pre`, the newest one of the operation's path is worth the one
of `pre` that arrived last. -/
def NewestIsLast (db : Readback) (t : Tables) (pre : List PersistOp) (op : PersistOp) : Prop :=
  ∀ last, lastOn op.key pre = some last → ∃ r, db.latest (serial t pre) op.key = some r ∧
    ∃ js, prevIndividualJSON (db.row r) = .ok js ∧
      decodeCanonicalJSON js = decodeCanonicalJSON last.newJSON

/-! ## What an operation leaves on its path -/

/-- What an operation on a single mapping writes, and what is read back of it. -/
inductive Effect (db : Readback) (op : PersistOp) : Prop where
  | set (p : Property) (kind : op.kind = .propertySet) (row : op.row = .ok (.property p))
      (key : p.key = op.key) (json : encodeValueJSON op.value = .ok p.value)
  | unset (kind : op.kind = .propertyUnset) (row : op.row = .ok (.unset op.key))
      (value : op.value = none)
  | sample (r : IndividualRow) (js js' : Bytes) (kind : op.kind = .individual)
      (row : op.row = .ok (.individual r)) (key : r.key = op.key)
      (json : encodeValueJSON op.value = .ok js) (read : prevIndividualJSON (db.row r) = .ok js')
      (value : decodeCanonicalJSON js' = decodeCanonicalJSON js)

theorem truncateMicro_of_inWindow {t : Time} (h : Payload.InWindow t) : t.truncateMicro = t := by
  have haligned := h.aligned
  unfold Time.truncateMicro
  congr 1
  omega

/-- The column of a scalar is read back as the scalar. -/
theorem prevIndividualJSON_setColumn (db : Readback) (op : PersistOp)
    (m : CompiledMapping) {t : ScalarType} {x : t.Carrier}
    (hx : Payload.ScalarBounded t x) :
    prevIndividualJSON (db.row (setColumn (rowHeader op m) t x)) =
      encodeValueJSON (some (.leaf (.scalar t x))) := by
  cases t with
  | dateTime =>
    have hread : db.row (setColumn (rowHeader op m) .dateTime x) =
        { db.row (rowHeader op m) with valueDatetime := some (Time.truncateMicro x) } := rfl
    rw [hread, truncateMicro_of_inWindow hx]
    rfl
  | _ => rfl

variable {op : PersistOp}

variable {m : CompiledMapping}

/-- A typed leaf as a sample. -/
theorem sample_of_typed (db : Readback) {l : Leaf} (hv : op.value = some (.leaf l)) (hl : l.Typed m.valueType) :
    ∃ r js js', individualRow op m = .ok r ∧ r.key = op.key ∧ encodeValueJSON op.value = .ok js ∧
      prevIndividualJSON (db.row r) = .ok js' ∧ decodeCanonicalJSON js' = decodeCanonicalJSON js := by
  have hjs := encodeValueJSON_of_finite (v := .leaf l) (leafDoubles_finite hl.bounded)
  unfold individualRow
  by_cases harr : m.valueType.isArray = true
  · rw [if_pos harr, hv, hjs]
    exact ⟨_, _, _, rfl, rfl, rfl, rfl, db.jsonb_value _ _ hjs⟩
  · rw [if_neg harr, hv]
    cases l with
    | scalar t x =>
      have ht : t = Payload.scalarOf m.valueType := by
        rw [← hl.valueType]
        cases t <;> rfl
      refine ⟨_, _, _, if_pos ht, by cases t <;> rfl, hjs, ?_, rfl⟩
      rw [prevIndividualJSON_setColumn db op m hl.bounded, hjs]
    | array t xs =>
      exfalso
      apply harr
      rw [← hl.valueType]
      cases t <;> rfl

theorem effect_set (db : Readback) {l : Leaf}
    (haction : op.action = .propertySet m) (hv : op.value = some (.leaf l)) (hl : l.Bounded) :
    Effect db op := by
  have hjs := encodeValueJSON_of_finite (v := .leaf l) (leafDoubles_finite hl)
  obtain ⟨p, hp, hkey, hvalue⟩ : ∃ p, propertyRow op m = .ok p ∧ p.key = op.key ∧
      encodeValueJSON op.value = .ok p.value := by
    unfold propertyRow
    rw [hv, hjs]
    exact ⟨_, rfl, rfl, rfl⟩
  refine .set p (congrArg OpAction.kind haction) ?_ hkey hvalue
  unfold PersistOp.row
  rw [haction]
  simp only [hp, Except.map]

theorem effect_unset (db : Readback)
    (haction : op.action = .propertyUnset m) (hv : op.value = none) : Effect db op := by
  refine .unset (congrArg OpAction.kind haction) ?_ hv
  unfold PersistOp.row
  rw [haction]

theorem effect_sample (db : Readback) {l : Leaf}
    (haction : op.action = .individual m) (hv : op.value = some (.leaf l))
    (hl : l.Typed m.valueType) : Effect db op := by
  obtain ⟨r, js, js', hr, hkey, hjs, hread, hvalue⟩ := sample_of_typed db hv hl
  refine .sample r js js' (congrArg OpAction.kind haction) ?_ hkey hjs hread hvalue
  unfold PersistOp.row
  rw [haction]
  simp only [hr, Except.map]

theorem Emitted.effect (db : Readback) (h : Emitted op) (hkind : op.kind ≠ .object) : Effect db op := by
  cases h with
  | object drv dec id msg realmID ci path dp accepted aggregated decoded eq =>
    subst eq
    exact absurd rfl hkind
  | individual drv dec id msg realmID ci ptr path dp tracked prevExists prev accepted resolved decoded
      eq =>
      have stage := individual_stage accepted resolved decoded
      have haction : op.action = opAction ci (some ptr.mapping) dp := by rw [eq]; rfl
      have hop : op.value = dp.value := by rw [eq]; rfl
      by_cases htype : ci.type = .properties
      · cases hvalue : dp.value with
        | none =>
          refine effect_unset db (m := ptr.mapping) (haction.trans ?_) (hop.trans hvalue)
          simp [opAction, htype, DecodedPayload.isUnset, hvalue]
        | some v =>
          obtain ⟨l, rfl, hl⟩ := stage.value v hvalue
          refine effect_set db (m := ptr.mapping) (haction.trans ?_) (hop.trans hvalue) hl.bounded
          simp [opAction, htype, DecodedPayload.isUnset, hvalue]
      · cases hvalue : dp.value with
        | none => exact absurd (stage.unset hvalue).2 htype
        | some v =>
          obtain ⟨l, rfl, hl⟩ := stage.value v hvalue
          refine effect_sample db (m := ptr.mapping) (haction.trans ?_) (hop.trans hvalue) hl
          simp [opAction, htype]

variable {db : Readback}

theorem Effect.json (h : Effect db op) : encodeValueJSON op.value = .ok op.newJSON := by
  unfold PersistOp.newJSON
  cases h with
  | set p kind row key json =>
    rw [json]
    rfl
  | unset kind row value =>
    rw [value]
    rfl
  | sample r js js' kind row key json read value =>
    rw [json]
    rfl

/-! ## Paths in the tables -/

/-- The part of the tables a path is about. -/
def onPath (t : Tables) (key : PropertyKey) : Option Property × List IndividualRow :=
  (t.properties key, t.individual.filter fun r => r.key = key)

variable {t : Tables}

theorem stored_congr (db : Readback) {t' : Tables}
    (h : onPath t op.key = onPath t' op.key) : db.stored t op = db.stored t' op := by
  obtain ⟨hproperties, hindividual⟩ := Prod.mk.injEq .. ▸ h
  unfold Readback.stored Readback.latest
  rw [hproperties, hindividual]

variable {key : PropertyKey}

/-- An operation changes nothing on other paths. -/
theorem onPath_applyOp_ne (h : Effect db op)
    (hkey : op.key ≠ key) (t : Tables) : onPath (applyOp t op) key = onPath t key := by
  unfold applyOp onPath
  cases h with
  | set p kind row pkey json =>
    have hne : ¬ key = p.key := by
      rw [pkey]
      exact fun heq => hkey heq.symm
    simp [row, applyRow, Tables.upsertProperty, hne]
  | unset kind row value =>
    have hne : ¬ key = op.key := fun heq => hkey heq.symm
    simp [row, applyRow, Tables.unsetProperty, hne]
  | sample r js js' kind row rkey json read value =>
    have hne : ¬ r.key = key := by
      rw [rkey]
      exact hkey
    simp [row, applyRow, hne]

variable {ops : List PersistOp}

theorem onPath_serial_ne (h : ∀ op ∈ ops, Effect db op) (hkey : ∀ op ∈ ops, op.key ≠ key) (t : Tables) :
    onPath (serial t ops) key = onPath t key := by
  induction ops generalizing t with
  | nil => rfl
  | cons op ops ih =>
    have hstep : serial t (op :: ops) = serial (applyOp t op) ops := rfl
    rw [hstep, ih (fun o ho => h o (List.mem_cons_of_mem _ ho))
      (fun o ho => hkey o (List.mem_cons_of_mem _ ho)),
      onPath_applyOp_ne (h op List.mem_cons_self) (hkey op List.mem_cons_self)]

theorem readable_serial (h : ∀ op ∈ ops, Effect db op) (ht : db.Readable t) : db.Readable (serial t ops) := by
  induction ops generalizing t with
  | nil => exact ht
  | cons op ops ih =>
    have hstep : serial t (op :: ops) = serial (applyOp t op) ops := rfl
    refine ih (fun o ho => h o (List.mem_cons_of_mem _ ho)) ?_
    intro r hr
    unfold applyOp at hr
    cases h op List.mem_cons_self with
    | set p kind row key json =>
      rw [row] at hr
      exact ht r hr
    | unset kind row value =>
      rw [row] at hr
      exact ht r hr
    | sample r' js js' kind row key json read value =>
      rw [row] at hr
      exact forall_mem_concat ht ⟨js', read⟩ r hr

/-! ## The last operation on a path -/

theorem lastOn_concat (key : PropertyKey) (ops : List PersistOp) (op : PersistOp) :
    lastOn key (ops ++ [op]) = if op.key = key then some op else lastOn key ops := by
  unfold lastOn
  by_cases h : op.key = key <;> simp [h]

theorem lastOn_append (key : PropertyKey) (ops ops' : List PersistOp) :
    lastOn key (ops ++ ops') = (lastOn key ops').or (lastOn key ops) := by
  unfold lastOn
  rw [List.reverse_append, List.find?_append]

theorem lastOn_eq_none_iff : lastOn key ops = none ↔ ∀ op ∈ ops, op.key ≠ key := by
  simp [lastOn]

variable {last : PersistOp}

theorem lastOn_eq_some (h : lastOn key ops = some last) :
    last.key = key ∧ ∃ before after, ops = before ++ last :: after ∧ ∀ op ∈ after, op.key ≠ key := by
  obtain ⟨hlast, before, after, hsplit, hbefore⟩ := List.find?_eq_some_iff_append.1 h
  refine ⟨of_decide_eq_true hlast, after.reverse, before.reverse, ?_, ?_⟩
  · rw [← List.reverse_reverse ops, hsplit]
    simp
  · intro op hop
    simpa using hbefore op (List.mem_reverse.1 hop)

/-- A property is what its last operation left. -/
theorem stored_serial_property (h : ∀ op ∈ ops, Effect db op) (hop : op.kind ≠ .individual)
    (hlast : lastOn op.key ops = some last)
    (hkind : last.kind ≠ .individual) (t : Tables) :
    (db.stored (serial t ops) op).exists = (nextPrevious last last.newJSON).exists ∧
      decodeCanonicalJSON (db.stored (serial t ops) op).json =
        decodeCanonicalJSON (nextPrevious last last.newJSON).json := by
  obtain ⟨hkey, before, after, rfl, hafter⟩ := lastOn_eq_some hlast
  have hserial : onPath (serial t (before ++ last :: after)) op.key =
      onPath (applyOp (serial t before) last) op.key := by
    rw [serial_append]
    exact onPath_serial_ne (fun o ho => h o (by simp [ho])) hafter _
  have hproperty := congrArg Prod.fst hserial
  unfold Readback.stored
  rw [if_neg hop, show (serial t (before ++ last :: after)).properties op.key = _ from hproperty]
  have heffect := h last (by simp)
  have hjson := heffect.json
  unfold onPath applyOp nextPrevious
  cases heffect with
  | set p kind row key json =>
    have hp : p.value = last.newJSON := Except.ok.inj (json.symm.trans hjson)
    simp only [row, applyRow, Tables.upsertProperty, key, hkey, if_true, kind, hp]
    exact ⟨rfl, db.jsonb_value _ _ hjson⟩
  | unset kind row value =>
    have hnull : last.newJSON = utf8 "null" := by
      rw [value] at hjson
      exact (Except.ok.inj hjson).symm
    simp only [row, applyRow, Tables.unsetProperty, hkey, if_true, kind, hnull]
    exact ⟨rfl, rfl⟩
  | sample r js js' kind row key json read value => exact absurd kind hkind

/-! ## Runs -/

/-- The operation with its snapshot. -/
def PersistOp.mark (op : PersistOp) (snap : PrevSnap) : PersistOp :=
  { op with tracked := true, prevExists := snap.exists, prev := snap.json }

/-- The snapshot an operation is given when the tables are `t` and the operations `batch` are pending. -/
def Readback.before (db : Readback) (t : Tables) (batch : List PersistOp) (op : PersistOp) : PrevSnap :=
  match lastOn op.key batch with
  | some last => nextPrevious last last.newJSON
  | none => db.stored t op

/-- The operations of a run with their snapshots. -/
def trackedOps (db : Readback) :
    Tables → List PersistOp → List (PersistOp × Bool) → List PersistOp
  | _, _, [] => []
  | t, batch, (op, cut) :: ops =>
    op.mark (db.before t batch op) ::
      if cut then trackedOps db (serial t (batch ++ [op])) [] ops
      else trackedOps db t (batch ++ [op]) ops

/-- The state between two operations: what is stored, what is pending, and what the pending operations
leave for the next. -/
structure Batched {σ : Type} (tables : σ → Tables) (t : Tables) (batch : List PersistOp)
    (s : Shard σ) : Prop where
  tables : tables s.env = t
  rows : s.ops.map (·.row) = batch.map (·.row)
  ready : ∀ op ∈ s.ops, op.Ready
  chain : ∀ key, s.pendingPrev key = (lastOn key batch).map fun last => nextPrevious last last.newJSON

/-- Serial application only looks at the rows. -/
theorem serial_congr {ops' : List PersistOp} (h : ops.map (·.row) = ops'.map (·.row)) (t : Tables) :
    serial t ops = serial t ops' := by
  have hrows : ∀ ops : List PersistOp, serial t ops =
      (ops.map (·.row)).foldl (fun t row => (row.toOption.map (applyRow t)).getD t) t := by
    intro ops
    rw [List.foldl_map]
    unfold serial applyOp
    congr 1
    funext t op
    cases op.row <;> rfl
  rw [hrows, hrows, h]

section Run

variable {σ : Type} {e : EnginePorts σ} {db : Readback} {tables : σ → Tables}
  (hfaultless : Faultless e db tables)

include hfaultless

variable {s : Shard σ}

theorem storedPrevious_apply (hkind : op.kind ≠ .object) (hread : db.Readable (tables s.env)) :
    ∃ env', storedPrevious e op s =
        ⟨[], { s with env := env' }, some (some (db.stored (tables s.env) op))⟩ ∧
      tables env' = tables s.env := by
  unfold storedPrevious Readback.stored
  cases hop : op.kind with
  | object => exact absurd hop hkind
  | propertySet | propertyUnset =>
    obtain ⟨env', hget, htables⟩ := hfaultless.getProperty op.key s.env
    refine ⟨env', ?_, htables⟩
    dsimp only
    rw [Proc.bind_apply_some (withEnv_apply _ s), hget]
    unfold Readback.getProperty
    cases (tables s.env).properties op.key <;> rfl
  | individual =>
    obtain ⟨env', hget, htables⟩ := hfaultless.latestIndividual op.key s.env
    refine ⟨env', ?_, htables⟩
    dsimp only
    rw [Proc.bind_apply_some (withEnv_apply _ s), hget]
    unfold Readback.latestIndividual
    cases hlatest : db.latest (tables s.env) op.key with
    | none => rfl
    | some r =>
      obtain ⟨js, hjs⟩ := hread r (List.mem_filter.1 (db.newest_mem _ _ hlatest)).1
      simp only [hjs]
      rfl

variable {schema : Bytes → RealmSchema}

/-- Accepting one operation: it is given its snapshot and joins the batch. -/
theorem accept_apply {batch : List PersistOp}
    (hs : Batched tables t batch s) (hread : db.Readable t) (hop : Emitted op)
    (hkind : op.kind ≠ .object) (hwatched : (schema op.realm).watches op = true) :
    ∃ s', trackPrevious e (schema op.realm) op s = ⟨[], s', some (op.mark (db.before t batch op))⟩ ∧
      Batched tables t (batch ++ [op]) { s' with ops := s'.ops ++ [op.mark (db.before t batch op)] } := by
  have heffect := hop.effect db hkind
  -- The lookup, in the batch or in the store.
  obtain ⟨env', hprevious, htables⟩ : ∃ env', previous e op s =
      ⟨[], { s with env := env' }, some (some (db.before t batch op))⟩ ∧ tables env' = t := by
    unfold previous Readback.before
    rw [Proc.bind_apply_some (Proc.get_apply s), Proc.after_nil, hs.chain]
    cases lastOn op.key batch with
    | some last => exact ⟨s.env, rfl, hs.tables⟩
    | none =>
      obtain ⟨env', hrun, htables⟩ := storedPrevious_apply hfaultless hkind (hs.tables ▸ hread)
      rw [hs.tables] at hrun htables
      exact ⟨env', hrun, htables⟩
  refine ⟨{ s with
    env := env'
    pendingPrev := fun k =>
      if k = op.key then some (nextPrevious op op.newJSON) else s.pendingPrev k }, ?_, ?_⟩
  · unfold trackPrevious
    rw [if_neg hkind, if_neg (by simp [hwatched]), heffect.json]
    dsimp only
    rw [Proc.bind_apply_some hprevious]
    rfl
  · refine ⟨htables, ?_, ?_, ?_⟩
    · rw [List.map_append, List.map_append, hs.rows]
      rfl
    · exact forall_mem_concat hs.ready (hop.track hkind _ _ _).ready
    · intro key
      rw [lastOn_concat]
      by_cases hkey : key = op.key
      · simp [hkey]
      · have hne : ¬ op.key = key := fun heq => hkey heq.symm
        simp only [hkey, hne, if_false]
        exact hs.chain key

theorem callAll_faultless {calls : List StoreCall} (hcalls : ∀ call ∈ calls, call.Performs) (env : σ) :
    ∃ es env', callAll e.toBatchPort calls env = ⟨es, env', .ok ()⟩ ∧
      tables env' = calls.foldl StoreCall.after (tables env) := by
  induction calls generalizing env with
  | nil => exact ⟨[], env, rfl, rfl⟩
  | cons call calls ih =>
    obtain ⟨env₁, hcall, htables⟩ :=
      hfaultless.persist call env _ (hcalls call List.mem_cons_self (tables env))
    obtain ⟨es, env', hrun, htables'⟩ := ih (fun c hc => hcalls c (List.mem_cons_of_mem _ hc)) env₁
    rw [callAll_cons_ok _ hcall, hrun]
    exact ⟨_, env', rfl, by rw [htables', htables]; rfl⟩

/-- A flush stores the batch in the order of arrival and forgets what it left. -/
theorem flush_apply {batch : List PersistOp} (hs : Batched tables t batch s) :
    ∃ es s', flush e.toBatchPort s = ⟨es, s', some ()⟩ ∧ Batched tables (serial t batch) [] s' := by
  by_cases hops : s.ops = []
  · have hbatch : batch = [] := by
      have hrows := hs.rows
      rw [hops] at hrows
      exact List.map_eq_nil_iff.1 hrows.symm
    subst hbatch
    refine ⟨[], s, ?_, hs⟩
    unfold flush
    rw [Proc.bind_apply_some (Proc.get_apply s), Proc.after_nil, if_pos (by simp [hops])]
    rfl
  · obtain ⟨es, env', hcalls, htables⟩ :=
      callAll_faultless hfaultless (storeCalls_perform hs.ready) s.env
    have hcommit := commit_ready e.toBatchPort hs.ready s
    unfold attempted attemptReply at hcommit
    rw [hcalls] at hcommit
    -- The first attempt succeeds, whatever the parkings to come.
    have hloop : retryLoop e.toBatchPort (splitRefused e.toBatchPort) s.parks s.ops s =
        ⟨attemptEvents e.toBatchPort s.ops s ++ finalizeEvents e.toBatchPort s.ops,
          { s with env := env' }, some ()⟩ := by
      apply retryLoop_of_attempt
      intro failed
      unfold attemptFlush
      rw [Proc.bind_apply_some hcommit]
      dsimp only
      rw [finalize_run]
      rfl
    rw [flush_of_loop _ rfl hops hloop]
    refine ⟨_, _, rfl, ?_, rfl, ?_, fun key => rfl⟩
    · rw [htables, foldl_storeCalls hs.ready, hs.tables]
      exact serial_congr hs.rows t
    · intro op hop
      cases hop

/-- A run gives every operation the snapshot of its place, by induction on the operations. -/
theorem acceptOps_apply {ops : List (PersistOp × Bool)}
    (hops : WatchedOps schema (ops.map Prod.fst)) : ∀ (t : Tables) (batch : List PersistOp)
      (s : Shard σ), Batched tables t batch s → db.Readable t → (∀ op ∈ batch, Effect db op) →
      ∃ es s', acceptOps e schema ops s = ⟨es, s', some (trackedOps db t batch ops)⟩ := by
  induction ops with
  | nil => exact fun _ _ s _ _ _ => ⟨[], s, rfl⟩
  | cons x ops ih =>
    obtain ⟨op, cut⟩ := x
    intro t batch s hs hread hbatch
    have hop := hops.emitted op List.mem_cons_self
    have hkind := hops.single op List.mem_cons_self
    have ih := ih (hops.of_subset (List.subset_cons_self _ _))
    have hbatch' : ∀ o ∈ batch ++ [op], Effect db o := forall_mem_concat hbatch (hop.effect db hkind)
    obtain ⟨s₁, htrack, hs₁⟩ := accept_apply hfaultless hs hread hop hkind
      (hops.watched op List.mem_cons_self)
    unfold acceptOps trackedOps
    rw [Proc.bind_apply_some htrack, Proc.after_nil]
    have hadd : add (op.mark (db.before t batch op)) s₁ =
        ⟨[.queued (op.mark (db.before t batch op))],
          { s₁ with ops := s₁.ops ++ [op.mark (db.before t batch op)] }, some ()⟩ := rfl
    rw [Proc.bind_apply_some hadd]
    cases cut with
    | true =>
      obtain ⟨es, s₂, hflush, hs₂⟩ := flush_apply hfaultless hs₁
      obtain ⟨es', s', hrest⟩ := ih _ _ _ hs₂ (readable_serial hbatch' hread)
        (fun o ho => by cases ho)
      have hcut : flushIf e true _ = ⟨es, s₂, some ()⟩ := hflush
      rw [Proc.bind_apply_some hcut, Proc.bind_apply_some hrest]
      exact ⟨_, _, rfl⟩
    | false =>
      obtain ⟨es', s', hrest⟩ := ih _ _ _ hs₁ hread hbatch'
      have hcut : ∀ s, flushIf e false s = ⟨[], s, some ()⟩ := fun _ => rfl
      rw [Proc.bind_apply_some (hcut _), Proc.bind_apply_some hrest]
      exact ⟨_, _, rfl⟩

/-- A run that starts with an empty batch. -/
theorem acceptOps_value {ops : List (PersistOp × Bool)}
    (hops : WatchedOps schema (ops.map Prod.fst)) (hempty : s.ops = [])
    (hchain : ∀ key, s.pendingPrev key = none) (hread : db.Readable (tables s.env)) :
    (acceptOps e schema ops s).value = some (trackedOps db (tables s.env) [] ops) := by
  have hs : Batched tables (tables s.env) [] s := by
    refine ⟨rfl, by rw [hempty], fun op hop => ?_, hchain⟩
    rw [hempty] at hop
    cases hop
  obtain ⟨es, s', hrun⟩ := acceptOps_apply hfaultless hops _ _ _ hs hread fun op hop => nomatch hop
  rw [hrun]

end Run

/-! ## Batches against single operations -/

/-- Equal as JSON values. -/
structure SnapEq (a b : PrevSnap) : Prop where
  «exists» : a.exists = b.exists
  value : decodeCanonicalJSON a.json = decodeCanonicalJSON b.json

theorem sameSnapshot_mark_iff {a b : PrevSnap} : SameSnapshot (op.mark a) (op.mark b) ↔ SnapEq a b :=
  ⟨fun h => ⟨h.exists, h.value⟩, fun h => ⟨rfl, rfl, h.exists, h.value⟩⟩

section Compare

variable {db : Readback} {t : Tables}

/-- A pending sample stands for the stored one exactly when the newest sample is worth it. -/
theorem snapEq_sample_iff (hread : db.Readable (serial t ops))
    (hop : op.kind = .individual) (hlast : last.kind = .individual) :
    SnapEq (nextPrevious last last.newJSON) (db.stored (serial t ops) op) ↔
      ∃ r, db.latest (serial t ops) op.key = some r ∧ ∃ js, prevIndividualJSON (db.row r) = .ok js ∧
        decodeCanonicalJSON js = decodeCanonicalJSON last.newJSON := by
  have hnext : nextPrevious last last.newJSON = ⟨true, last.newJSON⟩ := by
    simp [nextPrevious, hlast]
  unfold Readback.stored
  rw [hnext, if_pos hop]
  cases hlatest : db.latest (serial t ops) op.key with
  | none =>
    constructor
    · intro h
      cases h.exists
    · rintro ⟨r, hr, -⟩
      cases hr
  | some r =>
    obtain ⟨js, hjs⟩ := hread r (List.mem_filter.1 (db.newest_mem _ _ hlatest)).1
    simp only [hjs]
    constructor
    · intro h
      exact ⟨r, rfl, js, hjs, h.value.symm⟩
    · rintro ⟨r', hr', js', hjs', hvalue⟩
      cases hr'
      cases hjs.symm.trans hjs'
      exact ⟨rfl, hvalue.symm⟩

/-- The two sources of a previous value agree on properties, and on paths the batch does not touch. -/
theorem before_snapEq_iff {batch : List PersistOp} (hbatch : ∀ o ∈ batch, Effect db o) (hread : db.Readable t)
    (htyped : ∀ o ∈ batch, o.key = op.key → (o.kind = .individual ↔ op.kind = .individual)) :
    SnapEq (db.before t batch op) (db.stored (serial t batch) op) ↔
      (op.kind = .individual → NewestIsLast db t batch op) := by
  unfold Readback.before NewestIsLast
  cases hlast : lastOn op.key batch with
  | none =>
    have hframe := onPath_serial_ne hbatch (lastOn_eq_none_iff.1 hlast) t
    rw [stored_congr db hframe]
    refine ⟨fun _ _ last h => ?_, fun _ => ⟨rfl, rfl⟩⟩
    cases h
  | some last =>
    obtain ⟨hkey, before, after, rfl, -⟩ := lastOn_eq_some hlast
    have hkinds := htyped last (by simp) hkey
    by_cases hop : op.kind = .individual
    · rw [snapEq_sample_iff (readable_serial hbatch hread) hop (hkinds.2 hop)]
      constructor
      · intro h _ last' hlast'
        cases hlast'
        exact h
      · intro h
        exact h hop last rfl
    · have hproperty := stored_serial_property hbatch hop hlast (fun h => hop (hkinds.1 h)) t
      exact ⟨fun _ h => absurd h hop, fun _ => ⟨hproperty.1.symm, hproperty.2.symm⟩⟩

/-- The condition does not depend on how much of the past is already stored. -/
theorem NewestIsLast.of_append {flushed batch : List PersistOp}
    (h : NewestIsLast db t (flushed ++ batch) op) : NewestIsLast db (serial t flushed) batch op := by
  intro last hlast
  rw [← serial_append]
  apply h last
  rw [lastOn_append, hlast]
  rfl

variable {schema : Bytes → RealmSchema}

theorem WatchedOps.effect (h : WatchedOps schema ops) : ∀ op ∈ ops, Effect db op :=
  fun op hop => (h.emitted op hop).effect db (h.single op hop)

/-- Every cut agrees with single operations, by induction on what is left of the sequence. -/
theorem trackedOps_agree (hread : db.Readable t)
    (xs : List (PersistOp × Bool)) : ∀ flushed batch : List PersistOp,
      WatchedOps schema (flushed ++ batch ++ xs.map Prod.fst) →
      (∀ pre op post, flushed ++ batch ++ xs.map Prod.fst = pre ++ op :: post →
        op.kind = .individual → NewestIsLast db t pre op) →
      List.Forall₂ SameSnapshot (trackedOps db (serial t flushed) batch xs)
        (trackedOps db (serial t (flushed ++ batch)) [] (xs.map fun x => (x.1, true))) := by
  induction xs with
  | nil => exact fun _ _ _ _ => .nil
  | cons x xs ih =>
    obtain ⟨op, cut⟩ := x
    intro flushed batch hops hnewest
    have heffect : ∀ o ∈ flushed ++ batch ++ ((op, cut) :: xs).map Prod.fst, Effect db o := hops.effect
    have hflushed : ∀ o ∈ flushed, Effect db o := fun o ho => heffect o (by simp [ho])
    have hbatch : ∀ o ∈ batch, Effect db o := fun o ho => heffect o (by simp [ho])
    have hhead : SnapEq (db.before (serial t flushed) batch op)
        (db.stored (serial (serial t flushed) batch) op) := by
      refine (before_snapEq_iff hbatch (readable_serial hflushed hread) ?_).2 fun hkind => ?_
      · exact fun o ho => hops.typed o (by simp [ho]) op (by simp)
      · exact (hnewest (flushed ++ batch) op (xs.map Prod.fst) (by simp) hkind).of_append
    rw [← serial_append] at hhead
    have hsplit : flushed ++ batch ++ ((op, cut) :: xs).map Prod.fst =
        flushed ++ (batch ++ [op]) ++ xs.map Prod.fst := by simp
    rw [hsplit] at hops hnewest
    refine .cons (sameSnapshot_mark_iff.2 hhead) ?_
    have hstep : serial (serial t (flushed ++ batch)) ([] ++ [op]) =
        serial t (flushed ++ (batch ++ [op])) := by
      rw [List.nil_append, ← serial_append, List.append_assoc]
    rw [if_pos rfl, hstep]
    cases cut with
    | false => exact ih flushed (batch ++ [op]) hops hnewest
    | true =>
      have hrest := ih (flushed ++ (batch ++ [op])) [] (by simpa using hops) (by simpa using hnewest)
      rw [List.append_nil] at hrest
      rw [if_pos rfl, ← serial_append]
      exact hrest

/-- One batch of everything already tells. -/
theorem newest_of_agree (hread : db.Readable t) (ops : List PersistOp) :
    ∀ batch : List PersistOp, WatchedOps schema (batch ++ ops) →
      List.Forall₂ SameSnapshot (trackedOps db t batch (ops.map fun op => (op, false)))
        (trackedOps db (serial t batch) [] (ops.map fun op => (op, true))) →
      ∀ pre op post, ops = pre ++ op :: post → op.kind = .individual → NewestIsLast db t (batch ++ pre) op := by
  induction ops with
  | nil =>
    intro batch _ _ pre op post hsplit
    simp at hsplit
  | cons first ops ih =>
    intro batch hops hagree
    obtain ⟨hhead, htail⟩ := List.forall₂_cons.1 hagree
    have hbatch : ∀ o ∈ batch, Effect db o := fun o ho => hops.effect o (by simp [ho])
    intro pre op post hsplit hkind
    cases pre with
    | nil =>
      cases hsplit
      rw [List.append_nil]
      refine (before_snapEq_iff hbatch hread ?_).1 (sameSnapshot_mark_iff.1 hhead) hkind
      exact fun o ho => hops.typed o (by simp [ho]) first (by simp)
    | cons _ pre =>
      obtain ⟨rfl, hrest⟩ := List.cons.inj hsplit
      have hstep : serial (serial t batch) ([] ++ [first]) = serial t (batch ++ [first]) :=
        (serial_append t batch [first]).symm
      rw [if_neg Bool.false_ne_true, if_pos rfl, hstep] at htail
      have hnewest := ih (batch ++ [first]) (by simpa using hops) htail pre op post hrest hkind
      simpa using hnewest

end Compare

/-! ## A late sample -/

/-- A database that gives documents back as they are. -/
def plainReadback : Readback where
  jsonb := id
  newest := @List.argmax _ Int Int.instLinearOrder.toPreorder inferInstance fun r =>
    r.ts.truncateMicro.nanos
  jsonb_value := fun _ _ _ => rfl
  newest_eq_none := fun _ => List.argmax_eq_none
  newest_mem := fun _ _ h => List.argmax_mem h
  newest_le := fun _ _ h _ h' =>
    List.le_of_mem_argmax (f := fun r : IndividualRow => r.ts.truncateMicro.nanos) h' h

/-- An engine over the tables alone. -/
def tablesEngine : EnginePorts Tables where
  persist := fun call t =>
    match call.perform t with
    | .ok t' => (.ok (), t')
    | .error err => (.error err, t)
  drv := Bson.reader
  dec := {}
  batchMaxRows := 1
  realmOrReload := fun _ t => (none, t)
  getDevice := fun _ _ _ t => (.error .notFound, t)
  putDevice := fun _ _ _ t => t
  setPayloadFormatHint := fun _ _ _ t => (.ok (), t)
  getProperty := fun key t => (plainReadback.getProperty t key, t)
  latestIndividual := fun key t => (plainReadback.latestIndividual t key, t)
  updateIntrospection := fun _ _ _ t => (.ok (), t)
  resync := fun _ _ _ t => (.ok (), t)
  purge := fun _ _ _ _ t => (.ok (), t)
  inflateProperties := fun _ => .ok []
  unmarshal := fun _ => none

theorem tablesEngine_faultless : Faultless tablesEngine plainReadback id where
  persist := by
    intro call t t' h
    refine ⟨t', ?_, rfl⟩
    change (match call.perform t with
      | .ok t' => ((.ok () : Except StoreError Unit), t')
      | .error err => (.error err, t)) = _
    rw [show call.perform t = .ok t' from h]
  getProperty := fun key t => ⟨t, rfl, rfl⟩
  latestIndividual := fun key t => ⟨t, rfl, rfl⟩

/-- A datastream whose samples carry their own timestamps. -/
def stampedDocument : Bytes :=
  Json.marshal true <| InterfaceSchema.InterfaceJSON.toAny
    { interfaceName := some (utf8 "org.example.Stamped"), versionMajor := some 1,
      versionMinor := some 0, type := some .datastream, ownership := some .device,
      mappings := .ofList
        [{ endpoint := some (utf8 "/unit"), type := some .string, explicitTimestamp := some true }] }

def stampedMapping : InterfaceSchema.Mapping :=
  { endpoint := utf8 "/unit", type := .string, explicitTimestamp := true }

def stampedInterface : InterfaceSchema.Interface :=
  { name := utf8 "org.example.Stamped", major := 1, minor := 0, type := .datastream,
    ownership := .device, aggregation := .individual, mappings := [stampedMapping] }

/-- A unit and the second of the epoch it was taken at, as JSON. -/
def stampedPayload (unit second : String) : Bytes :=
  utf8 ("\x7b\"v\":\"" ++ unit ++ "\",\"t\":\"1970-01-01T00:00:0" ++ second ++ "Z\"\x7d")

def stampedMessage (unit second : String) : InboundMessage :=
  ⟨utf8 "r", Vector.replicate 16 0, [], stampedPayload unit second, ⟨0⟩⟩

/-- The operation of such a message. -/
def stampedOp (ci : CompiledInterface) (unit second : String) (nanos : Int) :
    PersistOp :=
  newOp 0 (stampedMessage unit second) 1 ci
    (some (InterfaceSchema.compileMapping stampedMapping)) (utf8 "/unit")
    ⟨some (.leaf (.scalar .string (utf8 unit))), some ⟨nanos⟩, .json⟩

/-- The second sample is older than the first. -/
def lateOps (ci : CompiledInterface) : List PersistOp :=
  [stampedOp ci "mm" "2" 2000000000, stampedOp ci "cm" "1" 1000000000, stampedOp ci "m" "3" 3000000000]

/-- A realm with one interface and a trigger on every change of a value. -/
def changeSchema {ci : CompiledInterface} (h : Accepted ci) (_ : Bytes) : RealmSchema where
  id := 1
  name := utf8 "r"
  iface := fun name major => if name = ci.name ∧ major = ci.major then some ci else none
  accepted := by
    intro name major ci' hci'
    split_ifs at hci'
    exact Option.some.inj hci' ▸ h
  triggers := [⟨[⟨.valueChange, anyToken, anyToken, 0, true, [], true⟩]⟩]

def stampedCompiled : CompiledInterface :=
  (InterfaceSchema.compile stampedInterface none).toOption.get (by decide +kernel)

theorem stamped_accepted : Accepted stampedCompiled := by
  have hparse : InterfaceSchema.parseInterface stampedDocument = .ok stampedInterface := by decide +kernel
  exact ⟨_, _, none, hparse, rfl⟩

theorem lateOps_watched : WatchedOps (changeSchema stamped_accepted) (lateOps stampedCompiled) := by
  have hptr : stampedCompiled.trie.matchPath (utf8 "/unit") =
      some ⟨0, InterfaceSchema.compileMapping stampedMapping⟩ := by decide +kernel
  have hemitted : ∀ unit second nanos,
      Payload.Decoder.individual Bson.reader {} (stampedPayload unit second)
        (InterfaceSchema.compileMapping stampedMapping) =
          .ok ⟨some (.leaf (.scalar .string (utf8 unit))), some ⟨nanos⟩, .json⟩ →
      Emitted (stampedOp stampedCompiled unit second nanos) := fun unit second nanos hdecode =>
    .individual Bson.reader {} 0 (stampedMessage unit second) 1 stampedCompiled
      ⟨0, InterfaceSchema.compileMapping stampedMapping⟩ (utf8 "/unit") _ false false []
      stamped_accepted hptr hdecode rfl
  refine ⟨?_, by decide +kernel, by decide +kernel, by decide +kernel⟩
  intro op hop
  simp only [lateOps, List.mem_cons, List.not_mem_nil, or_false] at hop
  rcases hop with rfl | rfl | rfl
  · exact hemitted _ _ _ (by decide +kernel)
  · exact hemitted _ _ _ (by decide +kernel)
  · exact hemitted _ _ _ (by decide +kernel)

/-- A shard with nothing pending and nothing stored. -/
def emptyShard : Shard Tables := { env := Tables.empty, parks := [] }

theorem SameSnapshots.values {ops' : List PersistOp} (h : SameSnapshots (some ops) (some ops')) :
    (ops.map (·.prev)).map decodeCanonicalJSON = (ops'.map (·.prev)).map decodeCanonicalJSON := by
  obtain ⟨_, _, hops, hops', hsame⟩ := h
  cases hops
  cases hops'
  induction hsame with
  | nil => rfl
  | cons h _ ih => rw [List.map_cons, List.map_cons, List.map_cons, List.map_cons, h.value, ih]

/-! ## Snapshots -/

/-- Intra-batch previous values: every way of cutting a sequence of accepted operations into batches
leaves the same snapshots as flushing each operation before the next, exactly when for every sample that
follows another one on its path the newest sample there, by timestamp, is worth the one that arrived
last. -/
theorem snapshots_agree_iff {σ : Type} {e : EnginePorts σ} {db : Readback} {tables : σ → Tables}
    (hfaultless : Faultless e db tables) {schema : Bytes → RealmSchema} {ops : List PersistOp}
    (hops : WatchedOps schema ops) {s : Shard σ} (hempty : s.ops = [])
    (hchain : ∀ key, s.pendingPrev key = none) (hread : db.Readable (tables s.env)) :
    (∀ xs : List (PersistOp × Bool), xs.map Prod.fst = ops →
      SameSnapshots (acceptOps e schema xs s).value
        (acceptOps e schema (ops.map fun op => (op, true)) s).value) ↔
    ∀ pre op post, ops = pre ++ op :: post → op.kind = .individual → NewestIsLast db (tables s.env) pre op := by
  have hrun : ∀ xs : List (PersistOp × Bool), xs.map Prod.fst = ops →
      (acceptOps e schema xs s).value = some (trackedOps db (tables s.env) [] xs) :=
    fun xs hxs => acceptOps_value hfaultless (hxs ▸ hops) hempty hchain hread
  have hcut : ∀ cut : Bool, (ops.map fun op => (op, cut)).map Prod.fst = ops := by
    intro cut
    simp [Function.comp_def]
  constructor
  · intro hagree
    obtain ⟨ops₁, ops₂, hops₁, hops₂, hsame⟩ := hagree _ (hcut false)
    rw [hrun _ (hcut false), Option.some.injEq] at hops₁
    rw [hrun _ (hcut true), Option.some.injEq] at hops₂
    subst hops₁ hops₂
    exact newest_of_agree hread ops [] hops hsame
  · intro hnewest xs hxs
    refine ⟨_, _, hrun xs hxs, hrun _ (hcut true), ?_⟩
    have hsame := trackedOps_agree hread xs [] [] (by simpa [hxs] using hops)
      (by simpa [hxs] using hnewest)
    rw [show (xs.map fun x => (x.1, true)) = ops.map fun op => (op, true) by rw [← hxs]; simp] at hsame
    exact hsame

/-- Two samples on one path: whichever is newer, the second one follows the first. -/
theorem snapshots_agree_pair : ∃ ci, ∃ h : Accepted ci, ∀ xs : List (PersistOp × Bool),
    xs.map Prod.fst = (lateOps ci).take 2 →
      SameSnapshots (acceptOps tablesEngine (changeSchema h) xs emptyShard).value
        (acceptOps tablesEngine (changeSchema h) (((lateOps ci).take 2).map fun op => (op, true))
          emptyShard).value := by
  refine ⟨stampedCompiled, stamped_accepted, (snapshots_agree_iff tablesEngine_faultless
    (lateOps_watched.of_subset (List.take_subset 2 _)) rfl (fun _ => rfl)
    (fun r hr => absurd hr List.not_mem_nil)).2 ?_⟩
  intro pre op post hsplit hkind last hlast
  rcases pre with _ | ⟨first, _ | ⟨second, pre⟩⟩
  · cases hlast
  · obtain ⟨rfl, hrest⟩ := List.cons.inj hsplit
    obtain ⟨rfl, -⟩ := List.cons.inj hrest
    cases hlast
    exact ⟨_, rfl, _, rfl, rfl⟩
  · simp [lateOps] at hsplit

/-- In one batch the third sample follows the late one; flushed one by one it follows the newest. -/
theorem late_sample_snapshots : ∃ ci, ∃ h : Accepted ci, WatchedOps (changeSchema h) (lateOps ci) ∧
    (acceptOps tablesEngine (changeSchema h) ((lateOps ci).map fun op => (op, false))
      emptyShard).value.map (fun ops => ops.map (·.prev)) =
        some [[], utf8 "\"mm\"", utf8 "\"cm\""] ∧
    (acceptOps tablesEngine (changeSchema h) ((lateOps ci).map fun op => (op, true))
      emptyShard).value.map (fun ops => ops.map (·.prev)) =
        some [[], utf8 "\"mm\"", utf8 "\"mm\""] ∧
    ¬ SameSnapshots
      (acceptOps tablesEngine (changeSchema h) ((lateOps ci).map fun op => (op, false)) emptyShard).value
      (acceptOps tablesEngine (changeSchema h) ((lateOps ci).map fun op => (op, true)) emptyShard).value := by
  have hbatch : (acceptOps tablesEngine (changeSchema stamped_accepted)
      ((lateOps stampedCompiled).map fun op => (op, false)) emptyShard).value.map
        (fun ops => ops.map (·.prev)) = some [[], utf8 "\"mm\"", utf8 "\"cm\""] := by decide +kernel
  have hserial : (acceptOps tablesEngine (changeSchema stamped_accepted)
      ((lateOps stampedCompiled).map fun op => (op, true)) emptyShard).value.map
        (fun ops => ops.map (·.prev)) = some [[], utf8 "\"mm\"", utf8 "\"mm\""] := by decide +kernel
  refine ⟨_, stamped_accepted, lateOps_watched, hbatch, hserial, fun hsame => ?_⟩
  obtain ⟨ops, hops, hprev⟩ := Option.map_eq_some_iff.1 hbatch
  obtain ⟨ops', hops', hprev'⟩ := Option.map_eq_some_iff.1 hserial
  rw [hops, hops'] at hsame
  have hvalues := hsame.values
  rw [hprev, hprev'] at hvalues
  have hcm : decodeCanonicalJSON (utf8 "\"cm\"") = .string (utf8 "cm") := rfl
  have hmm : decodeCanonicalJSON (utf8 "\"mm\"") = .string (utf8 "mm") := rfl
  rw [List.map_cons, List.map_cons, List.map_cons, List.map_cons, List.map_cons, List.map_cons, hcm, hmm]
    at hvalues
  simp at hvalues
  revert hvalues
  decide

end Astrate.Engine
