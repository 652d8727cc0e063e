import Astrate.Engine.Attempt
import Astrate.Engine.Data
import Astrate.GoLib.BsonReader

/-!
# The validation pipeline

The stages of the pipeline fit together: what the decoder accepts for a mapping of an accepted interface
is typed and bounded, carries a timestamp exactly when the mapping declares one, and converts to a valid
row (`individual_stage`, `object_stage`). So every operation the pipeline can queue is `Ready`
(`Emitted.ready`).
-/

set_option autoImplicit false

namespace Astrate.Engine

open Astrate.GoLib
open Astrate.InterfaceSchema (CompiledMapping CompiledInterface MappingPtr Mapping Interface EndpointIDResolver
  compile compiledWith pointers parseInterface_wellFormed compile_eq_ok_iff compile_aggregation)
open Astrate.Payload (Leaf Value Entry Decoder DecodedPayload Leaves TimestampPolicy TypedObject
  individual_decoded object_decoded objectExplicitTimestamp)

/-! ## Accepted interfaces -/

section Accepted

variable {ci : CompiledInterface}

/-- The rules of the definition, read off a mapping the trie resolves a path to. -/
theorem Accepted.mapping (h : Accepted ci) {path : Bytes} {p : MappingPtr}
    (hp : ci.trie.matchPath path = some p) :
    (ci.type = .properties → p.mapping.explicitTimestamp = false) ∧
      (p.mapping.allowUnset = true → ci.type = .properties) := by
  obtain ⟨data, iface, ids, hparse, hcompile⟩ := h
  have wf := parseInterface_wellFormed hparse
  obtain ⟨k, m, hk, rfl, -⟩ := (wf.matchPath_eq_some_iff hcompile path p).1 hp
  have hrules := wf.rules m (List.mem_of_getElem? hk)
  obtain ⟨_, _, _, _, _, rfl⟩ := compile_eq_ok_iff.1 hcompile
  constructor
  · intro htype
    exact (hrules.datastream_only htype).2.2.2.1
  · intro hunset
    by_contra htype
    have hdatastream : iface.type = .datastream := by
      cases htype' : iface.type with
      | datastream => rfl
      | properties => exact absurd htype' htype
    have hnot : m.allowUnset = false := hrules.properties_only hdatastream
    exact absurd (hnot.symm.trans hunset) Bool.false_ne_true

section Leaves

variable {iface : Interface} {ids : Option EndpointIDResolver} (wf : iface.WellFormed)
  (hcompile : compile iface ids = .ok ci) (hobj : iface.aggregation = .object)

include wf hcompile hobj

theorem objectLeavesOf_eq : objectLeavesOf ci = iface.mappings.map fun m => (m.leaf, compiledWith ids m) := by
  rw [objectLeavesOf, wf.compile_objectLeaves hcompile hobj, Option.getD_some]
  conv_rhs => rw [← List.zipIdx_map_fst 0 iface.mappings]
  simp only [pointers, List.map_map, Function.comp_def]

/-- The policy of an object is that of any of its mappings. -/
theorem explicitTimestamp_of_mem {m : Mapping} (hm : m ∈ iface.mappings) :
    m.explicitTimestamp = objectExplicitTimestamp (objectLeavesOf ci) := by
  obtain ⟨first, ms, hms⟩ := List.exists_cons_of_ne_nil wf.mappings_ne_nil
  have hshape := wf.object_shape hobj first (by rw [hms]; rfl) m hm
  rw [objectLeavesOf_eq wf hcompile hobj, hms]
  exact hshape.attributes.2.2.2.1

end Leaves

/-- The leaves of an accepted object-aggregated interface: there is one, and they agree on explicit
timestamps. -/
theorem Accepted.leaves (h : Accepted ci) (hobj : ci.aggregation = .object) :
    objectLeavesOf ci ≠ [] ∧ ∀ leaf ∈ objectLeavesOf ci,
      leaf.2.explicitTimestamp = objectExplicitTimestamp (objectLeavesOf ci) := by
  obtain ⟨data, iface, ids, hparse, hcompile⟩ := h
  have wf := parseInterface_wellFormed hparse
  have hagg : iface.aggregation = .object := (compile_aggregation hcompile).symm.trans hobj
  have hleaves := objectLeavesOf_eq wf hcompile hagg
  refine ⟨by simp [hleaves, wf.mappings_ne_nil], fun leaf hleaf => ?_⟩
  rw [hleaves] at hleaf
  obtain ⟨m, hm, rfl⟩ := List.mem_map.1 hleaf
  exact explicitTimestamp_of_mem wf hcompile hagg hm

theorem Accepted.object_datastream (h : Accepted ci) (hobj : ci.aggregation = .object) :
    ci.type = .datastream := by
  obtain ⟨data, iface, ids, hparse, hcompile⟩ := h
  have wf := parseInterface_wellFormed hparse
  obtain ⟨_, _, _, _, _, rfl⟩ := compile_eq_ok_iff.1 hcompile
  exact wf.object_datastream hobj

end Accepted

/-! ## Stages -/

/-- An operation converts to a valid row; an individual row has exactly one value column. -/
structure PersistOp.Converts (op : PersistOp) : Prop where
  row : ∃ row, op.row = .ok row ∧ row.Valid
  columns : ∀ r, op.row = .ok (.individual r) → r.valueColumns = 1

/-- What a payload accepted for the mapping `m` goes through. Only an unset has no value. -/
structure IndividualStage (ci : CompiledInterface) (m : CompiledMapping) (dp : DecodedPayload) :
    Prop where
  value : ∀ v, dp.value = some v → ∃ l, v = .leaf l ∧ l.Typed m.valueType
  unset : dp.value = none → m.allowUnset = true ∧ ci.type = .properties
  timestamp : TimestampPolicy dp m.explicitTimestamp
  converts : ∀ id msg realmID path, (newOp id msg realmID ci (some m) path dp).Converts

/-- What a payload accepted for an object-aggregated interface goes through. -/
structure ObjectStage (ci : CompiledInterface) (dp : DecodedPayload) : Prop where
  value : ∃ obj, dp.value = some (.object obj) ∧ TypedObject (objectLeavesOf ci) obj
  timestamp : ∀ leaf ∈ objectLeavesOf ci, TimestampPolicy dp leaf.2.explicitTimestamp
  converts : ∀ id msg realmID path, (newOp id msg realmID ci none path dp).Converts

section Stages

variable {drv : Bson.Driver} {dec : Decoder} {p : Bytes} {ci : CompiledInterface} {dp : DecodedPayload}

/-- A leaf of the declared type converts, for a datastream and for a property. -/
theorem converts_value {m : CompiledMapping} {l : Leaf} {id : Nat} {msg : InboundMessage}
    {realmID : Int} {path : Bytes} (hv : dp.value = some (.leaf l)) (hl : l.Typed m.valueType) :
    (newOp id msg realmID ci (some m) path dp).Converts := by
  by_cases htype : ci.type = .properties
  · obtain ⟨row, hrow⟩ := @propertyRow_of_typed
      (newOp id msg realmID ci (some m) path dp) m l hv hl.bounded
    have hop : (newOp id msg realmID ci (some m) path dp).row = .ok (.property row) := by
      have haction : opAction ci (some m) dp = .propertySet m := by
        simp [opAction, htype, DecodedPayload.isUnset, hv]
      unfold PersistOp.row
      rw [show (newOp id msg realmID ci (some m) path dp).action = _ from haction]
      simp only [hrow, Except.map]
    refine ⟨⟨_, hop, trivial⟩, fun r hr => ?_⟩
    rw [hop] at hr
    cases hr
  · obtain ⟨row, hrow, hcolumns⟩ := @individualRow_of_typed
      (newOp id msg realmID ci (some m) path dp) m l hv hl
    have hop : (newOp id msg realmID ci (some m) path dp).row = .ok (.individual row) := by
      have haction : opAction ci (some m) dp = .individual m := by
        simp [opAction, htype]
      unfold PersistOp.row
      rw [show (newOp id msg realmID ci (some m) path dp).action = _ from haction]
      simp only [hrow, Except.map]
    refine ⟨⟨_, hop, Store.IndividualRow.validate_eq_ok_iff.2 hcolumns⟩, fun r hr => ?_⟩
    rw [hop] at hr
    cases hr
    exact hcolumns

theorem individual_stage (hci : Accepted ci) {path : Bytes} {ptr : MappingPtr}
    (hptr : ci.trie.matchPath path = some ptr) (h : dec.individual drv p ptr.mapping = .ok dp) :
    IndividualStage ci ptr.mapping dp := by
  obtain ⟨hexplicit, hunset⟩ := hci.mapping hptr
  cases individual_decoded h with
  | unset allowed eq =>
    have htype := hunset allowed
    subst eq
    refine ⟨?_, fun _ => ⟨allowed, htype⟩, ⟨(hexplicit htype).symm, ?_⟩, ?_⟩
    · intro v hv
      cases hv
    · intro ts hts
      cases hts
    · -- An unset needs no conversion.
      intro id msg realmID path
      have hrow : (newOp id msg realmID ci (some ptr.mapping) path ⟨none, none, .empty⟩).row =
          .ok (.unset ⟨realmID, msg.deviceID, ci.id, path⟩) := by
        simp [PersistOp.row, newOp, opAction, htype, DecodedPayload.isUnset, PersistOp.key]
      refine ⟨⟨_, hrow, trivial⟩, fun r hr => ?_⟩
      rw [hrow] at hr
      cases hr
  | value l eq typed timestamp =>
    refine ⟨?_, ?_, timestamp, fun id msg realmID path => converts_value eq typed⟩
    · intro v hv
      rw [eq, Option.some.injEq] at hv
      exact ⟨l, hv.symm, typed⟩
    · intro hv
      rw [eq] at hv
      cases hv

theorem object_stage (hci : Accepted ci) (hobj : ci.aggregation = .object)
    (h : dec.object drv p (objectLeavesOf ci) = .ok dp) : ObjectStage ci dp := by
  obtain ⟨obj, hdecoded⟩ := object_decoded h
  refine ⟨⟨obj, hdecoded.value, hdecoded.typed⟩, ?_, ?_⟩
  · intro leaf hleaf
    rw [(hci.leaves hobj).2 leaf hleaf]
    exact hdecoded.timestamp
  · intro id msg realmID path
    obtain ⟨row, hrow⟩ := @objectRow_of_typed (newOp id msg realmID ci none path dp) _ _
      hdecoded.value hdecoded.typed
    have hop : (newOp id msg realmID ci none path dp).row = .ok (.object row) := by
      simp only [PersistOp.row, newOp, opAction] at hrow ⊢
      rw [hrow]
      rfl
    refine ⟨⟨_, hop, trivial⟩, fun r hr => ?_⟩
    rw [hop] at hr
    cases hr

/-! ## Queued operations -/

/-- What the pipeline queues: an operation made of a payload that was decoded for an accepted
interface, with whatever previous value was found for it. -/
inductive Emitted (op : PersistOp) : Prop where
  | individual (drv : Bson.Driver) (dec : Decoder) (id : Nat) (msg : InboundMessage) (realmID : Int)
      (ci : CompiledInterface) (ptr : MappingPtr) (path : Bytes) (dp : DecodedPayload)
      (tracked prevExists : Bool) (prev : Bytes) (accepted : Accepted ci)
      (resolved : ci.trie.matchPath path = some ptr)
      (decoded : dec.individual drv msg.payload ptr.mapping = .ok dp)
      (eq : op = { newOp id msg realmID ci (some ptr.mapping) path dp with
        tracked := tracked, prevExists := prevExists, prev := prev })
  | object (drv : Bson.Driver) (dec : Decoder) (id : Nat) (msg : InboundMessage) (realmID : Int)
      (ci : CompiledInterface) (path : Bytes) (dp : DecodedPayload) (accepted : Accepted ci)
      (aggregated : ci.aggregation = .object)
      (decoded : dec.object drv msg.payload (objectLeavesOf ci) = .ok dp)
      (eq : op = newOp id msg realmID ci none path dp)

/-- Tracking the previous value of an operation on a single mapping. -/
theorem Emitted.track {op : PersistOp} (h : Emitted op) (hkind : op.kind ≠ .object)
    (tracked prevExists : Bool) (prev : Bytes) :
    Emitted { op with tracked := tracked, prevExists := prevExists, prev := prev } := by
  cases h with
  | individual drv dec id msg realmID ci ptr path dp tracked' prevExists' prev' accepted resolved
      decoded eq =>
      subst eq
      exact .individual drv dec id msg realmID ci ptr path dp tracked prevExists prev accepted resolved
        decoded rfl
  | object drv dec id msg realmID ci path dp accepted aggregated decoded eq =>
    subst eq
    exact absurd rfl hkind

theorem Emitted.ready {op : PersistOp} (h : Emitted op) : op.Ready := by
  cases h with
  | individual drv dec id msg realmID ci ptr path dp tracked prevExists prev accepted resolved decoded
      eq =>
      subst eq
      exact ⟨rfl, ((individual_stage accepted resolved decoded).converts id msg realmID path).row⟩
  | object drv dec id msg realmID ci path dp accepted aggregated decoded eq =>
    subst eq
    exact ⟨rfl, ((object_stage accepted aggregated decoded).converts id msg realmID path).row⟩

end Stages

/-! ## A payload that passes -/

def unitMapping : InterfaceSchema.CompiledMapping :=
  InterfaceSchema.compileMapping { endpoint := utf8 "/%\x7bid\x7d/unit", type := .string }

theorem matchPath_unit : sensorCompiled.trie.matchPath (utf8 "/4/unit") = some ⟨1, unitMapping⟩ := by
  decide +kernel

/-- A unit of measurement, as JSON. -/
def unitPayload : Bytes := utf8 "\x7b\"v\":\"mm\"\x7d"

theorem individual_unit : Payload.Decoder.individual Bson.reader {} unitPayload unitMapping =
    .ok ⟨some (.leaf (.scalar .string (utf8 "mm"))), none, .json⟩ := by
  decide +kernel

/-- The pipeline can queue a datastream operation for any message. -/
theorem exists_emitted (id : Nat) : ∃ op, Emitted op ∧ op.ack = id ∧ ∃ r, op.row = .ok (.individual r) := by
  let msg : InboundMessage := ⟨utf8 "r", Vector.replicate 16 0, [], unitPayload, ⟨0⟩⟩
  exact ⟨_, .individual Bson.reader {} id msg 1 sensorCompiled _ _ _ false false [] sensor_accepted
    matchPath_unit individual_unit rfl, rfl, _, rfl⟩

end Astrate.Engine
