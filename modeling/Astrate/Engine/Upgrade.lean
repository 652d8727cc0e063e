import Astrate.Engine.Pipeline
import Astrate.InterfaceSchema.Compat
import Astrate.Payload.RoundTrip

/-!
# Object payloads across minor upgrades

A minor upgrade keeps the mappings of an object-aggregated interface and may add others. A payload that
was accepted before is accepted after, with the same result, as long as the added leaves are optional
(`object_minorUpgrade_iff`): the decoder reads only the leaves a payload carries, but looks for all
required ones.
-/

set_option autoImplicit false

namespace Astrate.Engine

open Astrate.GoLib
open Astrate.GoLib.Json (Token)
open Astrate.InterfaceSchema (Interface Mapping CompiledInterface CompiledMapping EndpointIDResolver
  EndpointSegment ValueType parseInterface compile checkMinorUpgrade parseInterface_wellFormed
  checkMinorUpgrade_ok MinorUpgrade SameAttributes compiledWith validIdentifier)
open Astrate.Payload (Leaves Leaf Entry Value ScalarType Format Decoder DecodedPayload PayloadError
  decodeJSONEntry decodeJSONObject decodeBSONElements decodeBSONObject missingRequired finishObject
  objectExplicitTimestamp Declared)

/-! ## Decoding against more leaves -/

/-- Every leaf is still there, with its type. -/
def Extends (old next : Leaves) : Prop :=
  ∀ key c, old.lookup key = some c → ∃ c', next.lookup key = some c' ∧ c'.valueType = c.valueType

section Extends

variable {old next : Leaves} (h : Extends old next)

include h

theorem decodeJSONEntry_extends {key : Bytes} {raw : Token} {e : Entry}
    (hdecode : decodeJSONEntry old key raw = .ok e) : decodeJSONEntry next key raw = .ok e := by
  unfold decodeJSONEntry at hdecode ⊢
  cases hold : old.lookup key with
  | none =>
    rw [hold] at hdecode
    cases hdecode
  | some c =>
    obtain ⟨c', hnext, htype⟩ := h key c hold
    rw [hold] at hdecode
    rw [hnext]
    dsimp only at hdecode ⊢
    rw [htype]
    exact hdecode

variable {v : Value} {d : Bson.Driver}

theorem decodeJSONObject_extends {raw : Token} (hdecode : decodeJSONObject raw old = .ok v) :
    decodeJSONObject raw next = .ok v := by
  unfold decodeJSONObject at hdecode ⊢
  cases raw with
  | literal text => cases hdecode
  | array text elems => cases hdecode
  | object text members =>
    dsimp only at hdecode ⊢
    split_ifs at hdecode ⊢ with hnil
    · cases hdecode
    obtain ⟨entries, hentries, hv⟩ := bind_eq_ok_iff.1 hdecode
    refine bind_eq_ok_iff.2 ⟨entries, ?_, hv⟩
    rw [SortedMap.traverse_ok, SortedMap.traverseEntries_ok] at hentries ⊢
    exact hentries.imp fun e v hev => ⟨hev.1, decodeJSONEntry_extends h hev.2⟩

theorem decodeBSONElements_extends {els : List Bytes} :
    ∀ {out out' : SortedMap Bytes Entry}, decodeBSONElements d old els out = .ok out' →
      decodeBSONElements d next els out = .ok out' := by
  induction els with
  | nil => exact fun hdecode => hdecode
  | cons el els ih =>
    intro out out' hdecode
    unfold decodeBSONElements at hdecode ⊢
    cases hkey : d.keyErr el with
    | none =>
      rw [hkey] at hdecode
      cases hdecode
    | some key =>
      rw [hkey] at hdecode
      dsimp only at hdecode ⊢
      cases hold : old.lookup key with
      | none =>
        rw [hold] at hdecode
        cases hdecode
      | some c =>
        obtain ⟨c', hnext, htype⟩ := h key c hold
        rw [hold] at hdecode
        rw [hnext]
        split_ifs at hdecode ⊢ with hdup
        · cases hdecode
        · cases hvalue : d.valueErr el with
          | none =>
            rw [hvalue] at hdecode
            cases hdecode
          | some ev =>
            rw [hvalue] at hdecode
            obtain ⟨l, hl, hrest⟩ := bind_eq_ok_iff.1 hdecode
            exact bind_eq_ok_iff.2 ⟨l, htype ▸ hl, ih hrest⟩

theorem decodeBSONObject_extends {rv : Bson.RawValue}
    (hdecode : decodeBSONObject d rv old = .ok v) : decodeBSONObject d rv next = .ok v := by
  unfold decodeBSONObject at hdecode ⊢
  cases hdoc : d.documentOK rv with
  | none =>
    rw [hdoc] at hdecode
    cases hdecode
  | some doc =>
    rw [hdoc] at hdecode
    dsimp only at hdecode ⊢
    cases helems : d.elements doc with
    | none =>
      rw [helems] at hdecode
      cases hdecode
    | some elems =>
      rw [helems] at hdecode
      dsimp only at hdecode ⊢
      split_ifs at hdecode ⊢ with hnil
      · cases hdecode
      · obtain ⟨out, hout, hv⟩ := bind_eq_ok_iff.1 hdecode
        exact bind_eq_ok_iff.2 ⟨out, decodeBSONElements_extends h hout, hv⟩

omit h in
/-- Leaves that are added stay optional, so a payload that was complete still is. -/
theorem finishObject_extends {ts : Option Time} {f : Format} {dp : DecodedPayload}
    (hobject : ∃ obj, v = .object obj)
    (hrequired : ∀ e ∈ next, e.2.required = true → ∃ e' ∈ old, e'.1 = e.1 ∧ e'.2.required = true)
    (hexplicit : objectExplicitTimestamp next = objectExplicitTimestamp old)
    (hfinish : finishObject old (some v) ts f = .ok dp) : finishObject next (some v) ts f = .ok dp := by
  obtain ⟨obj, rfl⟩ := hobject
  unfold finishObject at hfinish ⊢
  dsimp only at hfinish ⊢
  split_ifs at hfinish with hmissing
  · cases hfinish
  have hcomplete := Payload.missingRequired_eq_nil_iff.1 (not_not.1 hmissing)
  have hnone : missingRequired next (some (.object obj)) = [] := by
    refine Payload.missingRequired_eq_nil_iff.2 fun e he hreq => ?_
    obtain ⟨e', he', hkey, hreq'⟩ := hrequired e he hreq
    rw [← hkey]
    exact hcomplete e' he' hreq'
  rw [hnone, if_neg (not_not.2 rfl), hexplicit]
  exact hfinish

theorem object_extends {dec : Decoder} {p : Bytes} {dp : DecodedPayload}
    (hrequired : ∀ e ∈ next, e.2.required = true → ∃ e' ∈ old, e'.1 = e.1 ∧ e'.2.required = true)
    (hexplicit : objectExplicitTimestamp next = objectExplicitTimestamp old) (hne : next ≠ [])
    (hold : dec.object d p old = .ok dp) : dec.object d p next = .ok dp := by
  unfold Decoder.object at hold ⊢
  split_ifs at hold with hnil
  rw [if_neg hne]
  obtain ⟨f, hgate, hold⟩ := bind_eq_ok_iff.1 hold
  refine bind_eq_ok_iff.2 ⟨f, hgate, ?_⟩
  cases f with
  | invalid => exact ((Payload.meets_gate _ _).ok _ hgate rfl).elim
  | empty => cases hold
  | bson =>
    obtain ⟨⟨rv, ts⟩, henvelope, hold⟩ := bind_eq_ok_iff.1 hold
    obtain ⟨v, hv, hold⟩ := bind_eq_ok_iff.1 hold
    obtain ⟨obj, hobj, -⟩ := (Payload.meets_decodeBSONObject _ _).ok _ hv
    exact bind_eq_ok_iff.2 ⟨_, henvelope, bind_eq_ok_iff.2 ⟨v, decodeBSONObject_extends h hv,
      finishObject_extends ⟨obj, hobj⟩ hrequired hexplicit hold⟩⟩
  | json =>
    obtain ⟨⟨raw, ts⟩, henvelope, hold⟩ := bind_eq_ok_iff.1 hold
    obtain ⟨v, hv, hold⟩ := bind_eq_ok_iff.1 hold
    obtain ⟨obj, hobj, -⟩ := (Payload.meets_decodeJSONObject _).ok _ hv
    exact bind_eq_ok_iff.2 ⟨_, henvelope, bind_eq_ok_iff.2 ⟨v, decodeJSONObject_extends h hv,
      finishObject_extends ⟨obj, hobj⟩ hrequired hexplicit hold⟩⟩

end Extends

/-! ## The leaves of an interface -/

/-- The keys of an object document are identifiers. -/
theorem validIdentifier_leaf {iface : Interface} (wf : iface.WellFormed) {m : Mapping}
    (hm : m ∈ iface.mappings) : validIdentifier m.leaf = true := by
  have hlev := wf.levels m hm
  obtain ⟨last, hlast⟩ : ∃ last, m.levels.getLast? = some last :=
    Option.isSome_iff_exists.1 (by simpa using InterfaceSchema.splitEndpoint_ne_nil hlev)
  have hvalid := InterfaceSchema.splitEndpoint_wellFormed hlev last (List.mem_of_getLast? hlast)
  rw [Mapping.leaf, hlast]
  exact hvalid

section Leaves

variable {iface : Interface} {ids : Option EndpointIDResolver} {ci : CompiledInterface}
  (wf : iface.WellFormed) (hcompile : compile iface ids = .ok ci) (hobj : iface.aggregation = .object)

include wf hcompile hobj

/-- A leaf belongs to one mapping. -/
theorem lookup_objectLeavesOf {m : Mapping} (hm : m ∈ iface.mappings) :
    (objectLeavesOf ci).lookup m.leaf = some (compiledWith ids m) := by
  have hdistinct := (wf.distinct_leaves hobj).2
  rw [objectLeavesOf_eq wf hcompile hobj]
  revert hm hdistinct
  generalize iface.mappings = ms
  intro hm hdistinct
  induction ms with
  | nil => cases hm
  | cons m' ms ih =>
    rw [List.pairwise_cons] at hdistinct
    rw [List.map_cons, lookup_cons_ite]
    rcases List.mem_cons.1 hm with rfl | hm
    · rw [if_pos (beq_self_eq_true _)]
    · have hne : ¬ (m.leaf == m'.leaf) = true := by
        rw [beq_iff_eq]
        exact fun heq => hdistinct.1 m hm heq.symm
      rw [if_neg hne]
      exact ih hm hdistinct.2

theorem exists_of_lookup_objectLeavesOf {key : Bytes} {c : CompiledMapping}
    (h : (objectLeavesOf ci).lookup key = some c) :
    ∃ m ∈ iface.mappings, m.leaf = key ∧ compiledWith ids m = c := by
  have hmem : (key, c) ∈ objectLeavesOf ci := mem_of_lookup h
  rw [objectLeavesOf_eq wf hcompile hobj] at hmem
  obtain ⟨m, hm, heq⟩ := List.mem_map.1 hmem
  cases heq
  exact ⟨m, hm, rfl, rfl⟩

end Leaves

/-- Endpoints of one shape that end in a literal end in the same one. -/
theorem leaf_eq_of_shape {om nm : Mapping}
    (hshape : nm.levels.map EndpointSegment.shape = om.levels.map EndpointSegment.shape)
    (ho : om.EndsInLiteral) (hn : nm.EndsInLiteral) : nm.leaf = om.leaf := by
  have hlast := congrArg List.getLast? hshape
  rw [List.getLast?_map, List.getLast?_map] at hlast
  unfold Mapping.leaf
  unfold Mapping.EndsInLiteral at ho hn
  cases hnl : nm.levels.getLast? with
  | none =>
    cases hol : om.levels.getLast? with
    | none => rfl
    | some o => simp [hnl, hol] at hlast
  | some n =>
    cases hol : om.levels.getLast? with
    | none => simp [hnl, hol] at hlast
    | some o =>
      simp only [hnl, hol, Option.map_some, Option.some.injEq, Option.getD_some] at hlast ho hn ⊢
      simpa [EndpointSegment.shape, ho, hn] using hlast

/-! ## A payload with every leaf -/

def zeroScalar : (t : ScalarType) → t.Carrier
  | .double => ⟨0⟩
  | .integer => 0
  | .boolean => false
  | .longInteger => 0
  | .string => []
  | .binaryBlob => []
  | .dateTime => ⟨0⟩

/-- Some value of a declared type. -/
def zeroLeaf (vt : ValueType) : Leaf :=
  if vt.isArray then .array (Payload.scalarOf vt) [] else .scalar (Payload.scalarOf vt)
    (zeroScalar (Payload.scalarOf vt))

theorem valueType_zeroLeaf (vt : ValueType) : (zeroLeaf vt).valueType = vt := by
  cases vt <;> rfl

theorem exists_jsonify_zeroLeaf (vt : ValueType) : ∃ a, Payload.jsonifyLeaf (zeroLeaf vt) = .ok a := by
  cases vt <;> exact ⟨_, rfl⟩

/-- An object with all the leaves. -/
def zeroObject (leaves : Leaves) : SortedMap Bytes Entry :=
  .ofList (leaves.map fun e => (e.1, .leaf (zeroLeaf e.2.valueType)))

variable {leaves : Leaves}

theorem mem_zeroObject {e : Bytes × Entry} (h : e ∈ (zeroObject leaves).entries) :
    ∃ c, (e.1, c) ∈ leaves ∧ e.2 = .leaf (zeroLeaf c.valueType) := by
  obtain ⟨leaf, hleaf, rfl⟩ := List.mem_map.1 (SortedMap.mem_ofList h)
  exact ⟨leaf.2, hleaf, rfl⟩

theorem isSome_lookup_zeroObject {leaf : Bytes × CompiledMapping}
    (h : leaf ∈ leaves) : ((zeroObject leaves).lookup leaf.1).isSome = true :=
  SortedMap.isSome_lookup_ofList (List.mem_map_of_mem h)

/-- It has no other leaves. -/
theorem exists_of_lookup_zeroObject {key : Bytes}
    (h : ((zeroObject leaves).lookup key).isSome = true) : ∃ c, (key, c) ∈ leaves := by
  obtain ⟨e, he⟩ := Option.isSome_iff_exists.1 h
  have hmem : (key, e) ∈ (zeroObject leaves).entries := mem_of_lookup he
  obtain ⟨c, hc, -⟩ := mem_zeroObject hmem
  exact ⟨c, hc⟩

/-- Such an object can be written, with or without a timestamp. -/
theorem exists_encode_zeroObject (hne : leaves ≠ []) (explicit : Bool) :
    ∃ p, Payload.encode (some (.object (zeroObject leaves)))
      (if explicit then some ⟨0⟩ else none) .json = .ok p := by
  obtain ⟨leaf, hleaf⟩ := List.exists_mem_of_ne_nil _ hne
  have hentries : (zeroObject leaves).entries ≠ [] := by
    intro hnil
    have hsome := isSome_lookup_zeroObject hleaf
    rw [SortedMap.lookup, hnil] at hsome
    cases hsome
  obtain ⟨members, hmembers⟩ := SortedMap.exists_traverse
    (m := zeroObject leaves) (f := Payload.jsonifyEntry) (by
      intro e he
      obtain ⟨c, -, hc⟩ := mem_zeroObject he
      obtain ⟨a, ha⟩ := exists_jsonify_zeroLeaf c.valueType
      exact ⟨a, Payload.jsonifyEntry_eq_ok_iff.2 ⟨_, hc, ha⟩⟩)
  have hvalue : Payload.jsonifyValue (.object (zeroObject leaves)) = .ok (.object members.entries) := by
    unfold Payload.jsonifyValue
    dsimp only
    rw [if_neg hentries]
    exact bind_eq_ok_iff.2 ⟨members, hmembers, rfl⟩
  cases explicit with
  | false => exact ⟨_, bind_eq_ok_iff.2 ⟨_, hvalue, rfl⟩⟩
  | true => exact ⟨_, bind_eq_ok_iff.2 ⟨_, hvalue, bind_eq_ok_iff.2 ⟨⟨0⟩, rfl, rfl⟩⟩⟩

section ZeroObject

variable {iface : Interface} {ids : Option EndpointIDResolver} {ci : CompiledInterface}
  (wf : iface.WellFormed) (hcompile : compile iface ids = .ok ci) (hobj : iface.aggregation = .object)

include wf hcompile hobj

theorem declared_zeroObject : Declared (objectLeavesOf ci) (zeroObject (objectLeavesOf ci)) := by
  have hleaves : ∀ e ∈ (zeroObject (objectLeavesOf ci)).entries, ∃ m ∈ iface.mappings,
      m.leaf = e.1 ∧ e.2 = .leaf (zeroLeaf (compiledWith ids m).valueType) := by
    intro e he
    obtain ⟨c, hc, hentry⟩ := mem_zeroObject he
    rw [objectLeavesOf_eq wf hcompile hobj] at hc
    obtain ⟨m, hm, heq⟩ := List.mem_map.1 hc
    rw [Prod.mk.injEq] at heq
    exact ⟨m, hm, heq.1, by rw [hentry, heq.2]⟩
  refine ⟨?_, ?_, fun e he _ => isSome_lookup_zeroObject he⟩
  · intro e he
    obtain ⟨m, hm, hkey, -⟩ := hleaves e he
    exact hkey ▸ validIdentifier_leaf wf hm
  · intro e he
    obtain ⟨m, hm, hkey, hentry⟩ := hleaves e he
    exact ⟨_, _, hkey ▸ lookup_objectLeavesOf wf hcompile hobj hm, hentry, valueType_zeroLeaf _⟩

end ZeroObject

/-! ## Upgrades -/

section Upgrade

variable {data data' : Bytes} {old next : Interface} {ids ids' : Option EndpointIDResolver}
  {co cn : CompiledInterface} (hold : parseInterface data = .ok old)
  (hnext : parseInterface data' = .ok next) (hobject : old.aggregation = .object)
  (hcheck : checkMinorUpgrade old next = .ok ()) (hco : compile old ids = .ok co)
  (hcn : compile next ids' = .ok cn)

include hold hnext hobject hcheck

theorem exists_upgraded {om : Mapping} (hom : om ∈ old.mappings) :
    ∃ nm ∈ next.mappings, nm.leaf = om.leaf ∧ SameAttributes om nm := by
  have wfo := parseInterface_wellFormed hold
  have wfn := parseInterface_wellFormed hnext
  have hminor := checkMinorUpgrade_ok wfo wfn hcheck
  obtain ⟨nm, hnm, hshape, hsame⟩ := hminor.mappings om hom
  exact ⟨nm, hnm, leaf_eq_of_shape hshape ((wfo.distinct_leaves hobject).1 om hom)
    ((wfn.distinct_leaves (hminor.aggregation.trans hobject)).1 nm hnm), hsame⟩

include hco hcn

theorem minorUpgrade_extends : Extends (objectLeavesOf co) (objectLeavesOf cn) := by
  have wfn := parseInterface_wellFormed hnext
  have hminor := checkMinorUpgrade_ok (parseInterface_wellFormed hold) wfn hcheck
  intro key c hc
  obtain ⟨om, hom, rfl, rfl⟩ :=
    exists_of_lookup_objectLeavesOf (parseInterface_wellFormed hold) hco hobject hc
  obtain ⟨nm, hnm, hleaf, hsame⟩ := exists_upgraded hold hnext hobject hcheck hom
  rw [← hleaf]
  exact ⟨_, lookup_objectLeavesOf wfn hcn (hminor.aggregation.trans hobject) hnm, hsame.type⟩

/-- The timestamp policy of an object is kept. -/
theorem minorUpgrade_explicitTimestamp :
    objectExplicitTimestamp (objectLeavesOf cn) = objectExplicitTimestamp (objectLeavesOf co) := by
  have wfo := parseInterface_wellFormed hold
  have wfn := parseInterface_wellFormed hnext
  have hobject' := (checkMinorUpgrade_ok wfo wfn hcheck).aggregation.trans hobject
  obtain ⟨om, hom⟩ := List.exists_mem_of_ne_nil _ wfo.mappings_ne_nil
  obtain ⟨nm, hnm, -, hsame⟩ := exists_upgraded hold hnext hobject hcheck hom
  have ho := explicitTimestamp_of_mem wfo hco hobject hom
  have hn := explicitTimestamp_of_mem wfn hcn hobject' hnm
  rw [← hn, ← ho]
  exact hsame.explicitTimestamp

/-- A minor upgrade keeps the object payloads of the old version, with what they decode to, just when
every required leaf of the new version was there before. -/
theorem object_minorUpgrade_iff {d : Bson.Driver} :
    (∀ (dec : Decoder) (p : Bytes) (dp : DecodedPayload),
      dec.object d p (objectLeavesOf co) = .ok dp → dec.object d p (objectLeavesOf cn) = .ok dp) ↔
    ∀ nm ∈ next.mappings, nm.required = true → ∃ om ∈ old.mappings, om.leaf = nm.leaf := by
  have wfo := parseInterface_wellFormed hold
  have wfn := parseInterface_wellFormed hnext
  have hminor := checkMinorUpgrade_ok wfo wfn hcheck
  have hobject' := hminor.aggregation.trans hobject
  have hleaveso := objectLeavesOf_eq wfo hco hobject
  have hleavesn := objectLeavesOf_eq wfn hcn hobject'
  constructor
  · -- An object with every old leaf and no other was complete, so it has to be still.
    intro hkeeps nm hnm hrequired
    have hne : objectLeavesOf co ≠ [] := by
      rw [hleaveso, Ne, List.map_eq_nil_iff]
      exact wfo.mappings_ne_nil
    obtain ⟨p, hp⟩ := exists_encode_zeroObject hne (objectExplicitTimestamp (objectLeavesOf co))
    have hlimit : (p.length : Int) ≤ Decoder.limit ⟨p.length + 1⟩ := by
      rw [Decoder.limit, if_pos (by dsimp only; omega)]
      dsimp only
      omega
    have haccepted := Payload.object_encode_json (d := d) (by
      intro t ht
      split_ifs at ht
      cases ht
      rfl) hlimit hp (declared_zeroObject wfo hco hobject) (by
      intro e he
      rw [hleaveso] at he
      obtain ⟨om, hom, rfl⟩ := List.mem_map.1 he
      rw [← explicitTimestamp_of_mem wfo hco hobject hom]
      cases h : om.explicitTimestamp <;> exact h)
    obtain ⟨obj, hdecoded⟩ := Payload.object_decoded (hkeeps _ p _ haccepted.2)
    have hvalue := hdecoded.value
    rw [Option.some.injEq, Value.object.injEq] at hvalue
    have hpresent := hdecoded.complete (nm.leaf, compiledWith ids' nm)
      (hleavesn ▸ List.mem_map_of_mem hnm) hrequired
    rw [← hvalue, SortedMap.lookup_map, Option.isSome_map] at hpresent
    obtain ⟨c, hc⟩ := exists_of_lookup_zeroObject hpresent
    rw [hleaveso] at hc
    obtain ⟨om, hom, heq⟩ := List.mem_map.1 hc
    exact ⟨om, hom, congrArg Prod.fst heq⟩
  · intro hrequired dec p dp hdecode
    refine object_extends (minorUpgrade_extends hold hnext hobject hcheck hco hcn) ?_
      (minorUpgrade_explicitTimestamp hold hnext hobject hcheck hco hcn) ?_ hdecode
    · intro e he hreq
      rw [hleavesn] at he
      obtain ⟨nm, hnm, rfl⟩ := List.mem_map.1 he
      obtain ⟨om, hom, hleaf⟩ := hrequired nm hnm hreq
      -- The mapping with the leaf of `om` in the new version is `nm`, so `om` was required too.
      obtain ⟨nm', hnm', hleaf', hsame⟩ := exists_upgraded hold hnext hobject hcheck hom
      have hlookup := lookup_objectLeavesOf wfn hcn hobject' hnm'
      rw [hleaf', hleaf, lookup_objectLeavesOf wfn hcn hobject' hnm, Option.some.injEq] at hlookup
      have hreq' : nm'.required = true := by
        have := congrArg CompiledMapping.required hlookup
        exact this.symm.trans hreq
      exact ⟨(om.leaf, compiledWith ids om), hleaveso ▸ List.mem_map_of_mem hom, hleaf,
        hsame.required.symm.trans hreq'⟩
    · rw [hleavesn, Ne, List.map_eq_nil_iff]
      exact wfn.mappings_ne_nil

end Upgrade

/-- The document of an object-aggregated interface with a leaf `on`, to which `level` may be added. -/
def lampDocument (minor : Int) (levels : List InterfaceSchema.MappingJSON) : Bytes :=
  Json.marshal true <| InterfaceSchema.InterfaceJSON.toAny
    { interfaceName := some (utf8 "org.example.Lamp"), versionMajor := some 1,
      versionMinor := some minor, type := some .datastream, ownership := some .device,
      aggregation := some .object,
      mappings := .ofList ({ endpoint := some (utf8 "/lamp/on"), type := some .boolean } :: levels) }

def lampInterface (minor : Int) (levels : List Mapping) : Interface :=
  { name := utf8 "org.example.Lamp", major := 1, minor := minor, type := .datastream,
    ownership := .device, aggregation := .object,
    mappings := { endpoint := utf8 "/lamp/on", type := .boolean } :: levels }

/-- The added leaf. -/
def levelJSON (required : Bool) : InterfaceSchema.MappingJSON :=
  { endpoint := some (utf8 "/lamp/level"), type := some .integer, required := some required }

def levelMapping (required : Bool) : Mapping :=
  { endpoint := utf8 "/lamp/level", type := .integer, required := required }

/-- With an optional leaf added, the lamp still accepts what it accepted. -/
theorem object_minorUpgrade_lamp :
    ∃ co cn, compile (lampInterface 0 []) none = .ok co ∧
      compile (lampInterface 1 [levelMapping false]) none = .ok cn ∧
      ∀ (dec : Decoder) (p : Bytes) (dp : DecodedPayload),
        dec.object Bson.reader p (objectLeavesOf co) = .ok dp →
          dec.object Bson.reader p (objectLeavesOf cn) = .ok dp := by
  have hold : parseInterface (lampDocument 0 []) = .ok (lampInterface 0 []) := by decide +kernel
  have hnext : parseInterface (lampDocument 1 [levelJSON false]) =
      .ok (lampInterface 1 [levelMapping false]) := by decide +kernel
  have hcheck : checkMinorUpgrade (lampInterface 0 []) (lampInterface 1 [levelMapping false]) =
      .ok () := by decide +kernel
  obtain ⟨co, hco⟩ : ∃ co, compile (lampInterface 0 []) none = .ok co := ⟨_, rfl⟩
  obtain ⟨cn, hcn⟩ : ∃ cn, compile (lampInterface 1 [levelMapping false]) none = .ok cn := ⟨_, rfl⟩
  exact ⟨co, cn, hco, hcn, (object_minorUpgrade_iff hold hnext rfl hcheck hco hcn).2 (by decide)⟩

/-- With a required leaf added, the lamp refuses a payload it accepted. -/
theorem required_leaf_refused :
    parseInterface (lampDocument 0 []) = .ok (lampInterface 0 []) ∧
      parseInterface (lampDocument 1 [levelJSON true]) = .ok (lampInterface 1 [levelMapping true]) ∧
      checkMinorUpgrade (lampInterface 0 []) (lampInterface 1 [levelMapping true]) = .ok () ∧
      ∃ co cn, compile (lampInterface 0 []) none = .ok co ∧
        compile (lampInterface 1 [levelMapping true]) none = .ok cn ∧
        (Decoder.object Bson.reader {} (utf8 "\x7b\"v\":\x7b\"on\":true\x7d\x7d")
          (objectLeavesOf co)).isOk = true ∧
        (Decoder.object Bson.reader {} (utf8 "\x7b\"v\":\x7b\"on\":true\x7d\x7d")
          (objectLeavesOf cn)).isOk = false := by
  refine ⟨by decide +kernel, by decide +kernel, by decide +kernel, _, _, rfl, rfl, ?_, ?_⟩
  · decide +kernel
  · decide +kernel

end Astrate.Engine
