import Astrate.InterfaceSchema.Compile

/-!
# Minor upgrades

`CheckMinorUpgrade` of `pkg/interfaceschema/compat.go` decides whether a definition may replace
another one of the same name and major version. Mappings of the two versions are paired by the
placeholder-erased endpoint, and a pair has to agree on every attribute.

`checkMinorUpgrade_ok` states what an accepted upgrade guarantees, with the pairing expressed by
level shapes. Since the shapes alone decide which paths an endpoint accepts, a path resolves the same
way before and after the upgrade (`matchPath_minorUpgrade`).
-/

set_option autoImplicit false

namespace Astrate.InterfaceSchema

open Astrate.GoLib

/-! ## The check -/

/-- The classification sentinels of a rejected upgrade. -/
inductive UpgradeClass where
  | minorNotIncreased
  | downgradeNotAllowed
  | missingEndpoints
  | incompatibleEndpointChange
  deriving DecidableEq, Repr

/-- A rejected upgrade; every one wraps `ErrIncompatibleUpgrade`. -/
structure UpgradeError where
  sentinel : Option UpgradeClass
  detail : FmtError
  deriving DecidableEq, Repr

/-- A rule of the check. -/
def requireUpgrade (ok : Bool) (sentinel : Option UpgradeClass) (format : String)
    (args : List FmtArg) : Except UpgradeError Unit :=
  if ok then .ok () else .error ⟨sentinel, ⟨format, args⟩⟩

/-- The placeholder-erased form of an endpoint. -/
def normalizedKey (endpoint : Bytes) : Except UpgradeError Bytes := do
  let segs ← (splitEndpoint endpoint).mapError fun e => (⟨none, e⟩ : UpgradeError)
  .ok (normalizeEndpoint segs)

/-- The mappings of the new version by their keys; a later mapping replaces an earlier one. -/
def nextByEndpoint : List Mapping → List (Bytes × Mapping) →
    Except UpgradeError (List (Bytes × Mapping))
  | [], index => .ok index
  | m :: ms, index => do
      let key ← normalizedKey m.endpoint
      nextByEndpoint ms (mapSet index key m)

/-- The attributes of a mapping that may not change, with the comparison of the source. -/
def mappingAttributes (om nm : Mapping) : List (String × Bool) :=
  [("type", nm.type == om.type), ("reliability", nm.reliability == om.reliability),
    ("retention", nm.retention == om.retention), ("expiry", nm.expiry == om.expiry),
    ("database_retention_policy", nm.databaseRetentionPolicy == om.databaseRetentionPolicy),
    ("database_retention_ttl", nm.databaseRetentionTTL == om.databaseRetentionTTL),
    ("allow_unset", nm.allowUnset == om.allowUnset),
    ("explicit_timestamp", nm.explicitTimestamp == om.explicitTimestamp),
    ("required", nm.required == om.required), ("encrypted", nm.encrypted == om.encrypted)]

/-- Rejection of any attribute mutation between two versions of a mapping. -/
def sameMappingAttributes (om nm : Mapping) : Except UpgradeError Unit :=
  match (mappingAttributes om nm).find? (!·.2) with
  | some (attr, _) =>
    .error ⟨some .incompatibleEndpointChange,
      ⟨"mapping %q changed " ++ attr ++ " (existing mappings are immutable)", [.str om.endpoint]⟩⟩
  | none => .ok ()

/-- The loop over the mappings of the old version. -/
def checkMappings (index : List (Bytes × Mapping)) : List Mapping → Except UpgradeError Unit
  | [] => .ok ()
  | om :: oms => do
      let key ← normalizedKey om.endpoint
      match index.lookup key with
      | none =>
        .error ⟨some .missingEndpoints,
          ⟨"mapping %q removed (minor upgrades are additive only)", [.str om.endpoint]⟩⟩
      | some nm => do
          sameMappingAttributes om nm
          checkMappings index oms

/-- `CheckMinorUpgrade`. -/
def checkMinorUpgrade (old next : Interface) : Except UpgradeError Unit := do
  let versions : List FmtArg := [.int old.major, .int old.minor, .int next.major, .int next.minor]
  requireUpgrade (next.name == old.name) none "name changed from %q to %q"
    [.str old.name, .str next.name]
  requireUpgrade (next.major == old.major) none
    "major version changed from %d to %d (new majors are new interfaces)"
    [.int old.major, .int next.major]
  requireUpgrade (!(next.minor == old.minor)) (some .minorNotIncreased) "%d.%d -> %d.%d" versions
  requireUpgrade (!decide (next.minor < old.minor)) (some .downgradeNotAllowed) "%d.%d -> %d.%d"
    versions
  requireUpgrade (next.type == old.type) (some .incompatibleEndpointChange)
    "type changed from %s to %s" [.str (utf8 old.type.wire), .str (utf8 next.type.wire)]
  requireUpgrade (next.ownership == old.ownership) (some .incompatibleEndpointChange)
    "ownership changed from %s to %s"
    [.str (utf8 old.ownership.wire), .str (utf8 next.ownership.wire)]
  requireUpgrade (next.aggregation == old.aggregation) (some .incompatibleEndpointChange)
    "aggregation changed from %s to %s"
    [.str (utf8 old.aggregation.wire), .str (utf8 next.aggregation.wire)]
  let index ← nextByEndpoint next.mappings []
  checkMappings index old.mappings

/-! ## What an accepted upgrade guarantees -/

/-- Two versions of a mapping agree on everything but endpoint text, description and doc. -/
structure SameAttributes (om nm : Mapping) : Prop where
  type : nm.type = om.type
  reliability : nm.reliability = om.reliability
  retention : nm.retention = om.retention
  expiry : nm.expiry = om.expiry
  databaseRetentionPolicy : nm.databaseRetentionPolicy = om.databaseRetentionPolicy
  databaseRetentionTTL : nm.databaseRetentionTTL = om.databaseRetentionTTL
  allowUnset : nm.allowUnset = om.allowUnset
  explicitTimestamp : nm.explicitTimestamp = om.explicitTimestamp
  required : nm.required = om.required
  encrypted : nm.encrypted = om.encrypted

theorem sameMappingAttributes_ok {om nm : Mapping} (h : sameMappingAttributes om nm = .ok ()) :
    SameAttributes om nm := by
  unfold sameMappingAttributes at h
  split at h
  · cases h
  · rename_i hnone
    simp only [mappingAttributes, List.find?_eq_none, List.forall_mem_cons,
      Bool.not_eq_true', Bool.not_eq_false, beq_iff_eq] at hnone
    obtain ⟨h1, h2, h3, h4, h5, h6, h7, h8, h9, h10, -⟩ := hnone
    exact ⟨h1, h2, h3, h4, h5, h6, h7, h8, h9, h10⟩

theorem normalizedKey_eq_ok_iff {m : Mapping} (hlev : splitEndpoint m.endpoint = .ok m.levels)
    {key : Bytes} : normalizedKey m.endpoint = .ok key ↔ normalizeEndpoint m.levels = key := by
  simp only [normalizedKey, hlev, Except.mapError, bind_eq_ok_iff, Except.ok.injEq, exists_eq_left']

/-- Every entry of the index is a mapping of the new version under its key. -/
theorem nextByEndpoint_ok {ms : List Mapping} (hlev : ∀ m ∈ ms, splitEndpoint m.endpoint = .ok m.levels) :
    ∀ {index index' : List (Bytes × Mapping)}, nextByEndpoint ms index = .ok index' →
      ∀ key nm, index'.lookup key = some nm →
        (nm ∈ ms ∧ normalizeEndpoint nm.levels = key) ∨ index.lookup key = some nm := by
  induction ms with
  | nil =>
    intro index index' h key nm hk
    simp only [nextByEndpoint, Except.ok.injEq] at h
    subst h
    exact Or.inr hk
  | cons m ms ih =>
    intro index index' h key nm hk
    rw [List.forall_mem_cons] at hlev
    simp only [nextByEndpoint, bind_eq_ok_iff, normalizedKey_eq_ok_iff hlev.1] at h
    obtain ⟨key', rfl, h⟩ := h
    rcases ih hlev.2 h key nm hk with ⟨hmem, hkey⟩ | hold
    · exact Or.inl ⟨List.mem_cons_of_mem _ hmem, hkey⟩
    · rw [lookup_mapSet] at hold
      split_ifs at hold with heq
      · rw [Option.some.injEq] at hold
        subst hold
        exact Or.inl ⟨List.mem_cons_self, (beq_iff_eq.1 heq).symm⟩
      · exact Or.inr hold

theorem checkMappings_ok {index : List (Bytes × Mapping)} {oms : List Mapping}
    (hlev : ∀ m ∈ oms, splitEndpoint m.endpoint = .ok m.levels)
    (h : checkMappings index oms = .ok ()) :
    ∀ om ∈ oms, ∃ nm, index.lookup (normalizeEndpoint om.levels) = some nm ∧ SameAttributes om nm := by
  induction oms with
  | nil => simp
  | cons om oms ih =>
    rw [List.forall_mem_cons] at hlev ⊢
    simp only [checkMappings, bind_eq_ok_iff, normalizedKey_eq_ok_iff hlev.1] at h
    obtain ⟨key, rfl, h⟩ := h
    cases hl : index.lookup (normalizeEndpoint om.levels) with
    | none => simp [hl] at h
    | some nm =>
      simp only [hl, bind_eq_ok_iff] at h
      obtain ⟨_, hsame, h⟩ := h
      exact ⟨⟨nm, rfl, sameMappingAttributes_ok hsame⟩, ih hlev.2 h⟩

/-- What an accepted upgrade guarantees. -/
structure MinorUpgrade (old next : Interface) : Prop where
  name : next.name = old.name
  major : next.major = old.major
  minor : old.minor < next.minor
  type : next.type = old.type
  ownership : next.ownership = old.ownership
  aggregation : next.aggregation = old.aggregation
  mappings : ∀ om ∈ old.mappings, ∃ nm ∈ next.mappings,
    nm.levels.map EndpointSegment.shape = om.levels.map EndpointSegment.shape ∧
      SameAttributes om nm

theorem requireUpgrade_eq_ok_iff {ok : Bool} {sentinel : Option UpgradeClass} {format : String}
    {args : List FmtArg} {u : Unit} : requireUpgrade ok sentinel format args = .ok u ↔ ok = true := by
  cases ok <;> simp [requireUpgrade]

theorem checkMinorUpgrade_ok {old next : Interface} (wfo : old.WellFormed) (wfn : next.WellFormed)
    (h : checkMinorUpgrade old next = .ok ()) : MinorUpgrade old next := by
  unfold checkMinorUpgrade at h
  simp only [bind_eq_ok_iff, requireUpgrade_eq_ok_iff, exists_and_left, exists_const, beq_iff_eq,
    Bool.not_eq_true', beq_eq_false_iff_ne, decide_eq_false_iff_not] at h
  obtain ⟨hname, hmajor, hne, hlt, htype, hown, hagg, index, hindex, hcheck⟩ := h
  refine ⟨hname, hmajor, by omega, htype, hown, hagg, ?_⟩
  intro om hom
  obtain ⟨nm, hlook, hsame⟩ := checkMappings_ok wfo.levels hcheck om hom
  rcases nextByEndpoint_ok wfn.levels hindex _ nm hlook with ⟨hmem, hkey⟩ | hnil
  · refine ⟨nm, hmem, ?_, hsame⟩
    exact normalizeEndpoint_inj (splitEndpoint_wellFormed (wfn.levels nm hmem))
      (splitEndpoint_wellFormed (wfo.levels om hom)) hkey
  · simp at hnil

/-! ## Paths across an upgrade -/

/-- Endpoints with the same shapes accept the same paths. -/
theorem endpointAccepts_congr {a b : List EndpointSegment}
    (h : a.map EndpointSegment.shape = b.map EndpointSegment.shape) (path : Bytes) :
    endpointAccepts a path ↔ endpointAccepts b path := by
  rw [endpointAccepts_iff, endpointAccepts_iff, h]

/-- The attributes the engine validates and persists against, the storage identifier apart. -/
structure SameCompiled (a b : CompiledMapping) : Prop where
  valueType : b.valueType = a.valueType
  reliability : b.reliability = a.reliability
  retention : b.retention = a.retention
  expiry : b.expiry = a.expiry
  dbRetentionTTL : b.dbRetentionTTL = a.dbRetentionTTL
  explicitTimestamp : b.explicitTimestamp = a.explicitTimestamp
  allowUnset : b.allowUnset = a.allowUnset
  required : b.required = a.required
  encrypted : b.encrypted = a.encrypted

theorem SameAttributes.compiledWith {om nm : Mapping} (h : SameAttributes om nm)
    (ids ids' : Option EndpointIDResolver) : SameCompiled (compiledWith ids om) (compiledWith ids' nm) := by
  constructor <;>
    simp [InterfaceSchema.compiledWith, compileMapping, h.type, h.reliability, h.retention,
      h.expiry, h.databaseRetentionTTL, h.explicitTimestamp, h.allowUnset, h.required, h.encrypted]

/-- A minor upgrade keeps every path: what the old version resolves, the new version resolves to a
mapping with the same attributes. -/
theorem matchPath_minorUpgrade {data data' : Bytes} {old next : Interface}
    {ids ids' : Option EndpointIDResolver} {co cn : CompiledInterface}
    (hold : parseInterface data = .ok old) (hnext : parseInterface data' = .ok next)
    (hup : checkMinorUpgrade old next = .ok ()) (hco : compile old ids = .ok co)
    (hcn : compile next ids' = .ok cn) {path : Bytes} {p : MappingPtr}
    (hmatch : co.trie.matchPath path = some p) :
    ∃ p', cn.trie.matchPath path = some p' ∧ SameCompiled p.mapping p'.mapping := by
  have wfo := parseInterface_wellFormed hold
  have wfn := parseInterface_wellFormed hnext
  have hminor := checkMinorUpgrade_ok wfo wfn hup
  obtain ⟨k, om, hk, rfl, hacc⟩ := (wfo.matchPath_eq_some_iff hco path p).1 hmatch
  obtain ⟨nm, hnm, hshape, hsame⟩ := hminor.mappings om (List.mem_of_getElem? hk)
  obtain ⟨k', hk'⟩ := List.getElem?_of_mem hnm
  exact ⟨⟨k', compiledWith ids' nm⟩,
    (wfn.matchPath_eq_some_iff hcn path _).2
      ⟨k', nm, hk', rfl, (endpointAccepts_congr hshape path).2 hacc⟩,
    hsame.compiledWith ids ids'⟩

/-- The next minor version of `sensorDocument`: the placeholder is renamed, a mapping is added. -/
def sensorUpgradeDocument : Bytes :=
  Json.marshal true <| InterfaceJSON.toAny
    { interfaceName := some (utf8 "org.example.Sensors"), versionMajor := some 1,
      versionMinor := some 3, type := some .datastream, ownership := some .device,
      mappings := .ofList
        [{ endpoint := some (utf8 "/%\x7bsensor\x7d/enabled"), type := some .boolean },
          { endpoint := some (utf8 "/%\x7bsensor\x7d/value"), type := some .double },
          { endpoint := some (utf8 "/%\x7bsensor\x7d/unit"), type := some .string }] }

def sensorUpgrade : Interface :=
  { sensorInterface with
    minor := 3
    mappings :=
      [{ endpoint := utf8 "/%\x7bsensor\x7d/enabled", type := .boolean },
        { endpoint := utf8 "/%\x7bsensor\x7d/value", type := .double },
        { endpoint := utf8 "/%\x7bsensor\x7d/unit", type := .string }] }

theorem matchPath_minorUpgrade_sensor :
    checkMinorUpgrade sensorInterface sensorUpgrade = .ok () ∧
      ∃ co cn p p', compile sensorInterface none = .ok co ∧ compile sensorUpgrade none = .ok cn ∧
        co.trie.matchPath (utf8 "/4/unit") = some p ∧
        cn.trie.matchPath (utf8 "/4/unit") = some p' ∧ SameCompiled p.mapping p'.mapping := by
  have hup : checkMinorUpgrade sensorInterface sensorUpgrade = .ok () := by decide +kernel
  obtain ⟨co, p, hco, hp⟩ : ∃ co p, compile sensorInterface none = .ok co ∧
      co.trie.matchPath (utf8 "/4/unit") = some p := ⟨_, _, rfl, rfl⟩
  obtain ⟨cn, hcn⟩ : ∃ cn, compile sensorUpgrade none = .ok cn := ⟨_, rfl⟩
  have hparse' : parseInterface sensorUpgradeDocument = .ok sensorUpgrade := by decide +kernel
  obtain ⟨p', hp', hsame⟩ := matchPath_minorUpgrade parseInterface_sensor hparse' hup hco hcn hp
  exact ⟨hup, co, cn, p, p', hco, hcn, hp, hp', hsame⟩

end Astrate.InterfaceSchema
