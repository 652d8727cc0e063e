import Astrate.GoLib.JsonDecode
import Astrate.InterfaceSchema.Endpoint

/-!
# Parsing of interface definitions

`ParseInterface` and `ParseInterfaceCanonical` of `pkg/interfaceschema/parse.go`: strict decoding of
the JSON document, normalisation of the legacy aliases, and every structural rule, in the order of
the source. Rules with a field-shaped rejection collect violations and abort after the last mapping;
the others abort at once.

`parseInterface_wellFormed` collects what an accepted definition satisfies: each declared endpoint has
levels, no two endpoints overlap, and an object-aggregated definition has uniform mappings. The later
modules use an accepted definition only through it.
-/

set_option autoImplicit false

namespace Astrate.InterfaceSchema

open Astrate.GoLib
open Astrate.GoLib.Json (Token Slice StructField Any)

/-! ## Limits -/

def maxNameLength : Nat := 128
def maxMappings : Nat := 1024
def maxDescriptionLength : Nat := 1000
def maxDocLength : Nat := 100000
def minDatabaseRetentionTTL : Int := 60
def maxDatabaseRetentionTTL : Int := 630720000

/-! ## Decoding targets -/

/-- Decoding target of one mapping; an option detects absence. -/
structure MappingJSON where
  endpoint : Option Bytes := none
  path : Option Bytes := none
  type : Option ValueType := none
  reliability : Option Reliability := none
  retention : Option Retention := none
  expiry : Option Int := none
  databaseRetentionPolicy : Option DatabaseRetentionPolicy := none
  databaseRetentionTTL : Option Int := none
  allowUnset : Option Bool := none
  explicitTimestamp : Option Bool := none
  required : Option Bool := none
  encrypted : Option Bool := none
  description : Bytes := []
  doc : Bytes := []
  deriving DecidableEq, Repr

/-- Decoding target of the document. -/
structure InterfaceJSON where
  interfaceName : Option Bytes := none
  versionMajor : Option Int := none
  versionMinor : Option Int := none
  type : Option InterfaceType := none
  ownership : Option Ownership := none
  quality : Option Ownership := none
  aggregate : Option Bool := none
  aggregation : Option Aggregation := none
  description : Bytes := []
  doc : Bytes := []
  mappings : Slice MappingJSON := .nil
  deriving DecidableEq, Repr

/-- `unmarshalEnum`: a string token looked up by the parser of the enumeration. -/
def unmarshalEnum {E : Type} (parse : Bytes → Except FmtError E) (t : Token) : Option E := do
  let s ← Json.decodeString [] t
  (parse s).toOption

/-- A field held by a pointer. -/
def pointerField {σ α : Type} (name : String) (elem : Token → Option α)
    (set : σ → Option α → σ) : StructField σ where
  name := utf8 name
  set s t := (Json.decodePointer elem t).map (set s)

/-- A field held by a string. -/
def stringField {σ : Type} (name : String) (get : σ → Bytes) (set : σ → Bytes → σ) : StructField σ where
  name := utf8 name
  set s t := (Json.decodeString (get s) t).map (set s)

def mappingFields : List (StructField MappingJSON) :=
  [pointerField "endpoint" (Json.decodeString []) fun m v => { m with endpoint := v },
    pointerField "path" (Json.decodeString []) fun m v => { m with path := v },
    pointerField "type" (unmarshalEnum parseValueType) fun m v => { m with type := v },
    pointerField "reliability" (unmarshalEnum parseReliability)
      fun m v => { m with reliability := v },
    pointerField "retention" (unmarshalEnum parseRetention) fun m v => { m with retention := v },
    pointerField "expiry" (Json.decodeInt 0) fun m v => { m with expiry := v },
    pointerField "database_retention_policy" (unmarshalEnum parseDatabaseRetentionPolicy)
      fun m v => { m with databaseRetentionPolicy := v },
    pointerField "database_retention_ttl" (Json.decodeInt 0)
      fun m v => { m with databaseRetentionTTL := v },
    pointerField "allow_unset" (Json.decodeBool false) fun m v => { m with allowUnset := v },
    pointerField "explicit_timestamp" (Json.decodeBool false)
      fun m v => { m with explicitTimestamp := v },
    pointerField "required" (Json.decodeBool false) fun m v => { m with required := v },
    pointerField "encrypted" (Json.decodeBool false) fun m v => { m with encrypted := v },
    stringField "description" (·.description) fun m v => { m with description := v },
    stringField "doc" (·.doc) fun m v => { m with doc := v }]

def interfaceFields : List (StructField InterfaceJSON) :=
  [pointerField "interface_name" (Json.decodeString []) fun i v => { i with interfaceName := v },
    pointerField "version_major" (Json.decodeInt 0) fun i v => { i with versionMajor := v },
    pointerField "version_minor" (Json.decodeInt 0) fun i v => { i with versionMinor := v },
    pointerField "type" (unmarshalEnum parseInterfaceType) fun i v => { i with type := v },
    pointerField "ownership" (unmarshalEnum parseOwnership) fun i v => { i with ownership := v },
    pointerField "quality" (unmarshalEnum parseOwnership) fun i v => { i with quality := v },
    pointerField "aggregate" (Json.decodeBool false) fun i v => { i with aggregate := v },
    pointerField "aggregation" (unmarshalEnum parseAggregation)
      fun i v => { i with aggregation := v },
    stringField "description" (·.description) fun i v => { i with description := v },
    stringField "doc" (·.doc) fun i v => { i with doc := v },
    { name := utf8 "mappings"
      set := fun i t =>
        (Json.decodeSlice (Json.decodeStruct mappingFields true) {} i.mappings t).map
          fun v => { i with mappings := v } }]

/-! ## Errors -/

/-- A field-shaped rejection; `mappingIndex` is `none` for a field of the interface itself. -/
structure Violation where
  field : String
  message : FmtError
  mappingIndex : Option Nat
  deriving DecidableEq, Repr

/-- Why a definition is rejected: the document does not decode, a rule is violated, or field-shaped
violations were collected. Every one of them wraps `ErrInvalid`. -/
inductive ParseError where
  | decode
  | rule (e : FmtError)
  | violations (vs : List Violation) (mappingCount : Nat)
  deriving DecidableEq, Repr

def tooLongMessage (bound : Nat) : FmtError := ⟨"should be at most %d character(s)", [.int bound]⟩

/-- A length bound that collects a violation. -/
def lengthViolation (field : String) (index : Option Nat) (bound : Nat) (s : Bytes) : List Violation :=
  if s.length > bound then [⟨field, tooLongMessage bound, index⟩] else []

/-! ## Interface names -/

/-- The labels of a dotted name. -/
def nameLabels : Bytes → List Bytes
  | [] => [[]]
  | c :: cs =>
    if c = 46 then [] :: nameLabels cs
    else
      match nameLabels cs with
      | [] => [[c]]
      | l :: ls => (c :: l) :: ls

/-- An ASCII letter. -/
def letterByte (c : UInt8) : Bool := (97 ≤ c && c ≤ 122) || (65 ≤ c && c ≤ 90)

def alnumByte (c : UInt8) : Bool := letterByte c || (48 ≤ c && c ≤ 57)

/-- `[a-zA-Z][a-zA-Z0-9]*`, the first and the last label. -/
def outerLabel : Bytes → Bool
  | [] => false
  | c :: cs => letterByte c && cs.all alnumByte

/-- `[a-zA-Z0-9][a-zA-Z0-9-]*`, a label between them. -/
def middleLabel : Bytes → Bool
  | [] => false
  | c :: cs => alnumByte c && cs.all fun b => alnumByte b || b == 45

/-- The labels behind the first one: middle labels, then an outer label. -/
def tailLabels : List Bytes → Bool
  | [] => true
  | [l] => outerLabel l
  | l :: ls => middleLabel l && tailLabels ls

/-- The pattern `interfaceNameRe`. -/
def interfaceNameOK (name : Bytes) : Bool :=
  match nameLabels name with
  | [] => false
  | l :: ls => outerLabel l && tailLabels ls

/-! ## Mappings -/

/-- A mapping's legacy alias `path` becomes its endpoint unless it has one. -/
def MappingJSON.normalize (mj : MappingJSON) : MappingJSON :=
  { mj with endpoint := mj.endpoint.or mj.path, path := none }

/-- The datastream-only attributes, in the order in which a properties mapping is checked for
them. -/
def MappingJSON.datastreamOnly (mj : MappingJSON) : List (String × Bool) :=
  [("reliability", mj.reliability.isSome), ("retention", mj.retention.isSome),
    ("expiry", mj.expiry.isSome), ("explicit_timestamp", mj.explicitTimestamp.isSome),
    ("database_retention_policy", mj.databaseRetentionPolicy.isSome),
    ("database_retention_ttl", mj.databaseRetentionTTL.isSome), ("required", mj.required.isSome),
    ("encrypted", mj.encrypted.isSome)]

/-- The retention rules of a datastream mapping: the time to live that is stored, and a violation
when it is out of its band. -/
def buildRetention (endpoint : Bytes) (policy : DatabaseRetentionPolicy) (ttl : Option Int)
    (index : Nat) : Except FmtError (Int × List Violation) :=
  match policy, ttl with
  | .useTTL, none =>
    errorf "mapping %q: database_retention_policy \"use_ttl\" requires database_retention_ttl >= 1"
      [.str endpoint]
  | .useTTL, some ttl =>
    if ttl < minDatabaseRetentionTTL then
      .ok (0, [⟨"database_retention_ttl",
        ⟨"must be greater than or equal to %d", [.int minDatabaseRetentionTTL]⟩, some index⟩])
    else if ttl ≥ maxDatabaseRetentionTTL then
      .ok (0, [⟨"database_retention_ttl",
        ⟨"must be less than %d", [.int maxDatabaseRetentionTTL]⟩, some index⟩])
    else .ok (ttl, [])
  | .noTTL, some _ =>
    errorf "mapping %q: database_retention_ttl requires database_retention_policy \"use_ttl\""
      [.str endpoint]
  | .noTTL, none => .ok (0, [])

/-- One raw mapping with defaults applied, its levels, and the violations it adds. -/
def buildMapping (raw : MappingJSON) (ifaceType : InterfaceType) (index : Nat) :
    Except FmtError (Mapping × List EndpointSegment × List Violation) := do
  match raw.endpoint, raw.type with
  | none, _ => errorf "mapping is missing \"endpoint\"" []
  | some endpoint, none => errorf "mapping %q is missing \"type\"" [.str endpoint]
  | some endpoint, some type =>
    let segs ← splitEndpoint endpoint
    let vs := lengthViolation "description" (some index) maxDescriptionLength raw.description ++
      lengthViolation "doc" (some index) maxDocLength raw.doc
    match ifaceType with
    | .properties =>
      match raw.datastreamOnly.find? (·.2) with
      | some (attr, _) =>
        errorf ("mapping %q: \"" ++ attr ++ "\" is not allowed on properties") [.str endpoint]
      | none =>
        .ok ({ endpoint, type, description := raw.description, doc := raw.doc,
               allowUnset := raw.allowUnset.getD false }, segs, vs)
    | .datastream =>
      if raw.allowUnset.isSome then
        errorf "mapping %q: \"allow_unset\" is only allowed on properties" [.str endpoint]
      else if raw.expiry.getD 0 < 0 then
        errorf "mapping %q: expiry must be >= 0" [.str endpoint]
      else do
        let policy := raw.databaseRetentionPolicy.getD .noTTL
        let (ttl, vs') ← buildRetention endpoint policy raw.databaseRetentionTTL index
        .ok ({ endpoint, type, description := raw.description, doc := raw.doc,
               required := raw.required.getD false, encrypted := raw.encrypted.getD false,
               reliability := raw.reliability.getD .unreliable,
               retention := raw.retention.getD .discard, expiry := raw.expiry.getD 0,
               databaseRetentionPolicy := policy, databaseRetentionTTL := ttl,
               explicitTimestamp := raw.explicitTimestamp.getD false }, segs, vs ++ vs')

/-- The loop over the declared mappings: the mappings with their levels, and the violations. -/
def buildMappings (ifaceType : InterfaceType) :
    Nat → List MappingJSON → Except FmtError (List (Mapping × List EndpointSegment) × List Violation)
  | _, [] => .ok ([], [])
  | index, raw :: raws => do
      let (m, segs, vs) ← buildMapping raw.normalize ifaceType index
      let (ms, vs') ← buildMappings ifaceType (index + 1) raws
      .ok ((m, segs) :: ms, vs ++ vs')

/-! ## Endpoint conflicts -/

/-- The level loop of `checkEndpointUniqueness` on two endpoints of the same depth: whether every
level overlaps, and whether none disagrees. -/
def compareLevels : List EndpointSegment → List EndpointSegment → Bool × Bool
  | a :: as, b :: bs =>
    if a.param && b.param then compareLevels as bs
    else if a.param != b.param then ((compareLevels as bs).1, false)
    else if a.literal ≠ b.literal then (false, false)
    else compareLevels as bs
  | _, _ => (true, true)

/-- The inner loop: one endpoint against those declared after it. -/
def checkAgainst (a : Mapping × List EndpointSegment) :
    List (Mapping × List EndpointSegment) → Except FmtError Unit
  | [] => .ok ()
  | b :: bs =>
    if a.2.length ≠ b.2.length then checkAgainst a bs
    else if (compareLevels a.2 b.2).2 then
      errorf "duplicate endpoint %q (also declared as %q)" [.str b.1.endpoint, .str a.1.endpoint]
    else if (compareLevels a.2 b.2).1 then
      errorf "conflicting endpoints %q and %q match overlapping paths"
        [.str a.1.endpoint, .str b.1.endpoint]
    else checkAgainst a bs

/-- Rejection of duplicate and conflicting endpoint pairs. -/
def checkEndpointUniqueness : List (Mapping × List EndpointSegment) → Except FmtError Unit
  | [] => .ok ()
  | a :: as => do
      checkAgainst a as
      checkEndpointUniqueness as

/-! ## Object aggregation -/

/-- The attributes that have to be uniform, with the comparison of the source. -/
def objectAttributes (ref m : Mapping) : List (String × Bool) :=
  [("reliability", m.reliability == ref.reliability), ("retention", m.retention == ref.retention),
    ("expiry", m.expiry == ref.expiry),
    ("explicit_timestamp", m.explicitTimestamp == ref.explicitTimestamp),
    ("database_retention_policy", m.databaseRetentionPolicy == ref.databaseRetentionPolicy),
    ("database_retention_ttl", m.databaseRetentionTTL == ref.databaseRetentionTTL)]

/-- Attribute uniformity of two mappings. -/
def sameObjectAttributes (ref m : Mapping) : Except FmtError Unit :=
  match (objectAttributes ref m).find? (!·.2) with
  | some (attr, _) =>
    errorf ("object-aggregated mappings must all share the same " ++ attr ++
      ": %q differs from %q") [.str m.endpoint, .str ref.endpoint]
  | none => .ok ()

/-- One mapping against the first. -/
def checkObjectMapping (first a : Mapping × List EndpointSegment) : Except FmtError Unit :=
  if a.2.length ≠ first.2.length then
    errorf "object-aggregated mappings must all have the same depth: %q has %d levels, %q has %d"
      [.str a.1.endpoint, .int a.2.length, .str first.1.endpoint, .int first.2.length]
  else if a.2.dropLast ≠ first.2.dropLast then
    errorf "object-aggregated mappings must share the same prefix: %q diverges from %q"
      [.str a.1.endpoint, .str first.1.endpoint]
  else if (a.2.getLast?.map (·.param)).getD false then
    errorf "object-aggregated mapping %q must end in a literal segment" [.str a.1.endpoint]
  else sameObjectAttributes first.1 a.1

def checkObjectMappings (first : Mapping × List EndpointSegment) :
    List (Mapping × List EndpointSegment) → Except FmtError Unit
  | [] => .ok ()
  | a :: as => do
      checkObjectMapping first a
      checkObjectMappings first as

/-- The object-aggregation shape. -/
def checkObjectAggregation (ms : List (Mapping × List EndpointSegment)) : Except FmtError Unit :=
  match ms with
  | [] => .ok ()
  | first :: _ => checkObjectMappings first ms

/-! ## The document -/

/-- Normalisation of the aliases `quality` and `aggregate`, with their violations. -/
def InterfaceJSON.normalize (raw : InterfaceJSON) : InterfaceJSON × List Violation :=
  let ownership := raw.ownership.or raw.quality
  let aggregation :=
    raw.aggregation.or (raw.aggregate.map fun b => if b then .object else .individual)
  let vs1 : List Violation :=
    if raw.quality.isSome && raw.ownership.isSome then
      [⟨"ownership", ⟨"ownership and quality are mutually exclusive", []⟩, none⟩]
    else []
  let vs2 : List Violation :=
    if raw.aggregate.isSome && raw.aggregation.isSome then
      [⟨"aggregation", ⟨"aggregation and aggregate are mutually exclusive", []⟩, none⟩]
    else []
  ({ raw with ownership, quality := none, aggregation, aggregate := none }, vs1 ++ vs2)

/-- Whether a legacy alias was used. -/
def InterfaceJSON.aliases (raw : InterfaceJSON) : Bool :=
  raw.quality.isSome || raw.aggregate.isSome || raw.mappings.elems.any (·.path.isSome)

/-- A rule on the interface as a whole. -/
def require (ok : Bool) (format : String) (args : List FmtArg) : Except ParseError Unit :=
  if ok then .ok () else .error (.rule ⟨format, args⟩)

/-- A field that has to be present. -/
def requireField {α : Type} (field : String) (v : Option α) : Except ParseError α :=
  match v with
  | some a => .ok a
  | none => .error (.rule ⟨"missing \"" ++ field ++ "\"", []⟩)

/-- Defaults and rules applied to the decoded document. -/
def buildInterface (raw : InterfaceJSON) : Except ParseError Interface := do
  let (raw, vs) := raw.normalize
  let name ← requireField "interface_name" raw.interfaceName
  let major ← requireField "version_major" raw.versionMajor
  let minor ← requireField "version_minor" raw.versionMinor
  let type ← requireField "type" raw.type
  let ownership ← requireField "ownership" raw.ownership
  require (name.length ≤ maxNameLength) "interface name exceeds %d characters" [.int maxNameLength]
  require (interfaceNameOK name) "invalid interface name %q" [.str name]
  require (0 ≤ major) "version_major must be >= 0" []
  require (0 ≤ minor) "version_minor must be >= 0" []
  require (!(major == 0 && minor == 0)) "version_major and version_minor cannot both be 0" []
  let aggregation := raw.aggregation.getD .individual
  require (!(type == .properties && aggregation == .object))
    "properties interfaces cannot use object aggregation" []
  let raws := raw.mappings.elems
  require (!raws.isEmpty) "interface must declare at least one mapping" []
  require (raws.length ≤ maxMappings) "interface declares %d mappings, maximum is %d"
    [.int raws.length, .int maxMappings]
  let vs := vs ++ lengthViolation "description" none maxDescriptionLength raw.description ++
    lengthViolation "doc" none maxDocLength raw.doc
  let (ms, vs') ← (buildMappings type 0 raws).mapError ParseError.rule
  if vs ++ vs' ≠ [] then .error (.violations (vs ++ vs') raws.length)
  else do
    (checkEndpointUniqueness ms).mapError ParseError.rule
    if aggregation = .object then (checkObjectAggregation ms).mapError ParseError.rule
    else .ok ()
    .ok { name, major, minor, type, ownership, aggregation, description := raw.description,
          doc := raw.doc, mappings := ms.map Prod.fst }

/-- The decoded document. The decoder reads one value; what follows it is checked afterwards. -/
def decodeDocument (data : Bytes) : Except ParseError InterfaceJSON :=
  match Json.scanValue Json.maxNestingDepth (Json.skipSpace data) with
  | none => .error .decode
  | some (t, rest) =>
    match Json.decodeStruct interfaceFields true {} t with
    | none => .error .decode
    | some raw =>
      if Json.skipSpace rest ≠ [] then
        .error (.rule ⟨"trailing data after interface document", []⟩)
      else .ok raw

/-- An optional member of a written structure. -/
def optMember {α : Type} (name : String) (render : α → Any) (v : Option α) : List (Bytes × Any) :=
  match v with
  | some a => [(utf8 name, render a)]
  | none => []

/-- An optional string member, left out when empty. -/
def textMember (name : String) (s : Bytes) : List (Bytes × Any) :=
  if s = [] then [] else [(utf8 name, .string s)]

/-- A mapping in JSON. -/
def MappingJSON.toAny (mj : MappingJSON) : Any :=
  .object <|
    optMember "endpoint" .string mj.endpoint ++
    optMember "type" (fun v => .string (utf8 v.wire)) mj.type ++
    optMember "reliability" (fun v => .string (utf8 v.wire)) mj.reliability ++
    optMember "retention" (fun v => .string (utf8 v.wire)) mj.retention ++
    optMember "expiry" (fun v => .number (formatInt v)) mj.expiry ++
    optMember "database_retention_policy" (fun v => .string (utf8 v.wire))
      mj.databaseRetentionPolicy ++
    optMember "database_retention_ttl" (fun v => .number (formatInt v)) mj.databaseRetentionTTL ++
    optMember "allow_unset" .bool mj.allowUnset ++
    optMember "explicit_timestamp" .bool mj.explicitTimestamp ++
    optMember "required" .bool mj.required ++ optMember "encrypted" .bool mj.encrypted ++
    textMember "description" mj.description ++ textMember "doc" mj.doc

/-- The normalised document as it is written back. The members without `omitempty` are present in
every accepted document. -/
def InterfaceJSON.toAny (raw : InterfaceJSON) : Any :=
  .object <|
    optMember "interface_name" .string raw.interfaceName ++
    optMember "version_major" (fun v => .number (formatInt v)) raw.versionMajor ++
    optMember "version_minor" (fun v => .number (formatInt v)) raw.versionMinor ++
    optMember "type" (fun v => .string (utf8 v.wire)) raw.type ++
    optMember "ownership" (fun v => .string (utf8 v.wire)) raw.ownership ++
    optMember "aggregation" (fun v => .string (utf8 v.wire)) raw.aggregation ++
    textMember "description" raw.description ++ textMember "doc" raw.doc ++
    [(utf8 "mappings", .array (raw.mappings.elems.map fun mj => mj.normalize.toAny))]

/-- `ParseInterfaceCanonical`: the parsed definition, and the canonical document when the given one
uses legacy aliases. -/
def parseInterfaceCanonical (data : Bytes) : Except ParseError (Interface × Option Bytes) := do
  let raw ← decodeDocument data
  let iface ← buildInterface raw
  .ok (iface, if raw.aliases then some (Json.marshal false raw.normalize.1.toAny) else none)

/-- `ParseInterface`. -/
def parseInterface (data : Bytes) : Except ParseError Interface := do
  let (iface, _) ← parseInterfaceCanonical data
  .ok iface

/-! ## What an accepted definition satisfies -/

/-- The levels of a declared endpoint; no levels when it is not an endpoint. -/
def Mapping.levels (m : Mapping) : List EndpointSegment := (splitEndpoint m.endpoint).toOption.getD []

theorem Mapping.levels_eq {m : Mapping} {segs : List EndpointSegment}
    (h : splitEndpoint m.endpoint = .ok segs) : m.levels = segs := by
  simp [Mapping.levels, h, Except.toOption]

/-- Two levels that some concrete level could match both. -/
def EndpointSegment.Overlaps (a b : EndpointSegment) : Prop :=
  a.param = true ∨ b.param = true ∨ a.literal = b.literal

/-- Two endpoints of the same depth that overlap at every level. -/
def Overlapping (a b : List EndpointSegment) : Prop := List.Forall₂ EndpointSegment.Overlaps a b

theorem compareLevels_fst_of_overlapping {a b : List EndpointSegment} (h : Overlapping a b) :
    (compareLevels a b).1 = true := by
  induction h with
  | nil => rfl
  | @cons x y xs ys hxy _ ih =>
    rcases x with ⟨lx, px⟩
    rcases y with ⟨ly, py⟩
    simp only [EndpointSegment.Overlaps] at hxy
    cases px with
    | true => cases py <;> simp [compareLevels, ih]
    | false =>
      cases py with
      | true => simp [compareLevels, ih]
      | false =>
        have hlit : lx = ly := by simpa using hxy
        simp [compareLevels, ih, hlit]

/-- An endpoint that passes the inner loop overlaps with none of the later ones. -/
theorem checkAgainst_ok {a : Mapping × List EndpointSegment}
    {bs : List (Mapping × List EndpointSegment)} (h : checkAgainst a bs = .ok ()) :
    ∀ b ∈ bs, ¬ Overlapping a.2 b.2 := by
  induction bs with
  | nil => simp
  | cons b bs ih =>
    rw [List.forall_mem_cons]
    simp only [checkAgainst] at h
    split_ifs at h with hlen hid hov
    · exact ⟨fun hov => hlen (List.Forall₂.length_eq hov), ih h⟩
    · exact absurd h (errorf_ne_ok _ _ _)
    · exact absurd h (errorf_ne_ok _ _ _)
    · exact ⟨fun hov' => hov (compareLevels_fst_of_overlapping hov'), ih h⟩

theorem checkEndpointUniqueness_ok {ms : List (Mapping × List EndpointSegment)}
    (h : checkEndpointUniqueness ms = .ok ()) : ms.Pairwise fun a b => ¬ Overlapping a.2 b.2 := by
  induction ms with
  | nil => exact .nil
  | cons a as ih =>
    simp only [checkEndpointUniqueness, bind_eq_ok_iff] at h
    obtain ⟨_, hagainst, hrest⟩ := h
    exact .cons (checkAgainst_ok hagainst) (ih hrest)

/-- The attributes that are uniform across an object-aggregated definition. -/
def SameObjectAttributes (ref m : Mapping) : Prop :=
  m.reliability = ref.reliability ∧ m.retention = ref.retention ∧ m.expiry = ref.expiry ∧
    m.explicitTimestamp = ref.explicitTimestamp ∧
    m.databaseRetentionPolicy = ref.databaseRetentionPolicy ∧
    m.databaseRetentionTTL = ref.databaseRetentionTTL

theorem sameObjectAttributes_ok {ref m : Mapping} (h : sameObjectAttributes ref m = .ok ()) :
    SameObjectAttributes ref m := by
  unfold sameObjectAttributes at h
  split at h
  · exact absurd h (errorf_ne_ok _ _ _)
  · rename_i hnone
    simpa [objectAttributes, SameObjectAttributes] using hnone

/-- One mapping of an object-aggregated definition relative to the first. -/
structure ObjectShape (first a : Mapping × List EndpointSegment) : Prop where
  length_eq : a.2.length = first.2.length
  dropLast_eq : a.2.dropLast = first.2.dropLast
  last_literal : (a.2.getLast?.map (·.param)).getD false = false
  attributes : SameObjectAttributes first.1 a.1

theorem checkObjectMapping_ok {first a : Mapping × List EndpointSegment}
    (h : checkObjectMapping first a = .ok ()) : ObjectShape first a := by
  unfold checkObjectMapping at h
  split_ifs at h with hlen hpre hlast
  · exact absurd h (errorf_ne_ok _ _ _)
  · exact absurd h (errorf_ne_ok _ _ _)
  · exact absurd h (errorf_ne_ok _ _ _)
  · exact ⟨not_not.1 hlen, not_not.1 hpre, by simpa using hlast, sameObjectAttributes_ok h⟩

theorem checkObjectMappings_ok {first : Mapping × List EndpointSegment}
    {as : List (Mapping × List EndpointSegment)} (h : checkObjectMappings first as = .ok ()) :
    ∀ a ∈ as, ObjectShape first a := by
  induction as with
  | nil => simp
  | cons a as ih =>
    simp only [checkObjectMappings, bind_eq_ok_iff] at h
    obtain ⟨_, ha, has⟩ := h
    exact List.forall_mem_cons.2 ⟨checkObjectMapping_ok ha, ih has⟩

/-- The attribute rules a mapping of an accepted definition follows. -/
structure MappingRules (type : InterfaceType) (m : Mapping) : Prop where
  datastream_only : type = .properties → m.reliability = .unreliable ∧ m.retention = .discard ∧
    m.expiry = 0 ∧ m.explicitTimestamp = false ∧ m.databaseRetentionPolicy = .noTTL ∧
    m.databaseRetentionTTL = 0 ∧ m.required = false ∧ m.encrypted = false
  properties_only : type = .datastream → m.allowUnset = false
  expiry_nonneg : 0 ≤ m.expiry
  ttl_band : m.databaseRetentionPolicy = .useTTL →
    minDatabaseRetentionTTL ≤ m.databaseRetentionTTL ∧ m.databaseRetentionTTL < maxDatabaseRetentionTTL
  ttl_zero : m.databaseRetentionPolicy = .noTTL → m.databaseRetentionTTL = 0

theorem buildRetention_ok {endpoint : Bytes} {policy : DatabaseRetentionPolicy} {ttl : Option Int}
    {index : Nat} {t : Int} (h : buildRetention endpoint policy ttl index = .ok (t, [])) :
    (policy = .useTTL → minDatabaseRetentionTTL ≤ t ∧ t < maxDatabaseRetentionTTL) ∧
      (policy = .noTTL → t = 0) := by
  cases policy with
  | noTTL =>
    cases ttl with
    | none => simp_all [buildRetention]
    | some _ => simp [buildRetention] at h
  | useTTL =>
    cases ttl with
    | none => simp [buildRetention] at h
    | some ttl =>
      simp only [buildRetention] at h
      split_ifs at h with hlo hhi
      · simp at h
      · simp at h
      · simp only [Except.ok.injEq, Prod.mk.injEq, and_true] at h
        exact ⟨fun _ => ⟨by omega, by omega⟩, nofun⟩

/-- A mapping accepted without a violation has levels and follows the attribute rules. -/
theorem buildMapping_ok {raw : MappingJSON} {type : InterfaceType} {index : Nat} {m : Mapping}
    {segs : List EndpointSegment} (h : buildMapping raw type index = .ok (m, segs, [])) :
    splitEndpoint m.endpoint = .ok segs ∧ MappingRules type m := by
  unfold buildMapping at h
  split at h
  · exact absurd h (errorf_ne_ok _ _ _)
  · exact absurd h (errorf_ne_ok _ _ _)
  · rename_i endpoint vtype hend htype
    rw [bind_eq_ok_iff] at h
    obtain ⟨segs', hsegs, h⟩ := h
    cases type with
    | properties =>
      simp only at h
      split at h
      · exact absurd h (errorf_ne_ok _ _ _)
      · simp only [Except.ok.injEq, Prod.mk.injEq] at h
        obtain ⟨rfl, rfl, -⟩ := h
        exact ⟨hsegs, fun _ => ⟨rfl, rfl, rfl, rfl, rfl, rfl, rfl, rfl⟩, nofun,
          Int.le_refl 0, nofun, fun _ => rfl⟩
    | datastream =>
      simp only at h
      split_ifs at h with hunset hexp
      · exact absurd h (errorf_ne_ok _ _ _)
      · exact absurd h (errorf_ne_ok _ _ _)
      · rw [bind_eq_ok_iff] at h
        obtain ⟨⟨ttl, vs'⟩, hret, h⟩ := h
        simp only [Except.ok.injEq, Prod.mk.injEq, List.append_eq_nil_iff] at h
        obtain ⟨rfl, rfl, -, rfl⟩ := h
        obtain ⟨huse, hno⟩ := buildRetention_ok hret
        exact ⟨hsegs, nofun, fun _ => rfl, Int.not_lt.1 hexp, huse, hno⟩

/-- The mappings accepted without a violation. -/
theorem buildMappings_ok {type : InterfaceType} {raws : List MappingJSON} :
    ∀ {index : Nat} {ms : List (Mapping × List EndpointSegment)},
      buildMappings type index raws = .ok (ms, []) →
        ms.length = raws.length ∧ ∀ p ∈ ms, splitEndpoint p.1.endpoint = .ok p.2 ∧ MappingRules type p.1 := by
  induction raws with
  | nil =>
    intro index ms h
    simp only [buildMappings, Except.ok.injEq, Prod.mk.injEq, and_true] at h
    subst h
    simp
  | cons raw raws ih =>
    intro index ms h
    simp only [buildMappings, bind_eq_ok_iff, Prod.exists] at h
    obtain ⟨m, segs, vs, hm, ms', vs', hms, h⟩ := h
    simp only [Except.ok.injEq, Prod.mk.injEq, List.append_eq_nil_iff] at h
    obtain ⟨rfl, rfl, rfl⟩ := h
    obtain ⟨hlen, hall⟩ := ih hms
    exact ⟨by simp [hlen], List.forall_mem_cons.2 ⟨buildMapping_ok hm, hall⟩⟩

/-- What holds of every accepted definition. -/
structure Interface.WellFormed (iface : Interface) : Prop where
  name_length : iface.name.length ≤ maxNameLength
  name_ok : interfaceNameOK iface.name = true
  major_nonneg : 0 ≤ iface.major
  minor_nonneg : 0 ≤ iface.minor
  version_ne_zero : ¬ (iface.major = 0 ∧ iface.minor = 0)
  mappings_ne_nil : iface.mappings ≠ []
  mappings_length : iface.mappings.length ≤ maxMappings
  levels : ∀ m ∈ iface.mappings, splitEndpoint m.endpoint = .ok m.levels
  rules : ∀ m ∈ iface.mappings, MappingRules iface.type m
  disjoint : iface.mappings.Pairwise fun a b => ¬ Overlapping a.levels b.levels
  object_datastream : iface.aggregation = .object → iface.type = .datastream
  object_shape : iface.aggregation = .object → ∀ first ∈ iface.mappings.head?,
    ∀ m ∈ iface.mappings, ObjectShape (first, first.levels) (m, m.levels)

theorem require_eq_ok_iff {ok : Bool} {format : String} {args : List FmtArg} {u : Unit} :
    require ok format args = .ok u ↔ ok = true := by
  cases ok <;> simp [require]

theorem requireField_eq_ok_iff {α : Type} {field : String} {v : Option α} {a : α} :
    requireField field v = .ok a ↔ v = some a := by
  cases v <;> simp [requireField]

/-- The levels found by the loop are those of the mappings. -/
theorem map_levels_eq {ms : List (Mapping × List EndpointSegment)}
    (h : ∀ p ∈ ms, splitEndpoint p.1.endpoint = .ok p.2) :
    ms = (ms.map Prod.fst).map fun m => (m, m.levels) := by
  rw [List.map_map]
  conv_lhs => rw [← List.map_id ms]
  refine List.map_congr_left fun p hp => ?_
  show p = (p.1, p.1.levels)
  rw [Mapping.levels_eq (h p hp)]

theorem buildInterface_wellFormed {raw : InterfaceJSON} {iface : Interface}
    (h : buildInterface raw = .ok iface) : iface.WellFormed := by
  unfold buildInterface at h
  simp only [bind_eq_ok_iff, require_eq_ok_iff, requireField_eq_ok_iff, mapError_eq_ok_iff,
    exists_and_left, exists_const, decide_eq_true_eq] at h
  obtain ⟨name, -, major, -, minor, -, type, -, ownership, -, hlen, hname, hmajor, hminor, hver,
    hobj, hne, hmax, ⟨ms, vs⟩, hms, h⟩ := h
  have hfinal : vs = [] ∧ checkEndpointUniqueness ms = .ok () ∧
      (iface.aggregation = .object → checkObjectAggregation ms = .ok ()) ∧
      iface = { name, major, minor, type, ownership,
                aggregation := raw.normalize.1.aggregation.getD .individual,
                description := raw.normalize.1.description, doc := raw.normalize.1.doc,
                mappings := ms.map Prod.fst } := by
    split_ifs at h with hvs hagg
    · simp only [bind_eq_ok_iff, mapError_eq_ok_iff, Except.ok.injEq] at h
      obtain ⟨_, huniq, _, hshape, rfl⟩ := h
      simp only [not_not, List.append_eq_nil_iff] at hvs
      exact ⟨hvs.2, huniq, fun _ => hshape, rfl⟩
    · simp only [bind_eq_ok_iff, mapError_eq_ok_iff, Except.ok.injEq] at h
      obtain ⟨_, huniq, _, _, rfl⟩ := h
      simp only [not_not, List.append_eq_nil_iff] at hvs
      exact ⟨hvs.2, huniq, fun ha => absurd ha hagg, rfl⟩
  obtain ⟨rfl, huniq, hshape, rfl⟩ := hfinal
  obtain ⟨hlength, hall⟩ := buildMappings_ok hms
  have hlevels := map_levels_eq fun p hp => (hall p hp).1
  refine
    { name_length := hlen, name_ok := hname, major_nonneg := hmajor, minor_nonneg := hminor,
      version_ne_zero := ?_, mappings_ne_nil := ?_, mappings_length := ?_, levels := ?_,
      rules := ?_, disjoint := ?_, object_datastream := ?_, object_shape := ?_ }
  · rintro ⟨h1, h2⟩
    simp only at h1 h2
    simp [h1, h2] at hver
  · intro hnil
    rw [List.map_eq_nil_iff.1 hnil, List.length_nil] at hlength
    rw [List.length_eq_zero_iff.1 hlength.symm] at hne
    simp at hne
  · simpa [hlength] using hmax
  · intro m hm
    obtain ⟨p, hp, rfl⟩ := List.mem_map.1 hm
    rw [Mapping.levels_eq (hall p hp).1, (hall p hp).1]
  · intro m hm
    obtain ⟨p, hp, rfl⟩ := List.mem_map.1 hm
    exact (hall p hp).2
  · have hpair := checkEndpointUniqueness_ok huniq
    rw [hlevels, List.pairwise_map] at hpair
    exact hpair
  · intro hagg
    simp only at hagg
    rw [hagg] at hobj
    cases type with
    | datastream => rfl
    | properties => simp at hobj
  · intro hagg first hfirst m hm
    have hcheck := hshape hagg
    rw [hlevels] at hcheck
    cases hl : ms.map Prod.fst with
    | nil => simp [hl] at hm
    | cons a as =>
      simp only [hl, List.head?_cons, Option.mem_some_iff] at hfirst hm
      subst hfirst
      rw [hl, List.map_cons, checkObjectAggregation] at hcheck
      exact checkObjectMappings_ok hcheck _ (List.mem_map_of_mem (f := fun m => (m, m.levels)) hm)

/-- Every definition `ParseInterface` accepts is well formed. -/
theorem parseInterface_wellFormed {data : Bytes} {iface : Interface}
    (h : parseInterface data = .ok iface) : iface.WellFormed := by
  simp only [parseInterface, parseInterfaceCanonical, bind_eq_ok_iff, Except.ok.injEq] at h
  obtain ⟨⟨iface', canon⟩, ⟨raw, -, iface'', hbuild, heq⟩, rfl⟩ := h
  obtain ⟨rfl, -⟩ := heq
  exact buildInterface_wellFormed hbuild

end Astrate.InterfaceSchema
