import Astrate.InterfaceSchema.Compat

/-!
# Installed interfaces

`InstallInterface` and `UpdateInterface` of `internal/store/interfaces.go` over the tables
`interfaces` and `endpoints`. The database is one that raises no error of its own: apart from the
uniqueness of `(realm_id, name, major_version)`, which the source handles, every statement succeeds.
The columns `name` and `major_version` are generated from the stored JSON text, not from the parsed
definition, and `UpdateInterface` finds its row by them.

`updateInterface_ok_iff` says exactly when an update compatible in the sense of `CheckMinorUpgrade`
goes through: the generated columns are the parsed name and major version, and every endpoint of the
installed definition is declared again under the same text.
-/

set_option autoImplicit false

namespace Astrate.Store

open Astrate.GoLib
open Astrate.GoLib.Json (Token)
open Astrate.InterfaceSchema

/-! ## Tables -/

/-- The last member of a JSON object under exactly this name, which is the one `jsonb` keeps. -/
def jsonMember (name : Bytes) : Token → Option Token
  | .object _ members =>
    (members.reverse.find? fun m => Json.unquote m.1 == some name).map Prod.snd
  | _ => none

/-- The column `name`, generated as `definition->>'interface_name'`. -/
def generatedName (definition : Bytes) : Option Bytes := do
  let doc ← Json.scanDocument definition
  let v ← jsonMember (utf8 "interface_name") doc
  if v.isNull then none else Json.decodeString [] v

/-- The column `major_version`, generated as `(definition->>'version_major')::int`. -/
def generatedMajor (definition : Bytes) : Option Int := do
  let doc ← Json.scanDocument definition
  let v ← jsonMember (utf8 "version_major") doc
  if v.isNull then none else Json.decodeInt 0 v

/-- The column `minor_version`, generated as `(definition->>'version_minor')::int`. -/
def generatedMinor (definition : Bytes) : Option Int := do
  let doc ← Json.scanDocument definition
  let v ← jsonMember (utf8 "version_minor") doc
  if v.isNull then none else Json.decodeInt 0 v

/-- A row of `interfaces`; the generated columns are computed from `definition`. -/
structure InterfaceRow where
  id : Nat
  realmID : Int
  definition : Bytes
  deriving DecidableEq, Repr

/-- The generated column `name`. -/
def InterfaceRow.name (r : InterfaceRow) : Option Bytes := generatedName r.definition

/-- The generated column `major_version`. -/
def InterfaceRow.major (r : InterfaceRow) : Option Int := generatedMajor r.definition

/-- The generated column `minor_version`. -/
def InterfaceRow.minor (r : InterfaceRow) : Option Int := generatedMinor r.definition

/-- A row of `endpoints`. -/
structure EndpointRow where
  id : Nat
  interfaceID : Nat
  endpoint : Bytes
  valueType : ValueType
  reliability : Reliability
  retention : Retention
  expiry : Int
  databaseRetentionPolicy : DatabaseRetentionPolicy
  databaseRetentionTTL : Option Int
  explicitTimestamp : Bool
  allowUnset : Bool
  deriving DecidableEq, Repr

/-- The two tables with their identity columns: identifiers are handed out in order, and every
endpoint references an interface. -/
structure InterfaceDb where
  interfaces : List InterfaceRow
  endpoints : List EndpointRow
  nextInterfaceID : Nat
  nextEndpointID : Nat
  fresh : ∀ r ∈ interfaces, r.id < nextInterfaceID
  references : ∀ e ∈ endpoints, ∃ r ∈ interfaces, r.id = e.interfaceID
  deriving DecidableEq

/-- The empty tables. -/
def InterfaceDb.empty : InterfaceDb := ⟨[], [], 1, 1, by simp, by simp⟩

/-- `StoredInterface`: an installed interface with its endpoint identifiers. -/
structure StoredInterface where
  id : Nat
  realmID : Int
  name : Bytes
  major : Int
  minor : Int
  type : InterfaceType
  ownership : Ownership
  aggregation : Aggregation
  definition : Bytes
  endpoints : List (Bytes × Nat)
  deriving DecidableEq, Repr

/-- The errors of transactions. -/
inductive StoreError where
  | parse (e : ParseError)
  | alreadyExists (name : Bytes) (major : Int)
  | notFound (name : Bytes) (major : Int)
  | dropsEndpoint (name : Bytes) (major : Int) (endpoint : Bytes)
  deriving DecidableEq, Repr

/-! ## Statements -/

/-- The row `insertEndpoint` writes for a mapping. -/
def endpointRow (id interfaceID : Nat) (m : Mapping) : EndpointRow where
  id := id
  interfaceID := interfaceID
  endpoint := m.endpoint
  valueType := m.type
  reliability := m.reliability
  retention := m.retention
  expiry := m.expiry
  databaseRetentionPolicy := m.databaseRetentionPolicy
  databaseRetentionTTL :=
    if m.databaseRetentionPolicy = .useTTL then some m.databaseRetentionTTL else none
  explicitTimestamp := m.explicitTimestamp
  allowUnset := m.allowUnset

/-- `insertEndpoint` for a row that exists. -/
def InterfaceDb.insertEndpoint (db : InterfaceDb) (interfaceID : Nat) (m : Mapping)
    (h : ∃ r ∈ db.interfaces, r.id = interfaceID) : InterfaceDb :=
  { db with
    endpoints := db.endpoints ++ [endpointRow db.nextEndpointID interfaceID m]
    nextEndpointID := db.nextEndpointID + 1
    references := forall_mem_concat db.references h }

/-- The loop of `InstallInterface`: one row per mapping, and the identifiers by endpoint. -/
def InterfaceDb.insertEndpoints (interfaceID : Nat) :
    List Mapping → (db : InterfaceDb) → (∃ r ∈ db.interfaces, r.id = interfaceID) →
      List (Bytes × Nat) → InterfaceDb × List (Bytes × Nat)
  | [], db, _, endpoints => (db, endpoints)
  | m :: ms, db, h, endpoints =>
    insertEndpoints interfaceID ms (db.insertEndpoint interfaceID m h) h
      (mapSet endpoints m.endpoint db.nextEndpointID)

/-- The loop of `UpdateInterface`: the endpoints that exist are skipped. -/
def InterfaceDb.insertNewEndpoints (interfaceID : Nat) :
    List Mapping → (db : InterfaceDb) → (∃ r ∈ db.interfaces, r.id = interfaceID) →
      List (Bytes × Nat) → InterfaceDb × List (Bytes × Nat)
  | [], db, _, existing => (db, existing)
  | m :: ms, db, h, existing =>
    if (existing.lookup m.endpoint).isSome then insertNewEndpoints interfaceID ms db h existing
    else
      insertNewEndpoints interfaceID ms (db.insertEndpoint interfaceID m h) h
        (mapSet existing m.endpoint db.nextEndpointID)

/-- The rows of a realm with this name and major version. -/
def InterfaceDb.find (db : InterfaceDb) (realmID : Int) (name : Bytes) (major : Int) : Option InterfaceRow :=
  db.interfaces.find? fun r => r.realmID == realmID && r.name == some name && r.major == some major

/-- `loadEndpointIDs`. -/
def InterfaceDb.loadEndpointIDs (db : InterfaceDb) (interfaceID : Nat) : List (Bytes × Nat) :=
  (db.endpoints.filter fun e => e.interfaceID == interfaceID).map fun e => (e.endpoint, e.id)

/-- `INSERT INTO interfaces`. -/
def InterfaceDb.insertInterface (db : InterfaceDb) (realmID : Int) (definition : Bytes) : InterfaceDb where
  interfaces := db.interfaces ++ [⟨db.nextInterfaceID, realmID, definition⟩]
  endpoints := db.endpoints
  nextInterfaceID := db.nextInterfaceID + 1
  nextEndpointID := db.nextEndpointID
  fresh := forall_mem_concat (fun r hr => Nat.lt_succ_of_lt (db.fresh r hr)) (Nat.lt_succ_self _)
  references := by
    intro e he
    obtain ⟨r, hr, hid⟩ := db.references e he
    exact ⟨r, List.mem_append_left _ hr, hid⟩

/-- `UPDATE interfaces SET definition`. -/
def InterfaceDb.setDefinition (db : InterfaceDb) (id : Nat) (definition : Bytes) : InterfaceDb where
  interfaces := db.interfaces.map fun r => if r.id = id then { r with definition } else r
  endpoints := db.endpoints
  nextInterfaceID := db.nextInterfaceID
  nextEndpointID := db.nextEndpointID
  fresh := by
    intro r hr
    obtain ⟨row, hrow, rfl⟩ := List.mem_map.1 hr
    have := db.fresh row hrow
    split <;> exact this
  references := by
    intro e he
    obtain ⟨r, hr, hid⟩ := db.references e he
    refine ⟨_, List.mem_map_of_mem hr, ?_⟩
    split <;> exact hid

/-- The interface a successful call returns. -/
def storedInterface (id : Nat) (realmID : Int) (iface : Interface) (definition : Bytes)
    (endpoints : List (Bytes × Nat)) : StoredInterface where
  id := id
  realmID := realmID
  name := iface.name
  major := iface.major
  minor := iface.minor
  type := iface.type
  ownership := iface.ownership
  aggregation := iface.aggregation
  definition := definition
  endpoints := endpoints

/-- The unique constraint on `(realm_id, name, major_version)`: rows with a null column never
conflict. -/
def InterfaceDb.conflicts (db : InterfaceDb) (realmID : Int) (definition : Bytes) : Bool :=
  match generatedName definition, generatedMajor definition with
  | some name, some major => (db.find realmID name major).isSome
  | _, _ => false

theorem InterfaceDb.exists_insertInterface (db : InterfaceDb) (realmID : Int) (definition : Bytes) :
    ∃ r ∈ (db.insertInterface realmID definition).interfaces, r.id = db.nextInterfaceID :=
  ⟨_, List.mem_append_right _ (List.mem_singleton.2 rfl), rfl⟩

/-- `InstallInterface`. -/
def installInterface (db : InterfaceDb) (realmID : Int) (definition : Bytes) :
    Except StoreError (InterfaceDb × StoredInterface) := do
  let iface ← (parseInterface definition).mapError StoreError.parse
  if db.conflicts realmID definition then .error (.alreadyExists iface.name iface.major)
  else
    let r := InterfaceDb.insertEndpoints db.nextInterfaceID iface.mappings
      (db.insertInterface realmID definition) (db.exists_insertInterface realmID definition) []
    .ok (r.1, storedInterface db.nextInterfaceID realmID iface definition r.2)

variable {db : InterfaceDb}

theorem InterfaceDb.exists_setDefinition {id : Nat} (h : ∃ r ∈ db.interfaces, r.id = id) (definition : Bytes) :
    ∃ r ∈ (db.setDefinition id definition).interfaces, r.id = id := by
  obtain ⟨r, hr, hid⟩ := h
  refine ⟨_, List.mem_map_of_mem hr, ?_⟩
  split <;> exact hid

/-- `UpdateInterface`. -/
def updateInterface (db : InterfaceDb) (realmID : Int) (definition : Bytes) :
    Except StoreError (InterfaceDb × StoredInterface) := do
  let iface ← (parseInterface definition).mapError StoreError.parse
  match hfind : db.find realmID iface.name iface.major with
  | none => .error (.notFound iface.name iface.major)
  | some row =>
    let existing := db.loadEndpointIDs row.id
    -- The source ranges over a map; which of several dropped endpoints it names is arbitrary.
    match existing.find? fun e => !(iface.mappings.any fun m => m.endpoint == e.1) with
    | some e => .error (.dropsEndpoint iface.name iface.major e.1)
    | none =>
      let r := InterfaceDb.insertNewEndpoints row.id iface.mappings
        (db.setDefinition row.id definition)
        (InterfaceDb.exists_setDefinition ⟨row, List.mem_of_find?_eq_some hfind, rfl⟩ definition)
        existing
      .ok (r.1, storedInterface row.id realmID iface definition r.2)

/-! ## What a call leaves -/

section Loops

variable {interfaceID : Nat}

/-- The insertion loop leaves the table `interfaces` alone. -/
theorem InterfaceDb.insertEndpoints_interfaces (ms : List Mapping) :
    ∀ (db : InterfaceDb) (h : ∃ r ∈ db.interfaces, r.id = interfaceID)
      (endpoints : List (Bytes × Nat)),
      (insertEndpoints interfaceID ms db h endpoints).1.interfaces = db.interfaces := by
  induction ms with
  | nil => intro db h endpoints; rfl
  | cons m ms ih =>
    intro db h endpoints
    exact ih (db.insertEndpoint interfaceID m h) h _

/-- So does the loop of an update. -/
theorem InterfaceDb.insertNewEndpoints_interfaces (ms : List Mapping) :
    ∀ (db : InterfaceDb) (h : ∃ r ∈ db.interfaces, r.id = interfaceID) (existing : List (Bytes × Nat)),
      (insertNewEndpoints interfaceID ms db h existing).1.interfaces = db.interfaces := by
  induction ms with
  | nil => intro db h existing; rfl
  | cons m ms ih =>
    intro db h existing
    rw [insertNewEndpoints]
    split_ifs
    · exact ih db h existing
    · exact ih (db.insertEndpoint interfaceID m h) h _

/-- After the insertion loop the interface has the endpoints it had and those of the mappings. -/
theorem InterfaceDb.mem_loadEndpointIDs_insertEndpoints (ms : List Mapping) (endpoint : Bytes) :
    ∀ (db : InterfaceDb) (h : ∃ r ∈ db.interfaces, r.id = interfaceID)
      (endpoints : List (Bytes × Nat)),
      (∃ id, (endpoint, id) ∈
          (insertEndpoints interfaceID ms db h endpoints).1.loadEndpointIDs interfaceID) ↔
        (∃ id, (endpoint, id) ∈ db.loadEndpointIDs interfaceID) ∨ ∃ m ∈ ms, m.endpoint = endpoint := by
  induction ms with
  | nil => intro db h endpoints; simp [insertEndpoints]
  | cons m ms ih =>
    intro db h endpoints
    rw [insertEndpoints, ih (db.insertEndpoint interfaceID m h) h]
    have hload : (db.insertEndpoint interfaceID m h).loadEndpointIDs interfaceID =
        db.loadEndpointIDs interfaceID ++ [(m.endpoint, db.nextEndpointID)] := by
      simp [loadEndpointIDs, insertEndpoint, endpointRow]
    have hlast : (∃ id, (endpoint, id) ∈ [(m.endpoint, db.nextEndpointID)]) ↔
        m.endpoint = endpoint := by
      simp [eq_comm]
    simp only [hload, List.mem_append, exists_or, hlast, List.exists_mem_cons_iff, or_assoc]

end Loops

/-- An identifier not yet handed out has no endpoints. -/
theorem InterfaceDb.loadEndpointIDs_next (db : InterfaceDb) : db.loadEndpointIDs db.nextInterfaceID = [] := by
  rw [loadEndpointIDs, List.map_eq_nil_iff, List.filter_eq_nil_iff]
  intro e he
  obtain ⟨r, hr, hid⟩ := db.references e he
  have := db.fresh r hr
  rw [beq_iff_eq]
  omega

/-- What an installation leaves: a new last row for the definition, with exactly the declared
endpoints. -/
structure Installed (db : InterfaceDb) (realmID : Int) (definition : Bytes) (iface : Interface)
    (db' : InterfaceDb) (si : StoredInterface) : Prop where
  noConflict : db.conflicts realmID definition = false
  interfaces : db'.interfaces = db.interfaces ++ [⟨si.id, realmID, definition⟩]
  id : si.id = db.nextInterfaceID
  endpoints : ∀ endpoint, (∃ id, (endpoint, id) ∈ db'.loadEndpointIDs si.id) ↔
    ∃ m ∈ iface.mappings, m.endpoint = endpoint

variable {realmID : Int} {definition : Bytes} {iface : Interface}

variable {db' : InterfaceDb} {si : StoredInterface}

theorem installInterface_ok (hparse : parseInterface definition = .ok iface)
    (h : installInterface db realmID definition = .ok (db', si)) :
    Installed db realmID definition iface db' si := by
  simp only [installInterface, hparse, Except.mapError, bind_eq_ok_iff, Except.ok.injEq, exists_eq_left'] at h
  split at h
  · cases h
  · rename_i hconf
    obtain ⟨rfl, rfl⟩ := h
    refine ⟨by simpa using hconf, ?_, rfl, ?_⟩
    · exact InterfaceDb.insertEndpoints_interfaces _ _ _ _
    · intro endpoint
      have hnone : (db.insertInterface realmID definition).loadEndpointIDs db.nextInterfaceID = [] :=
        db.loadEndpointIDs_next
      exact (InterfaceDb.mem_loadEndpointIDs_insertEndpoints _ _ _ _ _).trans (by
        rw [hnone]
        simp)

/-- The row installed last is found under its generated columns, and under no other. -/
theorem Installed.find_eq_some_iff
    (h : Installed db realmID definition iface db' si)
    (name : Bytes) (major : Int) :
    (∃ row, db'.find realmID name major = some row ∧ row.id = si.id) ↔
      generatedName definition = some name ∧ generatedMajor definition = some major := by
  have hfind : db'.find realmID name major = (db.find realmID name major).or
      ([⟨si.id, realmID, definition⟩].find? fun r : InterfaceRow =>
        r.realmID == realmID && r.name == some name && r.major == some major) := by
    rw [InterfaceDb.find, h.interfaces, List.find?_append, InterfaceDb.find]
  constructor
  · rintro ⟨row, hrow, hid⟩
    rw [hfind, Option.or_eq_some_iff] at hrow
    rcases hrow with hrow | ⟨-, hrow⟩
    · have := db.fresh row (List.mem_of_find?_eq_some hrow)
      rw [hid, h.id] at this
      omega
    · have hrow' := List.find?_some hrow
      rw [List.mem_singleton.1 (List.mem_of_find?_eq_some hrow)] at hrow'
      simpa [InterfaceRow.name, InterfaceRow.major] using hrow'
  · rintro ⟨hname, hmajor⟩
    have hnone : db.find realmID name major = none := by
      simpa [InterfaceDb.conflicts, hname, hmajor] using h.noConflict
    refine ⟨⟨si.id, realmID, definition⟩, ?_, rfl⟩
    rw [hfind, hnone]
    simp [InterfaceRow.name, InterfaceRow.major, hname, hmajor]

/-- An update succeeds exactly when its row is found and every stored endpoint is declared. -/
theorem updateInterface_ok (hparse : parseInterface definition = .ok iface) (id : Nat) :
    (∃ db' si, updateInterface db realmID definition = .ok (db', si) ∧ si.id = id) ↔
      (∃ row, db.find realmID iface.name iface.major = some row ∧ row.id = id) ∧
        ∀ endpoint, (∃ epID, (endpoint, epID) ∈ db.loadEndpointIDs id) →
          ∃ m ∈ iface.mappings, m.endpoint = endpoint := by
  simp only [updateInterface, hparse, Except.mapError, bind_eq_ok_iff, Except.ok.injEq, exists_eq_left']
  split
  · rename_i hnone
    simp [hnone]
  · rename_i row hrow
    split
    · rename_i e he
      have hmem := List.mem_of_find?_eq_some he
      have hundeclared := List.find?_some he
      simp only [reduceCtorEq, false_and, exists_false, false_iff, not_and]
      rintro ⟨row', hrow', rfl⟩ hall
      obtain rfl : row = row' := Option.some.inj (hrow.symm.trans hrow')
      obtain ⟨m, hm, hme⟩ := hall e.1 ⟨e.2, hmem⟩
      have : (iface.mappings.any fun m => m.endpoint == e.1) = true :=
        List.any_eq_true.2 ⟨m, hm, beq_iff_eq.2 hme⟩
      simp [this] at hundeclared
    · rename_i hdeclared
      constructor
      · rintro ⟨db', si, hok, rfl⟩
        obtain ⟨rfl, rfl⟩ := hok
        refine ⟨⟨row, hrow, rfl⟩, ?_⟩
        rintro endpoint ⟨epID, hmem⟩
        have := List.find?_eq_none.1 hdeclared _ hmem
        simpa using this
      · rintro ⟨⟨row', hrow', rfl⟩, -⟩
        obtain rfl : row = row' := Option.some.inj (hrow.symm.trans hrow')
        exact ⟨_, _, rfl, rfl⟩

/-- An update replaces the definition of the row that it finds. -/
theorem updateInterface_interfaces
    (hparse : parseInterface definition = .ok iface) (h : updateInterface db realmID definition = .ok (db', si)) :
    ∃ row, db.find realmID iface.name iface.major = some row ∧
      db'.interfaces = (db.setDefinition row.id definition).interfaces := by
  simp only [updateInterface, hparse, Except.mapError, bind_eq_ok_iff, Except.ok.injEq, exists_eq_left'] at h
  split at h
  · cases h
  · next row hrow =>
    split at h
    · cases h
    · obtain ⟨rfl, -⟩ := h
      exact ⟨row, hrow, InterfaceDb.insertNewEndpoints_interfaces _ _ _ _⟩

/-- `UpdateInterface` after a compatible check: the row installed from the old definition is updated
exactly when its generated columns are the parsed ones and every old endpoint is declared again
under the same text, placeholder names included. -/
theorem updateInterface_ok_iff {data data' : Bytes} {old next : Interface}
    (hold : parseInterface data = .ok old) (hnext : parseInterface data' = .ok next)
    (hup : checkMinorUpgrade old next = .ok ()) {db db' : InterfaceDb} {realmID : Int}
    {si : StoredInterface} (hinstall : installInterface db realmID data = .ok (db', si)) :
    (∃ db'' si', updateInterface db' realmID data' = .ok (db'', si') ∧ si'.id = si.id) ↔
      (generatedName data = some old.name ∧ generatedMajor data = some old.major) ∧
        ∀ om ∈ old.mappings, ∃ nm ∈ next.mappings, nm.endpoint = om.endpoint := by
  have hminor := checkMinorUpgrade_ok (parseInterface_wellFormed hold)
    (parseInterface_wellFormed hnext) hup
  have hinst := installInterface_ok hold hinstall
  rw [updateInterface_ok hnext, hinst.find_eq_some_iff, hminor.name, hminor.major]
  simp only [hinst.endpoints, forall_exists_index, and_imp, forall_apply_eq_imp_iff₂]

/-- A minor version of `sensorDocument` that keeps its endpoints and adds one. -/
def sensorExtensionDocument : Bytes :=
  Json.marshal true <| InterfaceJSON.toAny
    { interfaceName := some (utf8 "org.example.Sensors"), versionMajor := some 1,
      versionMinor := some 3, type := some .datastream, ownership := some .device,
      mappings := .ofList
        [{ endpoint := some (utf8 "/%\x7bid\x7d/enabled"), type := some .boolean },
          { endpoint := some (utf8 "/%\x7bid\x7d/value"), type := some .double },
          { endpoint := some (utf8 "/%\x7bid\x7d/unit"), type := some .string }] }

def sensorExtension : Interface :=
  { sensorInterface with
    minor := 3
    mappings := { endpoint := utf8 "/%\x7bid\x7d/enabled", type := .boolean } :: sensorMappings }

theorem updateInterface_extension :
    ∃ db si, installInterface .empty 1 sensorDocument = .ok (db, si) ∧
      ∃ db' si', updateInterface db 1 sensorExtensionDocument = .ok (db', si') ∧ si'.id = si.id := by
  obtain ⟨⟨db, si⟩, hinstall⟩ : ∃ r, installInterface .empty 1 sensorDocument = .ok r := by
    obtain ⟨r, hr⟩ := Option.isSome_iff_exists.1 (by decide +kernel :
      (installInterface .empty 1 sensorDocument).toOption.isSome = true)
    exact ⟨r, toOption_eq_some_iff.1 hr⟩
  have hparse' : parseInterface sensorExtensionDocument = .ok sensorExtension := by decide +kernel
  refine ⟨db, si, hinstall, (updateInterface_ok_iff parseInterface_sensor hparse' (by decide +kernel)
    hinstall).2 ⟨by decide +kernel, ?_⟩⟩
  exact fun om hom => ⟨om, List.mem_cons_of_mem _ hom, rfl⟩

/-- The next minor version of the sensors only renames a placeholder and adds a mapping. It passes
`CheckMinorUpgrade`, and the store refuses it. -/
theorem updateInterface_refuses_rename :
    parseInterface sensorDocument = .ok sensorInterface ∧
      parseInterface sensorUpgradeDocument = .ok sensorUpgrade ∧
      checkMinorUpgrade sensorInterface sensorUpgrade = .ok () ∧
      ((installInterface .empty 1 sensorDocument).bind fun r =>
          updateInterface r.1 1 sensorUpgradeDocument) =
        .error (.dropsEndpoint (utf8 "org.example.Sensors") 1 (utf8 "/%\x7bid\x7d/value")) := by
  decide +kernel

end Astrate.Store
