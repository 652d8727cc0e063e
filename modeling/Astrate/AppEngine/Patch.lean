import Astrate.GoLib.Calls
import Astrate.Store.Devices

/-!
# Patches of devices and new groups

`applyPatch` and `CreateGroup` of `internal/appengine` check their input against the database and then write in
several statements, each of them on its own. Other calls, failures of the store and deletions of devices come
in between.

Aliases are to be unique in a realm. The ownership check looks at the other devices, and a later statement
merges the patch into the row: two patches that bring the same value can both pass the check
(`alias_shared`). `aliases_unique` says that this is the only way.
-/

set_option autoImplicit false

namespace Astrate.AppEngine

open Astrate.GoLib
open Astrate.Store (Device)

/-- A row of `devices` with its two maps. -/
structure DeviceRow where
  device : Device
  aliases : List (Bytes × Bytes) := []
  attributes : List (Bytes × Bytes) := []
  deriving DecidableEq

/-- The devices of a realm in the order of their ids, and its groups with their members. -/
structure ApiDb where
  devices : List (DeviceID × DeviceRow)
  groups : List (Bytes × List DeviceID)
  deriving DecidableEq

/-- A map of patches: new values, and tags to be removed. -/
abbrev MapPatch := List (Bytes × Option Bytes)

/-- The body of a patch. -/
structure DevicePatch where
  aliases : MapPatch := []
  attributes : MapPatch := []
  credentialsInhibited : Option Bool := none
  deriving DecidableEq

/-- How a patch names its device. -/
inductive Address where
  | byID (deviceID : Bytes)
  | byAlias (value : Bytes)
  | inGroup (groupName deviceID : Bytes)
  deriving DecidableEq

/-- The errors of calls. -/
inductive ApiError where
  | invalidAlias
  | aliasAlreadyInUse
  | invalidAttributes
  | aliasTagNotFound
  | attributeKeyNotFound
  | groupNotFound
  | groupAlreadyExists
  | alreadyExists
  | notFound
  /-- `FieldErrors` of `devices`: the ids that do not exist. -/
  | devicesMustExist (missing : List Bytes)
  | store
  /-- The read behind the writes. -/
  | finalRead
  deriving DecidableEq

/-- The statements of a patch. -/
inductive Write where
  | aliases (patch : MapPatch)
  | attributes (patch : MapPatch)
  | inhibited (flag : Bool)
  deriving DecidableEq

/-- The point of a call, with what it has found out. -/
inductive ApiCall where
  | patch (address : Address) (p : DevicePatch)
  /-- `applyPatch`, before the ownership check. -/
  | fetched (id : DeviceID) (d : DeviceRow) (p : DevicePatch)
  /-- `applyPatch`, before its next statement; `dirty` if there was one. -/
  | writing (id : DeviceID) (writes : List Write) (dirty : Bool)
  /-- `CreateGroup`, with the texts still to be looked up, the devices found and the texts that name none. -/
  | checking (name : Bytes) (todo : List Bytes) (ids : List DeviceID) (missing : List Bytes)
  /-- `CreateGroup`, behind the insertion of the group. -/
  | adding (name : Bytes) (ids : List DeviceID)
  | returned (err : Option ApiError)
  deriving DecidableEq

/-! ## The statements -/

def mergeEntry (m : List (Bytes × Bytes)) : Bytes × Option Bytes → List (Bytes × Bytes)
  | (tag, none) => mapDelete m tag
  | (tag, some v) => mapSet m tag v

/-- `(column - removals) || additions`. -/
def mergePatch (m : List (Bytes × Bytes)) (patch : MapPatch) : List (Bytes × Bytes) :=
  patch.foldl mergeEntry m

/-- The row behind a write. -/
def Write.apply (w : Write) (d : DeviceRow) : DeviceRow :=
  match w with
  | .aliases patch => { d with aliases := mergePatch d.aliases patch }
  | .attributes patch => { d with attributes := mergePatch d.attributes patch }
  | .inhibited flag =>
    { d with device.status :=
        if flag then .inhibited
        else if d.device.firstCredentialsRequest = none then .registered
        else .confirmed }

/-- The statements that `applyPatch` makes of a patch. -/
def DevicePatch.writes (p : DevicePatch) : List Write :=
  (if p.aliases.isEmpty then [] else [.aliases p.aliases]) ++
    (if p.attributes.isEmpty then [] else [.attributes p.attributes]) ++
    p.credentialsInhibited.toList.map .inhibited

/-- The reads that find the device of a patch. -/
def resolve (db : ApiDb) : Address → Except ApiError (DeviceID × DeviceRow)
  | .byID deviceID => byID deviceID
  | .byAlias value =>
    match db.devices.find? fun e => e.2.aliases.any fun a => a.2 == value with
    | none => .error .notFound
    | some e => .ok e
  | .inGroup groupName deviceID =>
    match db.groups.lookup groupName with
    | none => .error .groupNotFound
    | some members => do
        let (id, d) ← byID deviceID
        if members.contains id then .ok (id, d) else .error .notFound
where
  byID (deviceID : Bytes) : Except ApiError (DeviceID × DeviceRow) :=
    match DeviceID.parse deviceID with
    | .error _ => .error .notFound
    | .ok id =>
      match db.devices.lookup id with
      | none => .error .notFound
      | some d => .ok (id, d)

/-- `aliasValuesTaken`: the new values and those of the tags to be removed, if another device has one. -/
def aliasValuesTaken (db : ApiDb) (id : DeviceID) (d : DeviceRow) (patch : MapPatch) : Bool :=
  let values := patch.filterMap fun e => e.2 <|> d.aliases.lookup e.1
  db.devices.any fun e => e.1 != id && e.2.aliases.any fun a => values.contains a.2

/-- `applyPatch` up to its statements. -/
def applyPatchCheck (db : ApiDb) (id : DeviceID) (d : DeviceRow) (p : DevicePatch) : ApiCall :=
  if p.aliases.any fun e => e.1.isEmpty || e.2 == some [] then .returned (some .invalidAlias)
  else if aliasValuesTaken db id d p.aliases then .returned (some .aliasAlreadyInUse)
  else if p.attributes.any fun e => e.1.isEmpty then .returned (some .invalidAttributes)
  else if p.aliases.any fun e => e.2.isNone && (d.aliases.lookup e.1).isNone then
    .returned (some .aliasTagNotFound)
  else if p.attributes.any fun e => e.2.isNone && (d.attributes.lookup e.1).isNone then
    .returned (some .attributeKeyNotFound)
  else .writing id p.writes false

/-- One statement of a patch. -/
def patchDevice (db : ApiDb) (id : DeviceID) (w : Write) (rest : List Write) : ApiDb × ApiCall :=
  match db.devices.lookup id with
  | none => (db, .returned (some .notFound))
  | some d => ({ db with devices := mapSet db.devices id (w.apply d) }, .writing id rest true)

/-- `CreateGroup`: the lookup of one device. -/
def checkDevice (db : ApiDb) (name raw : Bytes) (todo : List Bytes) (ids : List DeviceID)
    (missing : List Bytes) : ApiCall :=
  match DeviceID.parse raw with
  | .error _ => .checking name todo ids (missing ++ [raw])
  | .ok id =>
    match db.devices.lookup id with
    | none => .checking name todo ids (missing ++ [raw])
    | some _ => .checking name todo (if ids.contains id then ids else ids ++ [id]) missing

/-- `Store.CreateGroup`, if all devices exist. -/
def storeGroup (db : ApiDb) (name : Bytes) (ids : List DeviceID) (missing : List Bytes) : ApiDb × ApiCall :=
  if !missing.isEmpty then (db, .returned (some (.devicesMustExist missing)))
  else
    match db.groups.lookup name with
    | some _ => (db, .returned (some .groupAlreadyExists))
    | none => ({ db with groups := mapSet db.groups name [] }, .adding name ids)

/-- `AddGroupDevice`. -/
def addGroupDevice (db : ApiDb) (name : Bytes) (id : DeviceID) (rest : List DeviceID) : ApiDb × ApiCall :=
  match db.groups.lookup name, db.devices.lookup id with
  | some members, some _ =>
    if members.contains id then (db, .returned (some .alreadyExists))
    else ({ db with groups := mapSet db.groups name (members ++ [id]) }, .adding name rest)
  | _, _ => (db, .returned (some .notFound))

/-- The error of the call if its next step fails in the store; none if this step does not go there. -/
def ApiCall.failed : ApiCall → Option ApiError
  | .fetched _ _ p => if p.aliases.isEmpty then none else some .store
  | .writing _ [] _ => some .finalRead
  | .checking _ (raw :: _) _ _ => (DeviceID.parse raw).toOption.map fun _ => .store
  | .checking _ [] _ missing => if missing.isEmpty then some .store else none
  | .adding _ [] | .returned _ => none
  | _ => some .store

/-- The next step of a call; an access to the database may fail instead. -/
def advance (fails : Bool) (call : ApiCall) (db : ApiDb) : Option (ApiDb × ApiCall) :=
  match fails, call with
  | true, call => call.failed.map fun err => (db, .returned (some err))
  | false, .returned _ => none
  | false, .patch address p =>
    match resolve db address with
    | .error err => some (db, .returned (some err))
    | .ok (id, d) => some (db, .fetched id d p)
  | false, .fetched id d p => some (db, applyPatchCheck db id d p)
  | false, .writing id (w :: rest) _ => some (patchDevice db id w rest)
  | false, .writing id [] _ =>
    some (db, .returned (if (db.devices.lookup id).isNone then some .finalRead else none))
  | false, .checking name (raw :: todo) ids missing => some (db, checkDevice db name raw todo ids missing)
  | false, .checking name [] ids missing => some (storeGroup db name ids missing)
  | false, .adding name (id :: ids) => some (addGroupDevice db name id ids)
  | false, .adding _ [] => some (db, .returned none)

/-- A device is deleted, and leaves its groups. -/
def deleteDevice (id : DeviceID) (db : ApiDb) : Option ApiDb :=
  some ⟨mapDelete db.devices id, db.groups.map fun g => (g.1, g.2.filter fun m => m != id)⟩

/-- Calls, while devices are deleted. -/
def apiStep : Calls ApiDb ApiCall → CallsAction Bool DeviceID → Option (Calls ApiDb ApiCall) :=
  Calls.step advance deleteDevice

/-! ## Aliases -/

def DeviceRow.aliasValues (d : DeviceRow) : List Bytes := d.aliases.map Prod.snd

/-- The values that a statement brings. -/
def Write.newAliases : Write → List Bytes
  | .aliases patch => patch.filterMap Prod.snd
  | _ => []

def newAliases (writes : List Write) : List Bytes := writes.flatMap Write.newAliases

/-- No two devices have an alias in common. -/
def AliasesUnique (db : ApiDb) : Prop :=
  ∀ i di j dj, db.devices.lookup i = some di → db.devices.lookup j = some dj → i ≠ j →
    ∀ v ∈ di.aliasValues, v ∉ dj.aliasValues

/-- The values that a call is about to write belong to no other device. -/
def ApiCall.relies : ApiCall → ApiDb → Prop
  | .writing id writes _, db =>
    ∀ j dj, db.devices.lookup j = some dj → j ≠ id → ∀ v ∈ newAliases writes, v ∉ dj.aliasValues
  | _, _ => True

/-- The calls are not about to give one alias to two devices. -/
def ApiCall.apart : ApiCall → ApiCall → Prop
  | .writing id writes _, .writing id' writes' _ => id = id' ∨ ∀ v ∈ newAliases writes, v ∉ newAliases writes'
  | _, _ => True

instance : DecidableRel ApiCall.apart := fun p q => by
  cases p <;> cases q <;> unfold ApiCall.apart <;> infer_instance

theorem ApiCall.apart_symm (p q : ApiCall) (h : p.apart q) : q.apart p := by
  cases p <;> cases q <;> try trivial
  exact h.imp Eq.symm fun h v hv hv' => h v hv' hv

theorem mem_mergePatch {patch : MapPatch} {m : List (Bytes × Bytes)} {v : Bytes}
    (h : v ∈ (mergePatch m patch).map Prod.snd) : v ∈ m.map Prod.snd ∨ v ∈ patch.filterMap Prod.snd := by
  induction patch generalizing m with
  | nil => exact Or.inl h
  | cons e patch ih =>
    obtain ⟨k, ov⟩ := e
    rcases ih (show v ∈ (mergePatch (mergeEntry m (k, ov)) patch).map Prod.snd from h) with hm | hrest
    · cases ov with
      | none =>
        obtain ⟨e', he', rfl⟩ := List.mem_map.1 hm
        exact Or.inl (List.mem_map_of_mem (List.mem_filter.1 he').1)
      | some v₀ =>
        obtain ⟨e', he', rfl⟩ := List.mem_map.1 hm
        rcases mem_mapSet he' with he' | rfl
        · exact Or.inl (List.mem_map_of_mem he')
        · exact Or.inr List.mem_cons_self
    · refine Or.inr ?_
      cases ov with
      | none => exact hrest
      | some v₀ => exact List.mem_cons_of_mem _ hrest

/-- A statement brings no alias beyond its own. -/
theorem mem_aliasValues_apply {w : Write} {d : DeviceRow} {v : Bytes} (h : v ∈ (w.apply d).aliasValues)
    (rest : List Write) : v ∈ d.aliasValues ∨ v ∈ newAliases (w :: rest) := by
  cases w with
  | aliases patch =>
    refine (mem_mergePatch h).imp_right fun h => ?_
    exact List.mem_append.2 (Or.inl h)
  | attributes patch => exact Or.inl h
  | inhibited flag => exact Or.inl h

theorem newAliases_tail {w : Write} {rest : List Write} {v : Bytes} (h : v ∈ newAliases rest) :
    v ∈ newAliases (w :: rest) :=
  List.mem_append.2 (Or.inr h)

theorem newAliases_writes (p : DevicePatch) : newAliases p.writes = p.aliases.filterMap Prod.snd := by
  obtain ⟨aliases, attributes, flag⟩ := p
  cases aliases <;> cases attributes <;> cases flag <;> simp [DevicePatch.writes, newAliases, Write.newAliases]

theorem relies_applyPatchCheck (db : ApiDb) (id : DeviceID) (d : DeviceRow) (p : DevicePatch) :
    (applyPatchCheck db id d p).relies db := by
  rw [applyPatchCheck]
  split_ifs with _ htaken
  · trivial
  · trivial
  · trivial
  · trivial
  · trivial
  · intro j dj hj hne v hv hmem
    rw [newAliases_writes] at hv
    obtain ⟨e, he, hev⟩ := List.mem_filterMap.1 hv
    obtain ⟨a, ha, rfl⟩ := List.mem_map.1 hmem
    refine htaken ?_
    -- the value is among those the query asks for, and this device has it
    simp only [aliasValuesTaken, List.any_eq_true, Bool.and_eq_true, bne_iff_ne, List.contains_iff_mem]
    exact ⟨(j, dj), mem_of_lookup hj, hne, a, ha, List.mem_filterMap.2 ⟨e, he, by rw [hev]; rfl⟩⟩

/-- A step changes the table of devices by at most one statement of a patch. -/
theorem advance_devices {fails : Bool} {call : ApiCall} {db : ApiDb} {r : ApiDb × ApiCall}
    (h : advance fails call db = some r) :
    r.1.devices = db.devices ∧ r.2.relies db ∨
      ∃ id w rest dirty d, call = .writing id (w :: rest) dirty ∧ db.devices.lookup id = some d ∧
        r.1.devices = mapSet db.devices id (w.apply d) ∧ r.2 = .writing id rest true := by
  unfold advance at h
  split at h
  · obtain ⟨err, -, rfl⟩ := Option.map_eq_some_iff.1 h
    exact Or.inl ⟨rfl, trivial⟩
  · cases h
  · split at h <;> cases h <;> exact Or.inl ⟨rfl, trivial⟩
  · cases h
    exact Or.inl ⟨rfl, relies_applyPatchCheck _ _ _ _⟩
  · next id w rest dirty =>
    cases h
    rw [patchDevice]
    cases hd : db.devices.lookup id with
    | none => exact Or.inl ⟨rfl, trivial⟩
    | some d => exact Or.inr ⟨id, w, rest, dirty, d, rfl, hd, rfl, rfl⟩
  · cases h
    exact Or.inl ⟨rfl, trivial⟩
  · cases h
    refine Or.inl ⟨rfl, ?_⟩
    rw [checkDevice]
    split
    · trivial
    · split <;> trivial
  · cases h
    rw [storeGroup]
    split_ifs
    · exact Or.inl ⟨rfl, trivial⟩
    · split <;> exact Or.inl ⟨rfl, trivial⟩
  · cases h
    rw [addGroupDevice]
    split
    · split_ifs <;> exact Or.inl ⟨rfl, trivial⟩
    · exact Or.inl ⟨rfl, trivial⟩
  · cases h
    exact Or.inl ⟨rfl, trivial⟩

theorem rely_aliases : Calls.Rely advance deleteDevice AliasesUnique ApiCall.relies ApiCall.apart where
  own := by
    intro fails call db r h hdb hcall
    rcases advance_devices h with ⟨hsame, hrelies⟩ | ⟨id, w, rest, dirty, d, rfl, hd, hset, hr⟩
    · obtain ⟨db', call'⟩ := r
      refine ⟨fun i di j dj hi hj => hdb i di j dj (hsame ▸ hi) (hsame ▸ hj), ?_⟩
      cases call' with
      | writing id writes dirty => exact fun j dj hj => hrelies j dj (hsame ▸ hj)
      | _ => trivial
    · refine ⟨?_, ?_⟩
      · intro i di j dj hi hj hne v hv hv'
        rw [hset, lookup_mapSet] at hi hj
        split_ifs at hi with hi' <;> split_ifs at hj with hj'
        · exact hne ((beq_iff_eq.1 hi').trans (beq_iff_eq.1 hj').symm)
        · -- the row of the patch against another one
          cases hi
          rw [beq_iff_eq.1 hi'] at hne
          rcases mem_aliasValues_apply hv rest with hv | hv
          · exact hdb id d j dj hd hj hne v hv hv'
          · exact hcall j dj hj hne.symm v hv hv'
        · cases hj
          rw [beq_iff_eq.1 hj'] at hne
          rcases mem_aliasValues_apply hv' rest with hv' | hv'
          · exact hdb i di id d hi hd hne v hv hv'
          · exact hcall i di hi hne v hv' hv
        · exact hdb i di j dj hi hj hne v hv hv'
      · rw [hr]
        intro j dj hj hne v hv
        rw [hset, lookup_mapSet, if_neg (by simpa using hne)] at hj
        exact hcall j dj hj hne v (newAliases_tail hv)
  others := by
    intro fails call db r q h hdb hcall hapart hq
    cases q with
    | writing id' writes' dirty' =>
      intro j dj hj hne v hv hmem
      rcases advance_devices h with ⟨hsame, -⟩ | ⟨id, w, rest, dirty, d, rfl, hd, hset, -⟩
      · exact hq j dj (hsame ▸ hj) hne v hv hmem
      · rw [hset, lookup_mapSet] at hj
        split_ifs at hj with hj'
        · cases hj
          cases beq_iff_eq.1 hj'
          rcases mem_aliasValues_apply hmem rest with hmem | hmem
          · exact hq _ d hd hne v hv hmem
          · rcases hapart with hid | hnone
            · exact hne hid
            · exact hnone v hmem hv
        · exact hq j dj hj hne v hv hmem
    | _ => trivial
  env := by
    intro id db db' h hdb
    cases h
    have hkeeps : ∀ j dj, (mapDelete db.devices id).lookup j = some dj → db.devices.lookup j = some dj := by
      intro j dj hj
      rw [lookup_mapDelete] at hj
      split_ifs at hj
      exact hj
    refine ⟨fun i di j dj hi hj => hdb i di j dj (hkeeps i di hi) (hkeeps j dj hj), fun call hcall => ?_⟩
    cases call with
    | writing id' writes dirty => exact fun j dj hj => hcall j dj (hkeeps j dj hj)
    | _ => trivial

/-- The call has no check behind it. -/
def ApiCall.isNew : ApiCall → Bool
  | .writing .. => false
  | _ => true

/-- No two devices get an alias in common, on every schedule on which no two patches of different devices that
have passed the ownership check are about to bring the same value. -/
theorem aliases_unique {s s' : Calls ApiDb ApiCall} (hunique : AliasesUnique s.shared)
    (hnew : ∀ call ∈ s.points, call.isNew = true) {schedule : List (CallsAction Bool DeviceID)}
    (hapart : Always apiStep (Calls.Separate ApiCall.apart) s schedule)
    (hrun : exec apiStep s schedule = some s') : AliasesUnique s'.shared := by
  have hkept : s.Kept AliasesUnique ApiCall.relies := by
    refine ⟨hunique, fun c call hcall => ?_⟩
    have := hnew call (List.mem_of_getElem? hcall)
    cases call with
    | writing _ _ _ => cases this
    | _ => trivial
  exact (rely_aliases.exec ApiCall.apart_symm hkept hapart hrun).1

/-- Two devices without aliases, and for each the patch that calls it `a`. -/
def twoPatches : Calls ApiDb ApiCall where
  shared := ⟨[(Vector.replicate 16 7, ⟨⟨[], .registered, .empty, .empty, none, none, none, none, none, none, none,
      false, .bson⟩, [], []⟩), (Vector.replicate 16 8, ⟨⟨[], .registered, .empty, .empty, none, none, none, none,
      none, none, none, false, .bson⟩, [], []⟩)], []⟩
  points := [7, 8].map fun b =>
    .patch (.byID (DeviceID.string (Vector.replicate 16 b))) ⟨[(utf8 "name", some (utf8 "a"))], [], none⟩

/-- One after the other, the second patch is refused. -/
theorem aliases_unique_serial :
    ∃ s', exec apiStep twoPatches [.run 0 false, .run 0 false, .run 0 false, .run 1 false, .run 1 false] = some s' ∧
      AliasesUnique s'.shared := by
  have hrun : (exec apiStep twoPatches
      [.run 0 false, .run 0 false, .run 0 false, .run 1 false, .run 1 false]).isSome = true := by decide +kernel
  obtain ⟨s', hs'⟩ := Option.isSome_iff_exists.1 hrun
  refine ⟨s', hs', aliases_unique ?_ (by decide +kernel) (by decide +kernel) hs'⟩
  intro i di j dj hi hj hne v hv
  obtain ⟨_, h, _⟩ := List.mem_map.1 hv
  have : di.aliases = [] := by
    have := mem_of_lookup hi
    simp only [twoPatches, List.mem_cons, List.not_mem_nil, or_false, Prod.mk.injEq] at this
    rcases this with ⟨-, rfl⟩ | ⟨-, rfl⟩ <;> rfl
  rw [this] at h
  cases h

/-- Both patches pass the check before either of them writes. -/
theorem alias_shared :
    (exec apiStep twoPatches
        [.run 0 false, .run 1 false, .run 0 false, .run 1 false, .run 0 false, .run 1 false]).map
      (fun s => s.shared.devices.map fun e => e.2.aliases) =
      some [[(utf8 "name", utf8 "a")], [(utf8 "name", utf8 "a")]] := by
  decide +kernel

end Astrate.AppEngine
