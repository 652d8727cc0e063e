import Astrate.GoLib.Calls
import Astrate.Store.Interfaces
import Mathlib.Data.List.Find

/-!
# Installing interfaces side by side

`InstallInterface` compares the name with the installed ones before it inserts the row, and `UpdateInterface`
compares the minor version with the stored one before it replaces the definition. The transaction that writes
(`Store.installInterface`, `Store.updateInterface`) repeats neither comparison: it asks only for a free version,
or for the endpoints that the row has. Calls that overlap therefore install names that collide, and lower a minor
version (`interfaces_collide`). So does a single call: what it compares is what the parser reads, which does not
mind the case of a member's name, and the columns of the row are generated from the stored JSON.

`interfaces_kept` says which calls may overlap: installations whose names do not collide, and updates of different
versions, with documents that the parser and the columns read alike.
-/

set_option autoImplicit false

namespace Astrate.Realm

open Astrate.GoLib
open Astrate.InterfaceSchema
open Astrate.Store (InterfaceDb InterfaceRow StoreError generatedName generatedMajor generatedMinor)

/-- The realm of the calls, and the text that PostgreSQL returns for a stored `jsonb` document. -/
structure InterfaceRealm where
  id : Int
  /-- `datastream_maximum_storage_retention`. -/
  ceiling : Option Int
  text : Bytes → Bytes

/-- `normaliseIfaceName`, on names that `ParseInterface` accepts: they are ASCII. -/
def normaliseIfaceName (name : Bytes) : Bytes :=
  name.filterMap fun c => if c = 45 then none else if 65 ≤ c ∧ c ≤ 90 then some (c + 32) else some c

/-- What a call returns instead of an interface. -/
inductive InterfaceError where
  | service (err : FmtError)
  /-- `ErrValidation` around the error of the parser. -/
  | parse (err : ParseError)
  /-- `ErrValidation` around the error of `CheckMinorUpgrade`. -/
  | upgrade (err : UpgradeError)
  | store (err : StoreError)
  deriving DecidableEq

/-- The point of a call: the posted body, or what is parsed of it and the document to store. -/
inductive InterfaceCall where
  | install (definition : Bytes)
  /-- `InstallInterface`, before its transaction. -/
  | installing (iface : Interface) (definition : Bytes)
  | update (urlName : Bytes) (urlMajor : Int) (definition : Bytes)
  /-- `UpdateInterface`, before its transaction. -/
  | updating (next : Interface) (definition : Bytes)
  | returned (err : Option InterfaceError)
  deriving DecidableEq

/-- `checkRetentionCeiling`: a mapping is over the ceiling of the realm. -/
def overCeiling (ceiling : Option Int) (iface : Interface) : Bool :=
  ceiling.any fun limit =>
    iface.mappings.any fun m => m.databaseRetentionPolicy == .useTTL && decide (limit < m.databaseRetentionTTL)

/-- The column `name` of the rows of a realm. -/
def names (realmID : Int) (rows : List InterfaceRow) : List Bytes :=
  (rows.filter fun r => r.realmID == realmID).filterMap InterfaceRow.name

/-- `checkNameCollision`: an installed name that differs only by case or hyphens. Which one of several is named
depends on the order of the rows. -/
def nameCollision (installed : List Bytes) (name : Bytes) : Option Bytes :=
  installed.find? fun other => other != name && normaliseIfaceName other == normaliseIfaceName name

/-- `InstallInterface` up to the transaction. -/
def installCheck (realm : InterfaceRealm) (db : InterfaceDb) (definition : Bytes) : InterfaceCall :=
  match parseInterfaceCanonical definition with
  | .error err => .returned (some (.parse err))
  | .ok (iface, canon) =>
    match nameCollision (names realm.id db.interfaces) iface.name with
    | some installed =>
      .returned (some (.service ⟨"%w: installed interface %q differs from %q only by case or hyphens",
        [.str installed, .str iface.name]⟩))
    | none =>
      if overCeiling realm.ceiling iface then
        .returned (some (.service ⟨"maximum database retention exceeded", []⟩))
      else .installing iface (canon.getD definition)

/-- `UpdateInterface` up to the transaction. -/
def updateCheck (realm : InterfaceRealm) (db : InterfaceDb) (urlName : Bytes) (urlMajor : Int)
    (definition : Bytes) : InterfaceCall :=
  match parseInterfaceCanonical definition with
  | .error err => .returned (some (.parse err))
  | .ok (next, canon) =>
    if next.name ≠ urlName then
      .returned (some (.service ⟨"%w: body declares %q, URL says %q", [.str next.name, .str urlName]⟩))
    else if next.major ≠ urlMajor then
      .returned (some (.service ⟨"%w: body declares %d, URL says %d", [.int next.major, .int urlMajor]⟩))
    else if overCeiling realm.ceiling next then
      .returned (some (.service ⟨"maximum database retention exceeded", []⟩))
    else
      match db.find realm.id next.name next.major with
      | none => .returned (some (.service ⟨"%w: %w", [.err]⟩))
      | some stored =>
        match parseInterface (realm.text stored.definition) with
        | .error _ => .returned (some (.service ⟨"realm: stored interface %s v%d does not parse: %w",
            [.str next.name, .int next.major, .err]⟩))
        | .ok prev =>
          match checkMinorUpgrade prev next with
          | .error err => .returned (some (.upgrade err))
          | .ok () => .updating next (canon.getD definition)

/-- What a transaction leaves, and what the call returns. -/
def committed (db : InterfaceDb) :
    Except StoreError (InterfaceDb × Store.StoredInterface) → InterfaceDb × InterfaceCall
  | .error err => (db, .returned (some (.store err)))
  | .ok (db', _) => (db', .returned none)

/-- The next step of a call; an access to the database may fail instead, as one does that meets a row with a
null column. -/
def advanceInterface (realm : InterfaceRealm) (fails : Bool) (call : InterfaceCall) (db : InterfaceDb) :
    Option (InterfaceDb × InterfaceCall) :=
  match fails, call with
  | _, .returned _ => none
  | true, _ => some (db, .returned (some (.service ⟨"store: %w", [.err]⟩)))
  | false, .install definition => some (db, installCheck realm db definition)
  | false, .installing _ definition => some (committed db (Store.installInterface db realm.id definition))
  | false, .update urlName urlMajor definition => some (db, updateCheck realm db urlName urlMajor definition)
  | false, .updating _ definition => some (committed db (Store.updateInterface db realm.id definition))

/-- Calls that run in a realm. -/
def interfaceStep (realm : InterfaceRealm) :
    Calls InterfaceDb InterfaceCall → CallsAction Bool Empty → Option (Calls InterfaceDb InterfaceCall) :=
  Calls.step (advanceInterface realm) fun e _ => nomatch e

/-! ## Names and minor versions -/

/-- Names that differ do so by more than case and hyphens. -/
def NamesDistinct (installed : List Bytes) : Prop :=
  ∀ a ∈ installed, ∀ b ∈ installed, normaliseIfaceName a = normaliseIfaceName b → a = b

/-- The version is installed with a minor version from `m` on. -/
def AtLeast (realmID : Int) (db : InterfaceDb) (k : Bytes × Int) (m : Int) : Prop :=
  ∃ row m', db.find realmID k.1 k.2 = some row ∧ row.minor = some m' ∧ m ≤ m'

/-- The columns of a document are what the parser reads in the body, and reads in the document again, as it is
stored and as it comes back. -/
structure Plain (realm : InterfaceRealm) (iface : Interface) (definition : Bytes) : Prop where
  name : generatedName definition = some iface.name
  major : generatedMajor definition = some iface.major
  minor : generatedMinor definition = some iface.minor
  again : ∀ read, parseInterface definition = .ok read ∨ parseInterface (realm.text definition) = .ok read →
    read.name = iface.name ∧ read.major = iface.major ∧ read.minor = iface.minor

/-- Tables of a realm: the primary key, distinct names, and minor versions that the parser reads as the column
does. -/
structure Stored (realm : InterfaceRealm) (rows : List InterfaceRow) : Prop where
  ids : (rows.map InterfaceRow.id).Nodup
  distinct : NamesDistinct (names realm.id rows)
  readable : ∀ r ∈ rows, r.realmID = realm.id → ∀ prev, parseInterface (realm.text r.definition) = .ok prev →
    r.minor = some prev.minor

/-- A call that has not checked anything yet and whose document is plain, or that has returned. -/
def InterfaceCall.Posted (realm : InterfaceRealm) : InterfaceCall → Prop
  | .install definition | .update _ _ definition => ∀ iface canon,
    parseInterfaceCanonical definition = .ok (iface, canon) → Plain realm iface (canon.getD definition)
  | .returned _ => True
  | _ => False

/-- What a call relies on at its point. -/
def InterfaceCall.relies (realm : InterfaceRealm) : InterfaceCall → InterfaceDb → Prop
  | .installing iface definition, db => Plain realm iface definition ∧
    ∀ a ∈ names realm.id db.interfaces, normaliseIfaceName a = normaliseIfaceName iface.name → a = iface.name
  | .updating next definition, db => Plain realm next definition ∧
    ∃ row m, db.find realm.id next.name next.major = some row ∧ row.minor = some m ∧ m < next.minor
  | call, _ => call.Posted realm

/-- The calls do not install names that collide, or update the same version. -/
def InterfaceCall.apart : InterfaceCall → InterfaceCall → Bool
  | .installing a _, .installing b _ =>
    normaliseIfaceName a.name != normaliseIfaceName b.name || a.name == b.name
  | .updating a _, .updating b _ => a.name != b.name || a.major != b.major
  | _, _ => true

theorem InterfaceCall.apart_symm (p q : InterfaceCall) (h : p.apart q = true) : q.apart p = true := by
  cases p <;> cases q <;> try exact h
  · rwa [InterfaceCall.apart, bne_comm, BEq.comm (a := Interface.name _)] at h
  · rwa [InterfaceCall.apart, bne_comm, bne_comm (a := Interface.major _)] at h

theorem minor_lt_of_checkMinorUpgrade {old next : Interface} (h : checkMinorUpgrade old next = .ok ()) :
    old.minor < next.minor := by
  simp only [checkMinorUpgrade, bind_eq_ok_iff, requireUpgrade_eq_ok_iff] at h
  obtain ⟨-, -, -, -, -, hne, -, hle, -⟩ := h
  simp only [Bool.not_eq_true', beq_eq_false_iff_ne, decide_eq_false_iff_not] at hne hle
  omega

section

variable {realm : InterfaceRealm} {db db' : InterfaceDb} {definition : Bytes} {iface next : Interface}

theorem columns_of_find {realmID : Int} {name : Bytes} {major : Int} {row : InterfaceRow}
    (h : db.find realmID name major = some row) :
    row.realmID = realmID ∧ row.name = some name ∧ row.major = some major := by
  simpa [and_assoc] using List.find?_some h

theorem relies_installCheck (h : (InterfaceCall.install definition).Posted realm) :
    (installCheck realm db definition).relies realm db := by
  rw [installCheck]
  split
  · trivial
  · next iface canon hparse =>
    split
    · trivial
    · next hnone =>
      split_ifs
      · trivial
      · refine ⟨h iface canon hparse, fun a ha hnorm => ?_⟩
        simpa [hnorm] using List.find?_eq_none.1 hnone a ha

theorem relies_updateCheck {urlName : Bytes} {urlMajor : Int} (hdb : Stored realm db.interfaces)
    (h : (InterfaceCall.update urlName urlMajor definition).Posted realm) :
    (updateCheck realm db urlName urlMajor definition).relies realm db := by
  rw [updateCheck]
  split
  · trivial
  · next next canon hparse =>
    split_ifs <;> try trivial
    split
    · trivial
    · next stored hstored =>
      split
      · trivial
      · next prev hprev =>
        split
        · trivial
        · next hupgrade =>
          exact ⟨h next canon hparse, stored, prev.minor, hstored,
            hdb.readable stored (List.mem_of_find?_eq_some hstored) (columns_of_find hstored).1 prev hprev,
            minor_lt_of_checkMinorUpgrade hupgrade⟩

/-! ## The transactions -/

/-- The rows after an installation. -/
theorem installed_rows {si : Store.StoredInterface} (hplain : Plain realm iface definition)
    (h : Store.installInterface db realm.id definition = .ok (db', si)) :
    names realm.id db'.interfaces = names realm.id db.interfaces ++ [iface.name] ∧
      (Stored realm db.interfaces → (∀ a ∈ names realm.id db.interfaces,
        normaliseIfaceName a = normaliseIfaceName iface.name → a = iface.name) → Stored realm db'.interfaces) ∧
      ∀ name major row, db.find realm.id name major = some row → db'.find realm.id name major = some row := by
  obtain ⟨read, hread, -⟩ := bind_eq_ok_iff.1 h
  replace hread := mapError_eq_ok_iff.1 hread
  have hinst := Store.installInterface_ok hread h
  have hnames : names realm.id db'.interfaces = names realm.id db.interfaces ++ [iface.name] := by
    simp [names, hinst.interfaces, InterfaceRow.name, hplain.name]
  refine ⟨hnames, fun hdb hnew => ⟨?_, ?_, ?_⟩, fun name major row hrow => ?_⟩
  · rw [hinst.interfaces, List.map_append]
    refine nodup_concat hdb.ids fun hmem => ?_
    obtain ⟨r, hr, hid⟩ := List.mem_map.1 hmem
    have := db.fresh r hr
    rw [hid, hinst.id] at this
    exact absurd this (lt_irrefl _)
  · -- the names so far, and the new one, which was compared with them
    rw [hnames]
    refine forall_mem_concat (fun a ha => forall_mem_concat (hdb.distinct a ha) (hnew a ha))
      (forall_mem_concat (fun b hb hnorm => (hnew b hb hnorm.symm).symm) fun _ => rfl)
  · rw [hinst.interfaces]
    refine forall_mem_concat hdb.readable fun _ prev hprev => ?_
    rw [(hplain.again prev (.inr hprev)).2.2]
    exact hplain.minor
  · rw [InterfaceDb.find, hinst.interfaces, List.find?_append]
    exact Option.or_eq_some_iff.2 (.inl hrow)

/-- The rows after an update: one has another definition, with the columns that it had. -/
theorem updated_rows {si : Store.StoredInterface} (hdb : Stored realm db.interfaces)
    (hplain : Plain realm next definition) (h : Store.updateInterface db realm.id definition = .ok (db', si)) :
    names realm.id db'.interfaces = names realm.id db.interfaces ∧ Stored realm db'.interfaces ∧
      ∀ name major row, db.find realm.id name major = some row → ∃ row',
        db'.find realm.id name major = some row' ∧
          (row' = row ∨ name = next.name ∧ major = next.major ∧ row'.definition = definition) := by
  obtain ⟨read, hread, -⟩ := bind_eq_ok_iff.1 h
  replace hread := mapError_eq_ok_iff.1 hread
  obtain ⟨row, hrow, hrows⟩ := Store.updateInterface_interfaces hread h
  obtain ⟨hname, hmajor, -⟩ := hplain.again read (.inl hread)
  obtain ⟨-, hrowName, hrowMajor⟩ := columns_of_find hrow
  rw [hname] at hrowName
  rw [hmajor] at hrowMajor
  set f : InterfaceRow → InterfaceRow := fun r => if r.id = row.id then { r with definition } else r with hf
  change db'.interfaces = db.interfaces.map f at hrows
  -- the primary key singles the row out, and the new definition has its name and major version
  have hsame : ∀ r ∈ db.interfaces, (f r).id = r.id ∧ (f r).realmID = r.realmID ∧ (f r).name = r.name ∧
      (f r).major = r.major ∧ (f r = r ∨ r = row ∧ (f r).definition = definition) := by
    intro r hr
    simp only [hf]
    split_ifs with hid
    · obtain rfl := List.inj_on_of_nodup_map hdb.ids hr (List.mem_of_find?_eq_some hrow) hid
      exact ⟨rfl, rfl, hplain.name.trans hrowName.symm, hplain.major.trans hrowMajor.symm, .inr ⟨rfl, rfl⟩⟩
    · exact ⟨rfl, rfl, rfl, rfl, .inl rfl⟩
  have hnames : names realm.id db'.interfaces = names realm.id db.interfaces := by
    have hrealm : ∀ r ∈ db.interfaces, ((f r).realmID == realm.id) = (r.realmID == realm.id) :=
      fun r hr => by rw [(hsame r hr).2.1]
    simp only [names, hrows, List.filter_map, List.filterMap_map, Function.comp_def]
    rw [List.filter_congr hrealm]
    exact List.filterMap_congr fun r hr => (hsame r (List.mem_of_mem_filter hr)).2.2.1
  refine ⟨hnames, ⟨?_, hnames ▸ hdb.distinct, ?_⟩, fun name major r hr => ⟨f r, ?_, ?_⟩⟩
  · rw [hrows, List.map_map]
    exact List.map_congr_left (fun r hr => (hsame r hr).1) ▸ hdb.ids
  · rw [hrows]
    refine List.forall_mem_map.2 fun r hr => ?_
    obtain ⟨-, hrealm, -, -, heq | ⟨-, hdef⟩⟩ := hsame r hr
    · rw [heq]
      exact hdb.readable r hr
    · intro _ prev hprev
      rw [hdef] at hprev
      rw [(hplain.again prev (.inr hprev)).2.2, InterfaceRow.minor, hdef]
      exact hplain.minor
  · have hcongr : db.interfaces.find? ((fun r : InterfaceRow =>
        r.realmID == realm.id && r.name == some name && r.major == some major) ∘ f) =
        db.find realm.id name major :=
      List.find?_congr fun r hr => by
        obtain ⟨-, hrealm, hname, hmajor, -⟩ := hsame r hr
        simp only [Function.comp, hrealm, hname, hmajor]
    rw [InterfaceDb.find, hrows, List.find?_map, hcongr, hr]
    rfl
  · obtain ⟨-, -, -, -, heq | ⟨rfl, hdef⟩⟩ := hsame r (List.mem_of_find?_eq_some hr)
    · exact .inl heq
    · obtain ⟨-, hname', hmajor'⟩ := columns_of_find hr
      exact .inr ⟨Option.some.inj (hname'.symm.trans hrowName),
        Option.some.inj (hmajor'.symm.trans hrowMajor), hdef⟩

/-- The names are distinct, and the minor versions are not below the floor. -/
def Sound (realm : InterfaceRealm) (floor : Bytes × Int → Int → Prop) (db : InterfaceDb) : Prop :=
  Stored realm db.interfaces ∧ ∀ k m, floor k m → AtLeast realm.id db k m

variable {floor : Bytes × Int → Int → Prop} {q : InterfaceCall}

theorem sound_install (hdb : Sound realm floor db)
    (hcall : (InterfaceCall.installing iface definition).relies realm db) :
    Sound realm floor (committed db (Store.installInterface db realm.id definition)).1 := by
  cases h : Store.installInterface db realm.id definition with
  | error err => exact hdb
  | ok r =>
    obtain ⟨-, hstored, hfind⟩ := installed_rows hcall.1 h
    refine ⟨hstored hdb.1 hcall.2, fun k m hfloor => ?_⟩
    obtain ⟨row, m', hrow, hm⟩ := hdb.2 k m hfloor
    exact ⟨row, m', hfind _ _ _ hrow, hm⟩

theorem sound_update (hdb : Sound realm floor db)
    (hcall : (InterfaceCall.updating next definition).relies realm db) :
    Sound realm floor (committed db (Store.updateInterface db realm.id definition)).1 := by
  cases h : Store.updateInterface db realm.id definition with
  | error err => exact hdb
  | ok r =>
    obtain ⟨hplain, old, mOld, hold, hmOld, hlt⟩ := hcall
    obtain ⟨-, hstored, hfind⟩ := updated_rows hdb.1 hplain h
    refine ⟨hstored, fun k m hfloor => ?_⟩
    obtain ⟨row, m', hrow, hm', hle⟩ := hdb.2 k m hfloor
    obtain ⟨row', hrow', rfl | ⟨hname, hmajor, hdef⟩⟩ := hfind _ _ _ hrow
    · exact ⟨row', m', hrow', hm', hle⟩
    · -- the version that the call has compared with its own
      rw [hname, hmajor, hold] at hrow
      cases hrow
      cases hmOld.symm.trans hm'
      refine ⟨row', next.minor, hrow', ?_, le_trans hle (le_of_lt hlt)⟩
      rw [InterfaceRow.minor, hdef]
      exact hplain.minor

/-- An installation leaves to another call what it relies on, unless their names collide. -/
theorem relies_install (hapart : (InterfaceCall.installing iface definition).apart q = true)
    (hcall : (InterfaceCall.installing iface definition).relies realm db) (hq : q.relies realm db) :
    q.relies realm (committed db (Store.installInterface db realm.id definition)).1 := by
  cases h : Store.installInterface db realm.id definition with
  | error err => exact hq
  | ok r =>
    obtain ⟨hnames, -, hfind⟩ := installed_rows hcall.1 h
    cases q with
    | installing other =>
      refine ⟨hq.1, fun a ha hnorm => ?_⟩
      rw [show (committed db (.ok r)).1 = r.1 from rfl, hnames] at ha
      rcases List.mem_append.1 ha with ha | ha
      · exact hq.2 a ha hnorm
      · cases List.mem_singleton.1 ha
        simpa [InterfaceCall.apart, hnorm] using hapart
    | updating other =>
      obtain ⟨hplain, row, m, hrow, hm⟩ := hq
      exact ⟨hplain, row, m, hfind _ _ _ hrow, hm⟩
    | _ => exact hq

/-- So does an update, unless it is of the same version. -/
theorem relies_update (hapart : (InterfaceCall.updating next definition).apart q = true)
    (hdb : Stored realm db.interfaces) (hcall : (InterfaceCall.updating next definition).relies realm db)
    (hq : q.relies realm db) : q.relies realm (committed db (Store.updateInterface db realm.id definition)).1 := by
  cases h : Store.updateInterface db realm.id definition with
  | error err => exact hq
  | ok r =>
    obtain ⟨hnames, -, hfind⟩ := updated_rows hdb hcall.1 h
    cases q with
    | installing other =>
      refine ⟨hq.1, fun a ha => hq.2 a ?_⟩
      rwa [show (committed db (.ok r)).1 = r.1 from rfl, hnames] at ha
    | updating other =>
      obtain ⟨hplain, row, m, hrow, hm, hlt⟩ := hq
      obtain ⟨row', hrow', rfl | ⟨hname, hmajor, -⟩⟩ := hfind _ _ _ hrow
      · exact ⟨hplain, row', m, hrow', hm, hlt⟩
      · simp [InterfaceCall.apart, hname, hmajor] at hapart
    | _ => exact hq

theorem relies_committed (realm : InterfaceRealm) (db db' : InterfaceDb)
    (r : Except StoreError (InterfaceDb × Store.StoredInterface)) : (committed db r).2.relies realm db' := by
  cases r <;> trivial

end

theorem rely_interfaces (realm : InterfaceRealm) (floor : Bytes × Int → Int → Prop) :
    Calls.Rely (advanceInterface realm) (fun (e : Empty) _ => nomatch e) (Sound realm floor)
      (InterfaceCall.relies realm) fun p q => p.apart q = true where
  own := by
    intro fails call db r h hdb hcall
    unfold advanceInterface at h
    split at h <;> cases h
    · exact ⟨hdb, trivial⟩
    · exact ⟨hdb, relies_installCheck hcall⟩
    · exact ⟨sound_install hdb hcall, relies_committed ..⟩
    · exact ⟨hdb, relies_updateCheck hdb.1 hcall⟩
    · exact ⟨sound_update hdb hcall, relies_committed ..⟩
  others := by
    intro fails call db r q h hdb hcall hapart hq
    unfold advanceInterface at h
    split at h <;> cases h
    · exact hq
    · exact hq
    · exact relies_install hapart hcall hq
    · exact hq
    · exact relies_update hapart hdb.1 hcall hq
  env := fun {e} => nomatch e

/-- Installed names stay distinct and minor versions do not decrease, for documents that are plain and on every
schedule on which no two calls that have checked are about to install names that collide, or to update the same
version. -/
theorem interfaces_kept {realm : InterfaceRealm} {s₀ s₁ s₂ : Calls InterfaceDb InterfaceCall}
    (hstored : Stored realm s₀.shared.interfaces) (hposted : ∀ call ∈ s₀.points, call.Posted realm)
    {before after : List (CallsAction Bool Empty)}
    (hapart₀ : Always (interfaceStep realm) (Calls.Separate fun p q => p.apart q = true) s₀ before)
    (hapart₁ : Always (interfaceStep realm) (Calls.Separate fun p q => p.apart q = true) s₁ after)
    (hrun₀ : exec (interfaceStep realm) s₀ before = some s₁)
    (hrun₁ : exec (interfaceStep realm) s₁ after = some s₂) :
    NamesDistinct (names realm.id s₂.shared.interfaces) ∧
      ∀ name major row m, s₁.shared.find realm.id name major = some row → row.minor = some m →
        ∃ row' m', s₂.shared.find realm.id name major = some row' ∧ row'.minor = some m' ∧ m ≤ m' := by
  have hkept₀ : s₀.Kept (Sound realm fun _ _ => False) (InterfaceCall.relies realm) := by
    refine ⟨⟨hstored, fun _ _ hfloor => hfloor.elim⟩, fun c call hcall => ?_⟩
    have := hposted call (List.mem_of_getElem? hcall)
    cases call with
    | installing _ => cases this
    | updating _ => cases this
    | _ => exact this
  have hkept₁ := (rely_interfaces realm _).exec InterfaceCall.apart_symm hkept₀ hapart₀ hrun₀
  -- from the state in between on, its minor versions are the floor
  have hkept : s₁.Kept (Sound realm fun k m => ∃ row, s₁.shared.find realm.id k.1 k.2 = some row ∧
      row.minor = some m) (InterfaceCall.relies realm) :=
    ⟨⟨hkept₁.1.1, fun k m ⟨row, hrow, hm⟩ => ⟨row, m, hrow, hm, le_rfl⟩⟩, hkept₁.2⟩
  have hkept₂ := (rely_interfaces realm _).exec InterfaceCall.apart_symm hkept hapart₁ hrun₁
  exact ⟨hkept₂.1.1.distinct, fun name major row m hrow hm => hkept₂.1.2 (name, major) m ⟨row, hrow, hm⟩⟩

/-- A document with one mapping. -/
def document (name minor : String) : Bytes :=
  ["\x7b\"interface_name\":\"", name, "\",", "\"version_major\":1,", "\"version_minor\":", minor, ",",
    "\"type\":\"datastream\",", "\"ownership\":\"device\",", "\"mappings\":[\x7b", "\"endpoint\":\"/v\",",
    "\"type\":\"integer\"", "\x7d]\x7d"].flatMap utf8

/-- What the parser reads in it. -/
def oneMapping (name : String) (minor : Int) : Interface :=
  { name := utf8 name, major := 1, minor := minor, type := .datastream, ownership := .device,
    aggregation := .individual, mappings := [{ endpoint := utf8 "/v", type := .integer }] }

/-- The first realm, of a database that gives documents back as they are. -/
def firstRealm : InterfaceRealm := ⟨1, none, id⟩

theorem text_firstRealm (definition : Bytes) : firstRealm.text definition = definition := rfl

/-- The realm has a version of `org.Sensor`. -/
def sensorDb : InterfaceDb :=
  (Store.installInterface .empty 1 (document "org.Sensor" "1")).toOption.elim .empty Prod.fst

/-- A colliding name and two updates arrive. -/
def sensorRealm : Calls InterfaceDb InterfaceCall where
  shared := sensorDb
  points :=
    [.update (utf8 "org.Sensor") 1 (document "org.Sensor" "3"),
      .update (utf8 "org.Sensor") 1 (document "org.Sensor" "2"),
      .install (document "org.a-b.C" "1"), .install (document "org.ab.C" "1")]

theorem plain_firstRealm (iface : Interface) {read : Interface} {canon : Option Bytes} {definition : Bytes}
    (h : parseInterfaceCanonical definition = .ok (iface, none) ∧ generatedName definition = some iface.name ∧
      generatedMajor definition = some iface.major ∧ generatedMinor definition = some iface.minor)
    (hread : parseInterfaceCanonical definition = .ok (read, canon)) :
    Plain firstRealm read (canon.getD definition) := by
  cases h.1.symm.trans hread
  refine ⟨h.2.1, h.2.2.1, h.2.2.2, fun again hagain => ?_⟩
  have hparse : parseInterface definition = .ok iface := by
    rw [parseInterface, h.1]
    rfl
  cases hparse.symm.trans (hagain.elim id id)
  exact ⟨rfl, rfl, rfl⟩

theorem stored_sensorDb : Stored firstRealm sensorDb.interfaces := by
  have hrows : sensorDb.interfaces = [⟨1, 1, document "org.Sensor" "1"⟩] := by decide +kernel
  have hnames : names 1 sensorDb.interfaces = [utf8 "org.Sensor"] := by decide +kernel
  refine ⟨hrows ▸ List.nodup_singleton _, hnames ▸ ?_, hrows ▸ ?_⟩
  · exact List.forall_mem_singleton.2 (List.forall_mem_singleton.2 fun _ => rfl)
  · refine List.forall_mem_singleton.2 fun _ prev hprev => ?_
    have hparse : parseInterface (document "org.Sensor" "1") = .ok (oneMapping "org.Sensor" 1) := by decide +kernel
    have hminor : (⟨1, 1, document "org.Sensor" "1"⟩ : InterfaceRow).minor =
        some (oneMapping "org.Sensor" 1).minor := by
      decide +kernel
    simp only [text_firstRealm, hparse, Except.ok.injEq] at hprev
    subst hprev
    exact hminor

/-- The columns `name` and `minor_version` of the rows. -/
def minors (s : Calls InterfaceDb InterfaceCall) : List (Option Bytes × Option Int) :=
  s.shared.interfaces.map fun r => (r.name, r.minor)

/-- One after the other, the lower minor version and the second of the colliding names are refused. -/
theorem interfaces_kept_serial :
    ∃ s₂, exec (interfaceStep firstRealm) sensorRealm
        [.run 0 false, .run 0 false, .run 1 false, .run 2 false, .run 2 false, .run 3 false] = some s₂ ∧
      NamesDistinct (names 1 s₂.shared.interfaces) ∧
      ∀ name major row m, sensorRealm.shared.find 1 name major = some row → row.minor = some m →
        ∃ row' m', s₂.shared.find 1 name major = some row' ∧ row'.minor = some m' ∧ m ≤ m' := by
  have hrun : (exec (interfaceStep firstRealm) sensorRealm
      [.run 0 false, .run 0 false, .run 1 false, .run 2 false, .run 2 false, .run 3 false]).isSome = true := by
    decide +kernel
  obtain ⟨s₂, hs₂⟩ := Option.isSome_iff_exists.1 hrun
  have hposted : ∀ call ∈ sensorRealm.points, call.Posted firstRealm :=
    List.forall_mem_cons.2 ⟨fun _ _ => plain_firstRealm (oneMapping "org.Sensor" 3) (by decide +kernel),
      List.forall_mem_cons.2 ⟨fun _ _ => plain_firstRealm (oneMapping "org.Sensor" 2) (by decide +kernel),
        List.forall_mem_cons.2 ⟨fun _ _ => plain_firstRealm (oneMapping "org.a-b.C" 1) (by decide +kernel),
          List.forall_mem_singleton.2 fun _ _ => plain_firstRealm (oneMapping "org.ab.C" 1) (by decide +kernel)⟩⟩⟩
  exact ⟨s₂, hs₂, @interfaces_kept firstRealm sensorRealm sensorRealm s₂ stored_sensorDb hposted [] _
    (by decide +kernel) (by decide +kernel) rfl hs₂⟩

/-- Two updates and two installations that check before either of them writes; and one update with two members
for the minor version. -/
theorem interfaces_collide :
    (exec (interfaceStep firstRealm) sensorRealm
        [.run 0 false, .run 1 false, .run 0 false, .run 2 false, .run 3 false, .run 2 false]).map minors =
      some [(some (utf8 "org.Sensor"), some 3), (some (utf8 "org.a-b.C"), some 1)] ∧
    (exec (interfaceStep firstRealm) sensorRealm
        [.run 0 false, .run 1 false, .run 0 false, .run 2 false, .run 3 false, .run 2 false, .run 1 false,
          .run 3 false]).map minors =
      some [(some (utf8 "org.Sensor"), some 2), (some (utf8 "org.a-b.C"), some 1),
        (some (utf8 "org.ab.C"), some 1)] ∧
    normaliseIfaceName (utf8 "org.a-b.C") = normaliseIfaceName (utf8 "org.ab.C") ∧
    (exec (interfaceStep firstRealm)
        ⟨sensorDb, [.update (utf8 "org.Sensor") 1 (document "org.Sensor" "0,\"VERSION_MINOR\":9")]⟩
        [.run 0 false, .run 0 false]).map minors = some [(some (utf8 "org.Sensor"), some 0)] := by
  refine ⟨?_, ?_, ?_, ?_⟩ <;> decide +kernel

end Astrate.Realm
