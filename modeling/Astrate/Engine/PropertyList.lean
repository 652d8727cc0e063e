import Astrate.Engine.Schema
import Astrate.GoLib.Zlib
import Astrate.InterfaceSchema.Alphabet

/-!
# Property lists

The payloads of the control channel that list properties (`internal/engine/control.go`): the entries
`<interface name><path>`, joined with semicolons, compressed and prefixed with their size. A device
sends the list of the properties it holds and the store drops the others.

Interface names hold no semicolon. A path may: a placeholder accepts any text without `+`, `#` and
slashes. Such an entry falls apart on the other side, and its row is dropped although it was listed
(`property_list_iff`).
-/

set_option autoImplicit false

namespace Astrate.Store

open Astrate.InterfaceSchema (Ownership)

/-- `PropertyRef`. -/
structure PropertyRef where
  interfaceID : Int
  path : GoLib.Bytes
  deriving DecidableEq

/-- The property of a device-owned interface of this device; `owner` is the column `ownership` of
`interfaces`. -/
def DeviceOwned (owner : Int → Option Ownership) (realmID : Int) (deviceID : DeviceID)
    (k : PropertyKey) : Prop :=
  k.realmID = realmID ∧ k.deviceID = deviceID ∧ owner k.interfaceID = some .device

instance (owner : Int → Option Ownership) (realmID : Int) (deviceID : DeviceID) (k : PropertyKey) :
    Decidable (DeviceOwned owner realmID deviceID k) :=
  inferInstanceAs (Decidable (_ ∧ _ ∧ _))

/-- `PurgeDeviceOwnedExcept`. -/
def Tables.purgeDeviceOwnedExcept (t : Tables) (owner : Int → Option Ownership) (realmID : Int)
    (deviceID : DeviceID) (keep : List PropertyRef) : Tables :=
  { t with
    properties := fun k =>
      if DeviceOwned owner realmID deviceID k ∧ ⟨k.interfaceID, k.path⟩ ∉ keep then none
      else t.properties k }

end Astrate.Store

namespace Astrate.Engine

open Astrate.GoLib
open Astrate.InterfaceSchema (Ownership CompiledInterface MappingPtr not_mem_name
  pathText_of_matchPath interfaceNameOK_ne_nil PathText)
open Astrate.Store (PropertyRef PropertyKey Property Tables DeviceOwned)

/-! ## The codec -/

def maxControlInflated : Nat := 1048576

def controlFrameHeader : Nat := 4

/-- `strings.Join(entries, ";")`. -/
def joinEntries (entries : List Bytes) : Bytes := [59].intercalate entries

def deflateProperties (z : Zlib) (entries : List Bytes) : Bytes :=
  bigEndianUint32 (joinEntries entries).length ++ z.deflate (joinEntries entries)

/-- What is left to do with the inflated text. -/
def splitProperties (declared : Nat) (plain : Bytes) : Except FmtError (List Bytes) :=
  if plain.length > declared then
    errorf "control payload inflates beyond its declared %d bytes" [.int declared]
  else if plain.length = 0 then .ok []
  else .ok (plain.splitOn 59)

/-- The entries of a frame. -/
def inflateProperties (z : Zlib) (p : Bytes) : Except FmtError (List Bytes) :=
  if p.length < controlFrameHeader then
    errorf "control payload is %d bytes, below the %d byte size prefix"
      [.int p.length, .int controlFrameHeader]
  else
    let declared := readBigEndianUint32 (p.take controlFrameHeader)
    if declared > maxControlInflated then
      errorf "control payload declares %d inflated bytes, above the %d byte ceiling"
        [.int declared, .int maxControlInflated]
    else
      match z.read (p.drop controlFrameHeader) (declared + 1) with
      | .error .notStream => errorf "control payload is not a zlib stream: %w" [.err]
      | .error .corrupt => errorf "inflating control payload: %w" [.err]
      | .ok plain => splitProperties declared plain

/-- What is sent is inflated and split at every semicolon. -/
theorem inflate_deflate {z : Zlib} (hz : z.Inverts) {entries : List Bytes}
    (hsize : (joinEntries entries).length ≤ maxControlInflated) :
    inflateProperties z (deflateProperties z entries) =
      .ok (if joinEntries entries = [] then [] else (joinEntries entries).splitOn 59) := by
  have hdeclared : readBigEndianUint32 (bigEndianUint32 (joinEntries entries).length) =
      (joinEntries entries).length :=
    readBigEndianUint32_bigEndianUint32 (by unfold maxControlInflated at hsize; omega)
  have hheader : (bigEndianUint32 (joinEntries entries).length).length = controlFrameHeader := rfl
  have htake : (deflateProperties z entries).take controlFrameHeader =
      bigEndianUint32 (joinEntries entries).length := by
    rw [deflateProperties, ← hheader, List.take_left]
  have hdrop : (deflateProperties z entries).drop controlFrameHeader =
      z.deflate (joinEntries entries) := by
    rw [deflateProperties, ← hheader, List.drop_left]
  have hlong : ¬ (deflateProperties z entries).length < controlFrameHeader := by
    rw [deflateProperties, List.length_append, hheader]
    omega
  unfold inflateProperties
  rw [if_neg hlong, htake, hdeclared]
  rw [if_neg (by omega), hdrop, hz, List.take_of_length_le (by omega)]
  dsimp only
  rw [splitProperties, if_neg (by omega)]
  by_cases hnil : joinEntries entries = []
  · rw [if_pos (by rw [hnil]; rfl), if_pos hnil]
  · rw [if_neg (by simpa using hnil), if_neg hnil]

/-! ## References -/

/-- One pass of the loop of `resolvePropertyRefs`; entries that resolve to nothing are skipped. -/
def resolvePropertyRef (realm : RealmCatalog) (dev : DeviceState) (entry : Bytes) : Option PropertyRef :=
  match cutByte 47 entry with
  | none => none
  | some (name, rest) =>
    if name = [] ∨ rest = [] then none
    else (realm.resolve dev.declares name).map fun ci => ⟨ci.id, 47 :: rest⟩

def resolvePropertyRefs (realm : RealmCatalog) (dev : DeviceState) (entries : List Bytes) : List PropertyRef :=
  entries.filterMap (resolvePropertyRef realm dev)

/-- The effect of `handleProducerProperties` on the tables; a payload that does not inflate is
rejected. -/
def purgeListed (z : Zlib) (realm : RealmCatalog) (dev : DeviceState) (id : DeviceID)
    (owner : Int → Option Ownership) (payload : Bytes) (t : Tables) : Except FmtError Tables := do
  let entries ← inflateProperties z payload
  .ok (t.purgeDeviceOwnedExcept owner realm.id id (resolvePropertyRefs realm dev entries))

/-! ## Entries of properties -/

/-- A path of an accepted interface. -/
structure LegalEntry (e : CompiledInterface × Bytes) : Prop where
  accepted : Accepted e.1
  matched : ∃ p, e.1.trie.matchPath e.2 = some p

/-- The entry of a property. -/
def entryText (e : CompiledInterface × Bytes) : Bytes := e.1.name ++ e.2

/-- The key of an entry. -/
def entryRef (e : CompiledInterface × Bytes) : PropertyRef := ⟨e.1.id, e.2⟩

section Legal

variable {e : CompiledInterface × Bytes} (h : LegalEntry e)

include h

theorem LegalEntry.pathText : PathText e.2 := by
  obtain ⟨⟨data, iface, ids, hparse, hcompile⟩, p, hp⟩ := h
  exact pathText_of_matchPath hparse hcompile hp

theorem LegalEntry.name_ok : InterfaceSchema.interfaceNameOK e.1.name = true :=
  h.accepted.name_ok

/-- A semicolon of an entry is one of its path. -/
theorem LegalEntry.semicolon_mem : 59 ∈ entryText e ↔ 59 ∈ e.2 := by
  rw [entryText, List.mem_append]
  exact or_iff_right (not_mem_name h.name_ok (by decide))

/-- The entry of a declared interface resolves to its property. -/
theorem LegalEntry.resolve {realm : RealmCatalog} {dev : DeviceState} {ver : InterfaceVersion}
    (hdeclared : dev.declares e.1.name = some ver)
    (hiface : realm.iface e.1.name ver.major = some e.1) :
    resolvePropertyRef realm dev (entryText e) = some (entryRef e) := by
  obtain ⟨c, r, hpath, -⟩ := h.pathText.rooted
  have hcut : cutByte 47 (entryText e) = some (e.1.name, c :: r) := by
    rw [cutByte_eq_some_iff, entryText, hpath]
    exact ⟨rfl, not_mem_name h.name_ok (by decide)⟩
  unfold resolvePropertyRef
  rw [hcut]
  dsimp only
  rw [if_neg (not_or.2 ⟨interfaceNameOK_ne_nil h.name_ok, List.cons_ne_nil _ _⟩),
    RealmCatalog.resolve_of_declared hdeclared hiface, entryRef, hpath]
  rfl

end Legal

variable {realm : RealmCatalog} {dev : DeviceState}

/-- A reference holds no semicolon its entry does not hold. -/
theorem semicolon_not_mem_ref {entry : Bytes}
    {ref : PropertyRef} (h : resolvePropertyRef realm dev entry = some ref) (hentry : 59 ∉ entry) :
    59 ∉ ref.path := by
  unfold resolvePropertyRef at h
  cases hcut : cutByte 47 entry with
  | none =>
    rw [hcut] at h
    cases h
  | some p =>
    obtain ⟨name, rest⟩ := p
    rw [hcut] at h
    dsimp only at h
    split_ifs at h
    obtain ⟨ci, -, rfl⟩ := Option.map_eq_some_iff.1 h
    rw [((cutByte_eq_some_iff 47 entry name rest).1 hcut).1] at hentry
    simp only [List.mem_append, List.mem_cons, not_or] at hentry
    exact List.not_mem_cons_of_ne_of_not_mem (by decide) hentry.2.2

section Entries

variable {entries : List (CompiledInterface × Bytes)}

/-- Legal entries without a semicolon are told apart again, others are not. -/
theorem splitEntries_iff (hlegal : ∀ e ∈ entries, LegalEntry e) :
    (if joinEntries (entries.map entryText) = [] then []
      else (joinEntries (entries.map entryText)).splitOn 59) = entries.map entryText ↔
      ∀ e ∈ entries, 59 ∉ e.2 := by
  cases entries with
  | nil => simp [joinEntries]
  | cons e es =>
    have hne : (e :: es).map entryText ≠ [] := List.cons_ne_nil _ _
    have hjoin : joinEntries ((e :: es).map entryText) ≠ [] := by
      intro hnil
      obtain ⟨c, r, hpath, -⟩ := (hlegal e List.mem_cons_self).pathText.rooted
      have hhead : entryText e <+: joinEntries ((e :: es).map entryText) := by
        rw [joinEntries, List.map_cons]
        cases es.map entryText with
        | nil => simp
        | cons f fs => simp [List.intercalate_cons_cons]
      rw [hnil, List.prefix_nil, entryText, List.append_eq_nil_iff, hpath] at hhead
      exact List.cons_ne_nil _ _ hhead.2
    rw [if_neg hjoin]
    constructor
    · intro hsplit e' he' hmem
      have htext : entryText e' ∈ (joinEntries ((e :: es).map entryText)).splitOn 59 := by
        rw [hsplit]
        exact List.mem_map_of_mem he'
      exact not_mem_of_mem_splitOn _ _ htext ((hlegal e' he').semicolon_mem.2 hmem)
    · intro hfree
      refine List.splitOn_intercalate 59 (fun text htext => ?_) hne
      obtain ⟨e', he', rfl⟩ := List.mem_map.1 htext
      rw [(hlegal e' he').semicolon_mem]
      exact hfree e' he'

/-- The device declares the interface of an entry, and the store has it as device-owned. -/
def DeclaredOwned (realm : RealmCatalog) (dev : DeviceState) (owner : Int → Option Ownership)
    (e : CompiledInterface × Bytes) : Prop :=
  (∃ ver, dev.declares e.1.name = some ver ∧ realm.iface e.1.name ver.major = some e.1) ∧
    owner e.1.id = some .device

theorem resolvePropertyRefs_entries {owner : Int → Option Ownership} (hlegal : ∀ e ∈ entries, LegalEntry e)
    (hdeclared : ∀ e ∈ entries, DeclaredOwned realm dev owner e) :
    resolvePropertyRefs realm dev (entries.map entryText) = entries.map entryRef := by
  rw [resolvePropertyRefs, List.filterMap_map, ← List.filterMap_eq_map]
  refine List.filterMap_congr fun e he => ?_
  obtain ⟨⟨ver, hver, hiface⟩, -⟩ := hdeclared e he
  exact (hlegal e he).resolve hver hiface

/-- Only the listed rows of the device survive. -/
def KeepsExactly (owner : Int → Option Ownership) (realmID : Int) (id : DeviceID)
    (refs : List PropertyRef) (t t' : Tables) : Prop :=
  ∀ k, t'.properties k =
    if DeviceOwned owner realmID id k ∧ ⟨k.interfaceID, k.path⟩ ∉ refs then none else t.properties k

/-- A listed row with a semicolon in its path is dropped. -/
theorem purge_drops_semicolon {z : Zlib} (hz : z.Inverts)
    (hsize : (joinEntries (entries.map entryText)).length ≤ maxControlInflated) {id : DeviceID}
    {owner : Int → Option Ownership}
    {e : CompiledInterface × Bytes} (howner : owner e.1.id = some .device) (hsemicolon : 59 ∈ e.2)
    {t t' : Tables}
    (h : purgeListed z realm dev id owner (deflateProperties z (entries.map entryText)) t = .ok t') :
    t'.properties ⟨realm.id, id, e.1.id, e.2⟩ = none := by
  rw [purgeListed, inflate_deflate hz hsize] at h
  obtain ⟨list, hlist, h⟩ := bind_eq_ok_iff.1 h
  cases hlist
  cases h
  refine if_pos ⟨⟨rfl, rfl, howner⟩, fun hmem => ?_⟩
  obtain ⟨entry, hentry, href⟩ := List.mem_filterMap.1 hmem
  refine semicolon_not_mem_ref href ?_ hsemicolon
  split_ifs at hentry
  · cases hentry
  · exact not_mem_of_mem_splitOn _ _ hentry

/-- A list of legal properties is read as it was written, and a producer list of them keeps exactly
their rows, just when no path holds a semicolon. -/
theorem property_list_iff {z : Zlib} (hz : z.Inverts) (hlegal : ∀ e ∈ entries, LegalEntry e)
    (hsize : (joinEntries (entries.map entryText)).length ≤ maxControlInflated) :
    (inflateProperties z (deflateProperties z (entries.map entryText)) = .ok (entries.map entryText) ↔
      ∀ e ∈ entries, 59 ∉ e.2) ∧
    ∀ (realm : RealmCatalog) (dev : DeviceState) (id : DeviceID) (owner : Int → Option Ownership),
      (∀ e ∈ entries, DeclaredOwned realm dev owner e) →
        ((∀ t, ∃ t', purgeListed z realm dev id owner
            (deflateProperties z (entries.map entryText)) t = .ok t' ∧
            KeepsExactly owner realm.id id (entries.map entryRef) t t') ↔
          ∀ e ∈ entries, 59 ∉ e.2) := by
  have hcodec : inflateProperties z (deflateProperties z (entries.map entryText)) =
      .ok (entries.map entryText) ↔ ∀ e ∈ entries, 59 ∉ e.2 := by
    rw [inflate_deflate hz hsize, Except.ok.injEq, splitEntries_iff hlegal]
  refine ⟨hcodec, fun realm dev id owner hdeclared => ⟨fun hkeeps e he hsemicolon => ?_, ?_⟩⟩
  · -- A table that holds the row: the purge drops it although it is listed.
    obtain ⟨t', hpurge, hrows⟩ := hkeeps
      (Tables.empty.upsertProperty ⟨realm.id, id, e.1.id, 0, e.2, [], .integer⟩)
    have hlisted : (⟨e.1.id, e.2⟩ : PropertyRef) ∈ entries.map entryRef := List.mem_map_of_mem he
    have hrow := hrows ⟨realm.id, id, e.1.id, e.2⟩
    rw [if_neg (fun hdrop => hdrop.2 hlisted),
      purge_drops_semicolon hz hsize (hdeclared e he).2 hsemicolon hpurge] at hrow
    have hkept : ∀ row : Property, (Tables.empty.upsertProperty row).properties row.key = some row :=
      fun row => if_pos rfl
    cases hrow.trans (hkept _)
  · intro hfree t
    refine ⟨_, bind_eq_ok_iff.2 ⟨_, hcodec.2 hfree, rfl⟩, fun k => ?_⟩
    rw [resolvePropertyRefs_entries hlegal hdeclared]
    rfl

end Entries

/-- A device-owned property per room. -/
def roomsDocument : Bytes :=
  Json.marshal true <| InterfaceSchema.InterfaceJSON.toAny
    { interfaceName := some (utf8 "org.example.Rooms"), versionMajor := some 1,
      versionMinor := some 0, type := some .properties, ownership := some .device,
      mappings := .ofList [{ endpoint := some (utf8 "/%\x7broom\x7d/mode"), type := some .string }] }

def roomsInterface : InterfaceSchema.Interface :=
  { name := utf8 "org.example.Rooms", major := 1, minor := 0, type := .properties,
    ownership := .device, aggregation := .individual,
    mappings := [{ endpoint := utf8 "/%\x7broom\x7d/mode", type := .string }] }

def roomsCompiled : InterfaceSchema.CompiledInterface :=
  (InterfaceSchema.compile roomsInterface none).toOption.get (by decide +kernel)

theorem rooms_accepted : Accepted roomsCompiled := by
  have hparse : InterfaceSchema.parseInterface roomsDocument = .ok roomsInterface := by decide +kernel
  exact ⟨_, _, none, hparse, rfl⟩

/-- A device that declares the rooms. -/
def roomsDevice : DeviceState := { introspection := [(utf8 "org.example.Rooms", ⟨1, 0⟩)], formatHint := .bson }

theorem declared_rooms (path : Bytes) :
    DeclaredOwned (soleCatalog rooms_accepted) roomsDevice (fun _ => some .device) (roomsCompiled, path) := by
  have hdeclares : roomsDevice.declares roomsCompiled.name = some ⟨1, 0⟩ := by decide +kernel
  exact ⟨⟨⟨1, 0⟩, hdeclares, iface_soleCatalog rooms_accepted⟩, rfl⟩

/-- The list of a device with two rooms, and the purge that it asks for. -/
theorem property_list_kitchen : ∃ ci, ∃ h : Accepted ci,
    let entries := [(ci, utf8 "/kitchen/mode"), (ci, utf8 "/hall/mode")]
    let list := deflateProperties Zlib.stored (entries.map entryText)
    inflateProperties Zlib.stored list =
      .ok [utf8 "org.example.Rooms/kitchen/mode", utf8 "org.example.Rooms/hall/mode"] ∧
    ∀ t, ∃ t', purgeListed Zlib.stored (soleCatalog h) roomsDevice (Vector.replicate 16 0)
        (fun _ => some .device) list t = .ok t' ∧
      KeepsExactly (fun _ => some .device) 1 (Vector.replicate 16 0) (entries.map entryRef) t t' := by
  have hlegal : ∀ e ∈ [(roomsCompiled, utf8 "/kitchen/mode"), (roomsCompiled, utf8 "/hall/mode")],
      LegalEntry e :=
    List.forall_mem_cons.2 ⟨⟨rooms_accepted, Option.isSome_iff_exists.1 (by decide +kernel)⟩,
      List.forall_mem_singleton.2 ⟨rooms_accepted, Option.isSome_iff_exists.1 (by decide +kernel)⟩⟩
  obtain ⟨hlist, hpurge⟩ := property_list_iff Zlib.stored_inverts hlegal (by decide +kernel)
  refine ⟨roomsCompiled, rooms_accepted, hlist.2 (by decide +kernel), ?_⟩
  exact (hpurge (soleCatalog rooms_accepted) roomsDevice _ _ (List.forall_mem_cons.2
    ⟨declared_rooms _, List.forall_mem_singleton.2 (declared_rooms _)⟩)).2 (by decide +kernel)

/-- A room called `a;b`: the list falls apart, and the row is dropped although it was listed. -/
theorem semicolon_row_dropped :
    ∃ ci, ∃ h : Accepted ci, LegalEntry (ci, utf8 "/a;b/mode") ∧
      DeclaredOwned (soleCatalog h) roomsDevice (fun _ => some .device) (ci, utf8 "/a;b/mode") ∧
      inflateProperties Zlib.stored
          (deflateProperties Zlib.stored [entryText (ci, utf8 "/a;b/mode")]) =
        .ok [utf8 "org.example.Rooms/a", utf8 "b/mode"] ∧
      ∀ t, ∃ t', purgeListed Zlib.stored (soleCatalog h) roomsDevice (Vector.replicate 16 0)
          (fun _ => some .device) (deflateProperties Zlib.stored [entryText (ci, utf8 "/a;b/mode")]) t = .ok t' ∧
        t'.properties ⟨1, Vector.replicate 16 0, 0, utf8 "/a;b/mode"⟩ = none := by
  have hinflate : inflateProperties Zlib.stored
      (deflateProperties Zlib.stored [entryText (roomsCompiled, utf8 "/a;b/mode")]) =
        .ok [utf8 "org.example.Rooms/a", utf8 "b/mode"] := by decide +kernel
  refine ⟨roomsCompiled, rooms_accepted, ⟨rooms_accepted, Option.isSome_iff_exists.1 (by decide +kernel)⟩,
    declared_rooms _, hinflate, fun t => ?_⟩
  have hpurge : purgeListed Zlib.stored (soleCatalog rooms_accepted) roomsDevice (Vector.replicate 16 0)
      (fun _ => some .device) (deflateProperties Zlib.stored [entryText (roomsCompiled, utf8 "/a;b/mode")]) t =
        .ok _ :=
    bind_eq_ok_iff.2 ⟨_, hinflate, rfl⟩
  have hsize : (joinEntries ([(roomsCompiled, utf8 "/a;b/mode")].map entryText)).length ≤
      maxControlInflated := by decide +kernel
  exact ⟨_, hpurge, purge_drops_semicolon (e := (roomsCompiled, utf8 "/a;b/mode")) Zlib.stored_inverts hsize
    rfl (by decide +kernel) hpurge⟩

end Astrate.Engine
