import Astrate.Broker.Delivery
import Astrate.GoLib.Relay

/-!
# Server-owned properties on the device

`PublishServerValue`, `UnsetServerProperty` and `sendConsumerProperties` for one device, running at the
same time. Each of them works on the rows of the device and tells it afterwards: a value, an empty
message, the list of all properties that are set. Nothing keeps another call from changing the rows in
between. Then a value may arrive after the unset that came behind it, or a list that lacks a value which
has arrived already, and the device ends up without what the store has, or with more.

The calls are a `Relay` of rows and messages, and the device agrees with the rows in the end whenever no
message is overtaken (`server_properties_converge`).
-/

set_option autoImplicit false

namespace Astrate.Broker

open Astrate.GoLib
open Astrate.InterfaceSchema (CompiledInterface not_mem_name)
open Astrate.Engine (RealmCatalog DeviceView planPublish planUnset consumerEntries joinEntries
  encodeValueJSON LegalEntry entryText PathOK)
open Astrate.Store (Property PropertyKey)

/-! ## Calls -/

/-- What the calls for a device share: the schema of its realm and what is known of the device. The id
of an interface is its primary key. -/
structure DeviceContext where
  drv : Bson.Driver
  compact : Bytes → Option Bytes
  rs : RealmCatalog
  view : DeviceView
  realm : Bytes
  id : DeviceID
  ids_nodup : (rs.interfaces.map fun ci => ci.id).Nodup

/-- A call of the API. -/
inductive ServerRequest where
  /-- `PublishServerValue`. -/
  | publish (name path value : Bytes) (effTS : Time)
  /-- `UnsetServerProperty`. -/
  | unset (name path : Bytes)
  /-- `sendConsumerProperties`, as it is called when a device connects. -/
  | send

/-- A step on the rows, with what is told of it: the entry `<interface name><path>` of the property and
its value. -/
inductive PropertyOp where
  | upsert (entry : Bytes) (row : Property) (value : Option Payload.Value)
  | delete (entry : Bytes) (key : PropertyKey)
  | list

/-- What the device is told. -/
inductive DeviceMessage where
  | set (entry : Bytes) (value : Option Payload.Value)
  | unset (entry : Bytes)
  /-- The list of properties, as text. -/
  | consumerProperties (text : Bytes)

/-- The steps of a call. One that is refused does nothing, and a sample is not a property. -/
def ServerRequest.steps (ctx : DeviceContext) : ServerRequest → List PropertyOp
  | .publish name path value effTS =>
    match planPublish ctx.drv ctx.compact ctx.rs ctx.view .server ctx.realm ctx.id name path value
      effTS with
    | .ok (.property row, out) => [.upsert (name ++ path) row out.dp.value]
    | _ => []
  | .unset name path =>
    match planUnset ctx.rs ctx.view ctx.id name path with
    | .ok key => [.delete (name ++ path) key, .list]
    | .error _ => []
  | .send => [.list]

/-- The entries of a list as the device reads them. -/
def listedEntries (text : Bytes) : List Bytes := if text = [] then [] else text.splitOn 59

/-- The device keeps its properties by entry, with the rendering of their values. -/
def applyMessage : DeviceMessage → (Bytes → Option Bytes) → Bytes → Option Bytes
  | .set entry value, device => fun e => if e = entry then (encodeValueJSON value).toOption else device e
  | .unset entry, device => fun e => if e = entry then none else device e
  | .consumerProperties text, device =>
    fun e => if (listedEntries text).contains e then device e else none

/-- A message is overtaken by a change of the property it is about, and a list by a new property. -/
def overtakes (op : PropertyOp) (rows : List Property) (m : DeviceMessage) : Bool :=
  match op, m with
  | .upsert entry _ _, .set entry' _ => entry = entry'
  | .upsert entry _ _, .unset entry' => entry = entry'
  | .upsert _ row _, .consumerProperties _ => !rows.any fun p => p.key = row.key
  | .delete entry _, .set entry' _ => entry = entry'
  | .delete entry _, .unset entry' => entry = entry'
  | .delete _ _, .consumerProperties _ => false
  | .list, _ => false

/-- The rows of the device, and the device. -/
def propertyRelay (ctx : DeviceContext) :
    Relay (List Property) (Bytes → Option Bytes) PropertyOp DeviceMessage where
  perform
    | .upsert _ row _, rows => rows.filter (fun p => p.key ≠ row.key) ++ [row]
    | .delete _ key, rows => rows.filter fun p => p.key ≠ key
    | .list, rows => rows
  notice
    | .upsert entry _ value, _ => .set entry value
    | .delete entry _, _ => .unset entry
    | .list, rows => .consumerProperties (joinEntries (consumerEntries ctx.rs rows))
  apply := applyMessage
  disturbs := overtakes
  owes
    | .set _ _ => true
    | .unset _ => true
    | .consumerProperties _ => false

/-! ## Rows and entries -/

section

variable (ctx : DeviceContext)

/-- The entry of a row. -/
def rowEntry (p : Property) : Option Bytes :=
  (ctx.rs.ifaceByID p.interfaceID).map fun ci => ci.name ++ p.path

/-- The entry and the key of one property of the device, of the interface that its name resolves to. -/
structure Names (ci : CompiledInterface) (entry : Bytes) (key : PropertyKey) : Prop where
  resolves : ctx.rs.resolve ctx.view.declares ci.name = some ci
  matched : ∃ ptr, ci.trie.matchPath key.path = some ptr
  key_eq : key = ⟨ctx.rs.id, ctx.id, ci.id, key.path⟩
  entry_eq : entry = ci.name ++ key.path

/-- The row is a property of an interface that its name resolves to. -/
def Resident (p : Property) : Prop := 59 ∉ p.path ∧ ∃ ci entry, Names ctx ci entry p.key

/-- The rows hold a value under an entry. -/
def ValueAt (rows : List Property) (entry value : Bytes) : Prop :=
  ∃ row ∈ rows, rowEntry ctx row = some entry ∧ row.value = value

variable {ctx} {ci ci' : CompiledInterface} {entry : Bytes} {key key' : PropertyKey}

theorem Names.mem (h : Names ctx ci entry key) : ci ∈ ctx.rs.interfaces :=
  (RealmCatalog.resolve_eq_some h.resolves).1

theorem Names.legal (h : Names ctx ci entry key) : LegalEntry (ci, key.path) :=
  ⟨ctx.rs.accepted ci h.mem, h.matched⟩

theorem Names.cut (h : Names ctx ci entry key) :
    ∃ rest, cutByte 47 entry = some (ci.name, rest) ∧ key.path = 47 :: rest := by
  obtain ⟨c, rest, hpath, -⟩ := h.legal.pathText.rooted
  refine ⟨c :: rest, (cutByte_eq_some_iff ..).2 ⟨?_, not_mem_name h.legal.name_ok (by decide)⟩, hpath⟩
  rw [h.entry_eq]
  exact congrArg (ci.name ++ ·) hpath

/-- The entry determines the property. -/
theorem Names.unique (h : Names ctx ci entry key) (h' : Names ctx ci' entry key') : key = key' := by
  obtain ⟨rest, hcut, hpath⟩ := h.cut
  obtain ⟨rest', hcut', hpath'⟩ := h'.cut
  rw [hcut, Option.some.injEq, Prod.mk.injEq] at hcut'
  obtain ⟨hname, rfl⟩ := hcut'
  have hresolves := h.resolves
  rw [hname, h'.resolves, Option.some.injEq] at hresolves
  rw [h.key_eq, h'.key_eq, hresolves, hpath, hpath']

theorem Names.rowEntry {p : Property} (h : Names ctx ci entry p.key) : rowEntry ctx p = some entry := by
  have hid : p.interfaceID = ci.id := congrArg PropertyKey.interfaceID h.key_eq
  rw [Broker.rowEntry, hid, RealmCatalog.ifaceByID_of_mem ctx.ids_nodup h.mem, h.entry_eq]
  rfl

/-- A row has this entry just when it has this key. -/
theorem rowEntry_eq_iff {p : Property} (hp : Resident ctx p) (h : Names ctx ci entry key) :
    rowEntry ctx p = some entry ↔ p.key = key := by
  constructor
  · intro hentry
    obtain ⟨-, ci', entry', hnames⟩ := hp
    rw [hnames.rowEntry, Option.some.injEq] at hentry
    subst hentry
    exact hnames.unique h
  · rintro rfl
    exact h.rowEntry

variable {rows : List Property}

theorem valueAt_upsert (hrows : ∀ p ∈ rows, Resident ctx p) {row : Property}
    (h : Names ctx ci entry row.key) (e v : Bytes) :
    ValueAt ctx (rows.filter (fun p => p.key ≠ row.key) ++ [row]) e v ↔
      if e = entry then row.value = v else ValueAt ctx rows e v := by
  constructor
  · rintro ⟨p, hp, hentry, hvalue⟩
    rcases List.mem_append.1 hp with hp | hp
    · obtain ⟨hp, hkey⟩ := List.mem_filter.1 hp
      rw [decide_eq_true_eq] at hkey
      rw [if_neg]
      · exact ⟨p, hp, hentry, hvalue⟩
      · rintro rfl
        exact hkey ((rowEntry_eq_iff (hrows p hp) h).1 hentry)
    · rw [List.mem_singleton] at hp
      subst hp
      rw [h.rowEntry, Option.some.injEq] at hentry
      rw [if_pos hentry.symm]
      exact hvalue
  · intro hv
    split_ifs at hv with he
    · subst he
      exact ⟨row, List.mem_append_right _ (List.mem_singleton_self _), h.rowEntry, hv⟩
    · obtain ⟨p, hp, hentry, hvalue⟩ := hv
      refine ⟨p, List.mem_append_left _ (List.mem_filter.2 ⟨hp, ?_⟩), hentry, hvalue⟩
      rw [decide_eq_true_eq]
      intro hkey
      rw [(rowEntry_eq_iff (hrows p hp) h).2 hkey, Option.some.injEq] at hentry
      exact he hentry.symm

theorem valueAt_delete (hrows : ∀ p ∈ rows, Resident ctx p) (h : Names ctx ci entry key) (e v : Bytes) :
    ValueAt ctx (rows.filter fun p => p.key ≠ key) e v ↔ e ≠ entry ∧ ValueAt ctx rows e v := by
  constructor
  · rintro ⟨p, hp, hentry, hvalue⟩
    obtain ⟨hp, hkey⟩ := List.mem_filter.1 hp
    rw [decide_eq_true_eq] at hkey
    refine ⟨?_, p, hp, hentry, hvalue⟩
    rintro rfl
    exact hkey ((rowEntry_eq_iff (hrows p hp) h).1 hentry)
  · rintro ⟨he, p, hp, hentry, hvalue⟩
    refine ⟨p, List.mem_filter.2 ⟨hp, ?_⟩, hentry, hvalue⟩
    rw [decide_eq_true_eq]
    intro hkey
    rw [(rowEntry_eq_iff (hrows p hp) h).2 hkey, Option.some.injEq] at hentry
    exact he hentry.symm

/-- The device reads the list as it was written. -/
theorem mem_listedEntries (hrows : ∀ p ∈ rows, Resident ctx p) {e v : Bytes} (h : ValueAt ctx rows e v) :
    e ∈ listedEntries (joinEntries (consumerEntries ctx.rs rows)) := by
  have htexts : ∃ entries : List (CompiledInterface × Bytes),
      entries.map entryText = consumerEntries ctx.rs rows ∧
        ∀ x ∈ entries, LegalEntry x ∧ 59 ∉ x.2 := by
    refine ⟨rows.filterMap fun p => (ctx.rs.ifaceByID p.interfaceID).map fun ci => (ci, p.path), ?_,
      fun x hx => ?_⟩
    · rw [List.map_filterMap, consumerEntries]
      refine List.filterMap_congr fun p _ => ?_
      rw [Option.map_map]
      rfl
    · obtain ⟨p, hp, hx⟩ := List.mem_filterMap.1 hx
      obtain ⟨hsemicolon, ci, entry, hnames⟩ := hrows p hp
      have hid : p.interfaceID = ci.id := congrArg PropertyKey.interfaceID hnames.key_eq
      rw [hid, RealmCatalog.ifaceByID_of_mem ctx.ids_nodup hnames.mem, Option.map_some, Option.some.injEq] at hx
      subst hx
      exact ⟨hnames.legal, hsemicolon⟩
  obtain ⟨entries, htexts, hlegal⟩ := htexts
  have hsplit := (Engine.splitEntries_iff fun x hx => (hlegal x hx).1).2 fun x hx => (hlegal x hx).2
  rw [htexts] at hsplit
  rw [listedEntries, hsplit]
  obtain ⟨row, hrow, hentry, -⟩ := h
  exact List.mem_filterMap.2 ⟨row, hrow, hentry⟩

/-! ## The laws -/

/-- What the steps of a call come with. -/
def ValidOp (ctx : DeviceContext) : PropertyOp → Prop
  | .upsert entry row value =>
    Resident ctx row ∧ (∃ ci, Names ctx ci entry row.key) ∧ encodeValueJSON value = .ok row.value
  | .delete entry key => ∃ ci, Names ctx ci entry key
  | .list => True

/-- The device holds what the rows hold under an entry. -/
def Agrees (ctx : DeviceContext) (e : Bytes) (rows : List Property) (device : Bytes → Option Bytes) :
    Prop :=
  ∀ v, device e = some v ↔ ValueAt ctx rows e v

/-- The rows bear out a message. -/
def BornOut (ctx : DeviceContext) (m : DeviceMessage) (rows : List Property) : Prop :=
  match m with
  | .set entry value => ∀ v, (encodeValueJSON value).toOption = some v ↔ ValueAt ctx rows entry v
  | .unset entry => ∀ v, ¬ ValueAt ctx rows entry v
  | .consumerProperties text => ∀ e v, ValueAt ctx rows e v → e ∈ listedEntries text

/-- The property a message is about. -/
def IsAbout (m : DeviceMessage) (e : Bytes) : Prop :=
  match m with
  | .set entry _ => e = entry
  | .unset entry => e = entry
  | .consumerProperties _ => False

theorem resident_perform {op : PropertyOp} (hop : ValidOp ctx op) (hrows : ∀ p ∈ rows, Resident ctx p) :
    ∀ p ∈ (propertyRelay ctx).perform op rows, Resident ctx p := by
  intro p hp
  cases op with
  | upsert entry row value =>
    rcases List.mem_append.1 hp with hp | hp
    · exact hrows p (List.mem_filter.1 hp).1
    · rw [List.mem_singleton] at hp
      rw [hp]
      exact hop.1
  | delete entry key => exact hrows p (List.mem_filter.1 hp).1
  | list => exact hrows p hp

theorem bornOut_notice {op : PropertyOp} (hop : ValidOp ctx op) (hrows : ∀ p ∈ rows, Resident ctx p) :
    BornOut ctx ((propertyRelay ctx).notice op rows) ((propertyRelay ctx).perform op rows) := by
  cases op with
  | upsert entry row value =>
    obtain ⟨-, ⟨ci, hnames⟩, hjson⟩ := hop
    intro v
    rw [hjson]
    refine Iff.trans ?_ (valueAt_upsert hrows hnames entry v).symm
    rw [if_pos rfl]
    exact Option.some_inj
  | delete entry key =>
    obtain ⟨ci, hnames⟩ := hop
    intro v hv
    exact ((valueAt_delete hrows hnames entry v).1 hv).1 rfl
  | list => exact fun e v hv => mem_listedEntries hrows hv

/-- A message that is not overtaken stays borne out. -/
theorem bornOut_perform {op : PropertyOp} {m : DeviceMessage}
    (hop : ValidOp ctx op) (hrows : ∀ p ∈ rows, Resident ctx p) (hm : overtakes op rows m = false)
    (h : BornOut ctx m rows) : BornOut ctx m ((propertyRelay ctx).perform op rows) := by
  cases op with
  | upsert entry row value =>
    obtain ⟨-, ⟨ci, hnames⟩, -⟩ := hop
    have hother : ∀ e, entry ≠ e → ∀ v, ValueAt ctx ((propertyRelay ctx).perform
        (.upsert entry row value) rows) e v ↔ ValueAt ctx rows e v := by
      intro e he v
      refine (valueAt_upsert hrows hnames e v).trans ?_
      rw [if_neg (Ne.symm he)]
    cases m with
    | set entry' value' =>
      have he : entry ≠ entry' := of_decide_eq_false hm
      exact fun v => (h v).trans (hother entry' he v).symm
    | unset entry' =>
      have he : entry ≠ entry' := of_decide_eq_false hm
      exact fun v hv => h v ((hother entry' he v).1 hv)
    | consumerProperties text =>
      intro e v hv
      by_cases he : entry = e
      · -- The property was there before, so the list has it.
        have hany : (rows.any fun p => p.key = row.key) = true := by
          simpa [overtakes] using hm
        obtain ⟨p, hp, hkey⟩ := List.any_eq_true.1 hany
        rw [decide_eq_true_eq] at hkey
        exact he ▸ h entry p.value
          ⟨p, hp, (rowEntry_eq_iff (hrows p hp) hnames).2 hkey, rfl⟩
      · exact h e v ((hother e he v).1 hv)
  | delete entry key =>
    obtain ⟨ci, hnames⟩ := hop
    have hless : ∀ e v, ValueAt ctx ((propertyRelay ctx).perform (.delete entry key) rows) e v →
        ValueAt ctx rows e v := fun e v hv => ((valueAt_delete hrows hnames e v).1 hv).2
    cases m with
    | set entry' value' =>
      have he : entry ≠ entry' := of_decide_eq_false hm
      refine fun v => (h v).trans ⟨fun hv => ?_, hless entry' v⟩
      exact (valueAt_delete hrows hnames entry' v).2 ⟨Ne.symm he, hv⟩
    | unset entry' => exact fun v hv => h v (hless entry' v hv)
    | consumerProperties text => exact fun e v hv => h e v (hless e v hv)
  | list => exact h

/-- A step leaves alone what its message is not about. -/
theorem agrees_perform {op : PropertyOp} {device : Bytes → Option Bytes}
    {e : Bytes} (hop : ValidOp ctx op) (hrows : ∀ p ∈ rows, Resident ctx p)
    (habout : ¬ IsAbout ((propertyRelay ctx).notice op rows) e) (h : Agrees ctx e rows device) :
    Agrees ctx e ((propertyRelay ctx).perform op rows) device := by
  cases op with
  | upsert entry row value =>
    obtain ⟨-, ⟨ci, hnames⟩, -⟩ := hop
    have he : e ≠ entry := habout
    intro v
    refine (h v).trans (Iff.trans ?_ (valueAt_upsert hrows hnames e v).symm)
    rw [if_neg he]
  | delete entry key =>
    obtain ⟨ci, hnames⟩ := hop
    intro v
    refine (h v).trans (Iff.trans ?_ (valueAt_delete hrows hnames e v).symm)
    exact (and_iff_right habout).symm
  | list => exact h

/-- A message that is borne out brings its property into agreement and spoils no other. -/
theorem agrees_apply {m : DeviceMessage} {device : Bytes → Option Bytes}
    {e : Bytes} (hm : BornOut ctx m rows) (h : IsAbout m e ∨ Agrees ctx e rows device) :
    Agrees ctx e rows (applyMessage m device) := by
  intro v
  cases m with
  | set entry value =>
    dsimp only [applyMessage]
    by_cases he : e = entry
    · rw [if_pos he, he]
      exact hm v
    · rw [if_neg he]
      exact h.resolve_left he v
  | unset entry =>
    dsimp only [applyMessage]
    by_cases he : e = entry
    · rw [if_pos he, he]
      exact iff_of_false nofun (hm v)
    · rw [if_neg he]
      exact h.resolve_left he v
  | consumerProperties text =>
    dsimp only [applyMessage]
    by_cases he : (listedEntries text).contains e = true
    · rw [if_pos he]
      exact h.resolve_left (fun hfalse => hfalse) v
    · rw [if_neg he]
      rw [List.contains_iff_mem] at he
      exact iff_of_false nofun fun hv => he (hm e v hv)

theorem propertyRelay_lawful (ctx : DeviceContext) :
    (propertyRelay ctx).Lawful (ValidOp ctx) (fun rows => ∀ p ∈ rows, Resident ctx p) (Agrees ctx)
      (BornOut ctx) IsAbout where
  inv_perform := resident_perform
  holds_notice := bornOut_notice
  holds_perform := fun hop hrows hm h => bornOut_perform hop hrows hm h
  agree_perform := agrees_perform
  agree_apply := fun _ hm h => agrees_apply hm h
  not_speaks := fun {m} e howes => by
    cases m with
    | set entry value => cases howes
    | unset entry => cases howes
    | consumerProperties text => exact fun h => h

/-! ## Convergence -/

/-- No value is published on a path with a semicolon. -/
def ServerRequest.NoSemicolon : ServerRequest → Prop
  | .publish _ path _ _ => 59 ∉ path
  | _ => True

theorem valid_publish {name path value : Bytes} {effTS : Time} {row : Property}
    {out : Engine.OwnerDelivery} (hpath : 59 ∉ path)
    (h : planPublish ctx.drv ctx.compact ctx.rs ctx.view .server ctx.realm ctx.id name path value effTS =
      .ok (.property row, out)) : ValidOp ctx (.upsert (name ++ path) row out.dp.value) := by
  obtain ⟨ci, hresolve, htype, hpathOK, hkey, hjson⟩ := Engine.planPublish_property h
  obtain ⟨hmem, hname⟩ := RealmCatalog.resolve_eq_some hresolve
  have hrow : row.path = path := congrArg PropertyKey.path hkey
  have hindividual : ci.aggregation ≠ .object := fun hobj => by
    rw [(ctx.rs.accepted ci hmem).object_datastream hobj] at htype
    cases htype
  rw [PathOK, if_neg hindividual] at hpathOK
  have hnames : Names ctx ci (name ++ path) row.key := by
    rw [hkey]
    exact ⟨by rw [hname]; exact hresolve, hpathOK, rfl, by rw [hname]⟩
  exact ⟨⟨by rw [hrow]; exact hpath, ci, _, hnames⟩, ⟨ci, hnames⟩, hjson⟩

theorem valid_unset {name path : Bytes} (h : planUnset ctx.rs ctx.view ctx.id name path = .ok key) :
    ValidOp ctx (.delete (name ++ path) key) := by
  obtain ⟨ci, hresolve, -, -, hmatched, rfl⟩ := Engine.planUnset_ok h
  obtain ⟨-, hname⟩ := RealmCatalog.resolve_eq_some hresolve
  exact ⟨ci, by rw [hname]; exact hresolve, hmatched, rfl, by rw [hname]⟩

theorem valid_steps {r : ServerRequest} (hr : r.NoSemicolon) : ∀ op ∈ r.steps ctx, ValidOp ctx op := by
  intro op hop
  cases r with
  | publish name path value effTS =>
    rw [ServerRequest.steps] at hop
    split at hop
    next row out hplan =>
      rw [List.mem_singleton] at hop
      rw [hop]
      exact valid_publish hr hplan
    next => cases hop
  | unset name path =>
    rw [ServerRequest.steps] at hop
    split at hop
    next key hplan =>
      rcases List.mem_cons.1 hop with rfl | hop
      · exact valid_unset hplan
      · rw [List.mem_singleton] at hop
        rw [hop]
        trivial
    next => cases hop
  | send =>
    rw [ServerRequest.steps, List.mem_singleton] at hop
    rw [hop]
    trivial

/-- The calls to come. -/
def startCalls (ctx : DeviceContext) (rows : List Property) (device : Bytes → Option Bytes)
    (requests : List ServerRequest) :
    RelayState (List Property) (Bytes → Option Bytes) PropertyOp DeviceMessage :=
  ⟨rows, device, (requests.map fun r => r.steps ctx).map fun ops => ⟨ops, none⟩⟩

/-- Once all calls have returned, the device holds exactly the properties in the store, with their
values: for every number of calls and every schedule in which no message is overtaken by another call
and no value and no unset is lost. -/
theorem server_properties_converge {ctx : DeviceContext} {rows : List Property}
    {device : Bytes → Option Bytes} {requests : List ServerRequest} {schedule : List RelayStep}
    {s : RelayState (List Property) (Bytes → Option Bytes) PropertyOp DeviceMessage}
    (hrows : ∀ p ∈ rows, Resident ctx p) (hpaths : ∀ r ∈ requests, r.NoSemicolon)
    (hagrees : ∀ e v, device e = some v ↔ ∃ row ∈ rows, rowEntry ctx row = some e ∧ row.value = v)
    (hrun : exec (propertyRelay ctx).step (startCalls ctx rows device requests) schedule = some s)
    (hok : Throughout (propertyRelay ctx).step (fun s a => (propertyRelay ctx).undisturbed s a = true)
      (startCalls ctx rows device requests) schedule)
    (hdone : Relay.Done s) :
    ∀ e v, s.replica e = some v ↔ ∃ row ∈ s.store, rowEntry ctx row = some e ∧ row.value = v := by
  refine (propertyRelay_lawful ctx).converges (fun ops hops => ?_) hrows hagrees hrun hok hdone
  obtain ⟨r, hr, rfl⟩ := List.mem_map.1 hops
  exact valid_steps (hpaths r hr)

end

/-- The display of `Delivery`. -/
def displayContext : DeviceContext where
  drv := Bson.reader
  compact := some
  rs := Engine.soleCatalog display_accepted
  view := ⟨fun n => [(utf8 "org.example.Display", ⟨1, 0⟩)].lookup n, .bson⟩
  realm := utf8 "acme"
  id := Vector.replicate 16 0
  ids_nodup := List.nodup_singleton _

/-- A text for a wall of the kitchen. -/
def kitchenText (path value : Bytes) : ServerRequest :=
  .publish (utf8 "org.example.Display") path value ⟨0⟩

/-- All calls have returned, as a test. -/
def allReturned (s : RelayState (List Property) (Bytes → Option Bytes) PropertyOp DeviceMessage) :
    Bool :=
  s.calls.all fun call => call.todo.isEmpty && call.pending.isNone

theorem done_of_allReturned {s : RelayState (List Property) (Bytes → Option Bytes) PropertyOp DeviceMessage}
    (h : allReturned s = true) : Relay.Done s := by
  intro call hcall
  have := List.all_eq_true.1 h call hcall
  rw [Bool.and_eq_true, List.isEmpty_iff, Option.isNone_iff_eq_none] at this
  exact this

/-- A text is set on two walls and unset on one of them while the device connects. -/
def kitchenRequests : List ServerRequest :=
  [kitchenText (utf8 "/kitchen/north/text") (utf8 "\"on\""),
   kitchenText (utf8 "/kitchen/south/text") (utf8 "\"off\""),
   .unset (utf8 "org.example.Display") (utf8 "/kitchen/north/text"), .send]

def kitchenSchedule : List RelayStep :=
  [.store 0, .store 1, .tell 1, .tell 0, .store 2, .store 3, .tell 2, .tell 3, .store 2, .tell 2]

/-- The text of the other wall is left, in the store and on the device. -/
theorem server_properties_converge_kitchen :
    ∃ s, exec (propertyRelay displayContext).step
        (startCalls displayContext [] (fun _ => none) kitchenRequests) kitchenSchedule = some s ∧
      Relay.Done s ∧ s.store.map (fun p => p.path) = [utf8 "/kitchen/south/text"] ∧
      ∀ e v, s.replica e = some v ↔ ∃ row ∈ s.store, rowEntry displayContext row = some e ∧ row.value = v := by
  have hrun : (exec (propertyRelay displayContext).step
      (startCalls displayContext [] (fun _ => none) kitchenRequests) kitchenSchedule).map
        (fun s => (allReturned s, s.store.map fun p => p.path)) =
      some (true, [utf8 "/kitchen/south/text"]) := by decide +kernel
  obtain ⟨s, hrun, hend⟩ := Option.map_eq_some_iff.1 hrun
  obtain ⟨hdone, hstore⟩ := Prod.mk.inj hend
  refine ⟨s, hrun, done_of_allReturned hdone, hstore, ?_⟩
  refine server_properties_converge ?_ ?_ ?_ hrun (by decide +kernel) (done_of_allReturned hdone)
  · intro p hp
    cases hp
  · intro r hr
    simp only [kitchenRequests, List.mem_cons, List.not_mem_nil, or_false] at hr
    rcases hr with rfl | rfl | rfl | rfl
    · show (59 : UInt8) ∉ utf8 "/kitchen/north/text"
      decide +kernel
    · show (59 : UInt8) ∉ utf8 "/kitchen/south/text"
      decide +kernel
    · trivial
    · trivial
  · intro e v
    exact iff_of_false nofun fun ⟨_, hrow, _⟩ => nomatch hrow

/-- The device connects while a text is published: the list is read before the row is written and sent
after the value, and the device drops the text that the store keeps. -/
theorem stale_list_purges :
    ∃ s, exec (propertyRelay displayContext).step
        (startCalls displayContext [] (fun _ => none)
          [.send, kitchenText (utf8 "/kitchen/north/text") (utf8 "\"on\"")])
        [.store 0, .store 1, .tell 1, .tell 0] = some s ∧
      Relay.Done s ∧ s.replica (utf8 "org.example.Display/kitchen/north/text") = none ∧
      s.store.map (fun p => (rowEntry displayContext p, p.value)) =
        [(some (utf8 "org.example.Display/kitchen/north/text"), utf8 "\"on\"")] := by
  have hrun : (exec (propertyRelay displayContext).step
      (startCalls displayContext [] (fun _ => none)
        [.send, kitchenText (utf8 "/kitchen/north/text") (utf8 "\"on\"")])
      [.store 0, .store 1, .tell 1, .tell 0]).map (fun s => (allReturned s,
        s.replica (utf8 "org.example.Display/kitchen/north/text"),
        s.store.map fun p => (rowEntry displayContext p, p.value))) =
      some (true, none, [(some (utf8 "org.example.Display/kitchen/north/text"), utf8 "\"on\"")]) := by
    decide +kernel
  obtain ⟨s, hrun, hend⟩ := Option.map_eq_some_iff.1 hrun
  obtain ⟨hdone, hend⟩ := Prod.mk.inj hend
  obtain ⟨hdevice, hstore⟩ := Prod.mk.inj hend
  exact ⟨s, hrun, done_of_allReturned hdone, hdevice, hstore⟩

end Astrate.Broker
