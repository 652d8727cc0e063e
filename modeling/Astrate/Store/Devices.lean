import Astrate.Engine.Data
import Astrate.GoLib.Schedule

/-!
# Device rows

The table `devices` and the statements of `internal/store/devices.go` that change the status, the
credentials and the introspection of a device. Every statement changes the row of one device and fails
without an effect when there is no such row.

`old_introspection` is a map of interface names, while what a device stops declaring are pairs of a name
and a major version: a name that loses a second major forgets the first one. `history_complete_iff`
says which sequences of introspections lose nothing.
-/

set_option autoImplicit false

namespace Astrate.Store

open Astrate.GoLib
open Astrate.Engine (InterfaceVersion FormatHint)

/-- `devices.status`. -/
inductive DeviceStatus where
  | registered
  | confirmed
  | inhibited
  deriving DecidableEq, Repr

/-- A `map[string]InterfaceVersion`. -/
abbrev IntrospectionMap := SortedMap Bytes InterfaceVersion

/-- A row of `devices`, with the defaults of its columns. -/
structure Device where
  credentialsSecretHash : Bytes
  status : DeviceStatus := .registered
  introspection : IntrospectionMap := SortedMap.empty
  oldIntrospection : IntrospectionMap := SortedMap.empty
  certSerial : Option Bytes := none
  certAKI : Option Bytes := none
  firstCredentialsRequest : Option Time := none
  lastCredentialsRequestIP : Option Bytes := none
  lastConnection : Option Time := none
  lastDisconnection : Option Time := none
  lastSeenIP : Option Bytes := none
  connected : Bool := false
  payloadFormatHint : FormatHint := .bson
  deriving DecidableEq

/-- The primary key: the realm and the device. -/
abbrev DeviceKey := Int × DeviceID

/-- The table `devices`. -/
abbrev Devices := List (DeviceKey × Device)

/-- The errors of the statements. -/
inductive DeviceError where
  /-- `ErrNotFound`. -/
  | notFound (id : DeviceID)
  /-- `ErrDeviceAlreadyConfirmed`. -/
  | alreadyConfirmed (id : DeviceID)
  deriving DecidableEq, Repr

/-! ## Statements -/

/-- `UPDATE devices SET … WHERE realm_id = $1 AND id = $2`. -/
def updateDevice (f : Device → Device) (t : Devices) (k : DeviceKey) : Except DeviceError Devices :=
  match t.lookup k with
  | none => .error (.notFound k.2)
  | some d => .ok (mapSet t k (f d))

/-- `RegisterDevice`: a new row, or a new secret for a device that has not asked for credentials. -/
def registerDevice (secretHash : Bytes) (t : Devices) (k : DeviceKey) : Except DeviceError Devices :=
  match t.lookup k with
  | none => .ok (mapSet t k { credentialsSecretHash := secretHash })
  | some d =>
    if d.firstCredentialsRequest = none then
      .ok (mapSet t k { d with credentialsSecretHash := secretHash, status := .registered })
    else .error (.alreadyConfirmed k.2)

/-- `UnregisterDevice`. -/
def unregisterDevice : Devices → DeviceKey → Except DeviceError Devices :=
  updateDevice fun d =>
    { d with
      credentialsSecretHash := [], status := .registered, firstCredentialsRequest := none,
      certSerial := none, certAKI := none }

/-- `GetDevice`. -/
def getDevice (t : Devices) (k : DeviceKey) : Except DeviceError Device :=
  match t.lookup k with
  | none => .error (.notFound k.2)
  | some d => .ok d

/-- `CountDevices`. -/
def countDevices (t : Devices) (realmID : Int) : Nat :=
  (t.filter fun e => e.1.1 == realmID).length

/-- `SetDeviceInhibited`. -/
def setDeviceInhibited (inhibited : Bool) : Devices → DeviceKey → Except DeviceError Devices :=
  updateDevice fun d =>
    { d with
      status :=
        if inhibited then .inhibited
        else if d.firstCredentialsRequest = none then .registered
        else .confirmed }

/-- `SetDeviceCredentials`, at the time `now`. -/
def setDeviceCredentials (certSerial certAKI requestIP : Bytes) (now : Time) :
    Devices → DeviceKey → Except DeviceError Devices :=
  updateDevice fun d =>
    { d with
      certSerial := some certSerial, certAKI := some certAKI,
      firstCredentialsRequest := d.firstCredentialsRequest <|> some now,
      lastCredentialsRequestIP := some requestIP, status := .confirmed }

/-- `SetDeviceConnected`. -/
def setDeviceConnected (instant : Time) (ip : Bytes) : Devices → DeviceKey → Except DeviceError Devices :=
  updateDevice fun d =>
    { d with connected := true, lastConnection := some instant, lastSeenIP := some ip }

/-- `SetDeviceDisconnected`. -/
def setDeviceDisconnected (instant : Time) : Devices → DeviceKey → Except DeviceError Devices :=
  updateDevice fun d => { d with connected := false, lastDisconnection := some instant }

/-- `SetPayloadFormatHint`. -/
def setPayloadFormatHint (hint : FormatHint) : Devices → DeviceKey → Except DeviceError Devices :=
  updateDevice fun d => { d with payloadFormatHint := hint }

/-- The introspection declares the interface with this major version. -/
def Declares (m : IntrospectionMap) (name : Bytes) (major : Int) : Prop :=
  (m.lookup name).any (fun v => v.major == major) = true

instance decidableDeclares (m : IntrospectionMap) (name : Bytes) (major : Int) :
    Decidable (Declares m name major) :=
  inferInstanceAs (Decidable (_ = true))

/-- One pass of the loop of `UpdateIntrospection`, on `removed` and on `old` alike. -/
def recordRemoved (intro : IntrospectionMap) (m : IntrospectionMap) (e : Bytes × InterfaceVersion) :
    IntrospectionMap :=
  match intro.lookup e.1 with
  | none => m.insert e.1 e.2
  | some nv => if nv.major ≠ e.2.major then m.insert e.1 e.2 else m

/-- `UpdateIntrospection`: the table, and what the device no longer declares. -/
def updateIntrospection (intro : IntrospectionMap) (t : Devices) (k : DeviceKey) :
    Except DeviceError (Devices × IntrospectionMap) :=
  match t.lookup k with
  | none => .error (.notFound k.2)
  | some d =>
    let removed := d.introspection.entries.foldl (recordRemoved intro) SortedMap.empty
    let old := d.introspection.entries.foldl (recordRemoved intro) d.oldIntrospection
    .ok (mapSet t k { d with introspection := intro, oldIntrospection := old }, removed)

/-! ## Rows after statements -/

theorem lookup_updateDevice {f : Device → Device} {t t' : Devices} {k : DeviceKey}
    (h : updateDevice f t k = .ok t') :
    ∃ d, t.lookup k = some d ∧ ∀ k', t'.lookup k' = if k' == k then some (f d) else t.lookup k' := by
  rw [updateDevice] at h
  cases hd : t.lookup k with
  | none =>
    rw [hd] at h
    cases h
  | some d =>
    rw [hd] at h
    cases h
    exact ⟨d, rfl, fun k' => lookup_mapSet t k k' (f d)⟩

theorem declares_iff {m : IntrospectionMap} {name : Bytes} {major : Int} :
    Declares m name major ↔ ∃ v, m.lookup name = some v ∧ v.major = major := by
  rw [Declares, Option.any_eq_true]
  simp

/-- An introspection declares one major of an interface. -/
theorem Declares.unique {m : IntrospectionMap} {name : Bytes} {major major' : Int}
    (h : Declares m name major) (h' : Declares m name major') : major = major' := by
  obtain ⟨v, hv, rfl⟩ := declares_iff.1 h
  obtain ⟨v', hv', rfl⟩ := declares_iff.1 h'
  rw [hv, Option.some.injEq] at hv'
  rw [hv']

theorem recordRemoved_eq (intro m : IntrospectionMap) (e : Bytes × InterfaceVersion) :
    recordRemoved intro m e = if Declares intro e.1 e.2.major then m else m.insert e.1 e.2 := by
  rw [recordRemoved]
  cases hnv : intro.lookup e.1 with
  | none =>
    have hdecl : ¬ Declares intro e.1 e.2.major := by simp [declares_iff, hnv]
    rw [if_neg hdecl]
  | some nv =>
    have hdecl : Declares intro e.1 e.2.major ↔ nv.major = e.2.major := by simp [declares_iff, hnv]
    exact (ite_not ..).trans (if_congr hdecl.symm rfl rfl)

theorem lookup_eq_none_of_sorted {e : Bytes × InterfaceVersion} {es : List (Bytes × InterfaceVersion)}
    (h : ∀ e' ∈ es, e.1 < e'.1) : es.lookup e.1 = none := by
  rw [List.lookup_eq_none_iff]
  intro e' he'
  have hlt := h e' he'
  rw [bne_iff_ne]
  intro heq
  rw [heq] at hlt
  exact absurd hlt (Std.lt_irrefl)

/-- The loop of `UpdateIntrospection` collects what is no longer declared, over what was there. -/
theorem lookup_foldl_recordRemoved {es : List (Bytes × InterfaceVersion)} (intro : IntrospectionMap)
    (h : es.Pairwise fun a b => a.1 < b.1) (m : IntrospectionMap) (name : Bytes) :
    (es.foldl (recordRemoved intro) m).lookup name =
      ((es.lookup name).filter fun v => ¬ Declares intro name v.major).or (m.lookup name) := by
  induction es generalizing m with
  | nil => rfl
  | cons e es ih =>
    obtain ⟨hlt, hes⟩ := List.pairwise_cons.1 h
    rw [List.foldl_cons, ih hes, recordRemoved_eq, lookup_cons_ite]
    by_cases hname : name = e.1
    · -- the keys are distinct, so the rest of the loop leaves this name alone
      subst hname
      rw [lookup_eq_none_of_sorted hlt]
      by_cases hdecl : Declares intro e.1 e.2.major
      · simp [hdecl, Option.filter_some]
      · simp [hdecl, Option.filter_some, SortedMap.lookup_insert]
    · have hbeq : (name == e.1) = false := beq_eq_false_iff_ne.2 hname
      by_cases hdecl : Declares intro e.1 e.2.major
      · simp [hdecl, hbeq]
      · simp [hdecl, hbeq, SortedMap.lookup_insert]

/-! ## Introspections one after the other -/

/-- A call of `UpdateIntrospection` in a sequence. -/
def introspect (k : DeviceKey) (t : Devices) (intro : IntrospectionMap) : Option Devices :=
  (updateIntrospection intro t k).toOption.map Prod.fst

/-- The row of the device after the calls. -/
def rowAfter (t : Devices) (k : DeviceKey) (calls : List IntrospectionMap) : Option Device :=
  (exec (introspect k) t calls).bind fun t' => t'.lookup k

/-- The introspection that is current after the calls, which begin on an empty one. -/
def currentAfter (calls : List IntrospectionMap) : IntrospectionMap := calls.getLastD SortedMap.empty

/-- Some of the introspections declared the pair and the current one does not. -/
def Lost (calls : List IntrospectionMap) (name : Bytes) (major : Int) : Prop :=
  (∃ m ∈ calls, Declares m name major) ∧ ¬ Declares (currentAfter calls) name major

theorem currentAfter_concat (calls : List IntrospectionMap) (intro : IntrospectionMap) :
    currentAfter (calls ++ [intro]) = intro :=
  List.getLastD_concat

/-- What one call does to the row, and what it returns. -/
theorem updateIntrospection_spec {t : Devices} {k : DeviceKey} {d : Device}
    (hrow : t.lookup k = some d) (intro : IntrospectionMap) :
    ∃ old removed,
      updateIntrospection intro t k =
          .ok (mapSet t k { d with introspection := intro, oldIntrospection := old }, removed) ∧
        (∀ name, removed.lookup name =
          (d.introspection.lookup name).filter fun v => ¬ Declares intro name v.major) ∧
        ∀ name, old.lookup name =
          ((d.introspection.lookup name).filter fun v => ¬ Declares intro name v.major).or
            (d.oldIntrospection.lookup name) := by
  refine ⟨_, _, by rw [updateIntrospection, hrow], fun name => ?_, fun name => ?_⟩
  · rw [lookup_foldl_recordRemoved intro d.introspection.sorted]
    exact Option.or_none
  · exact lookup_foldl_recordRemoved intro d.introspection.sorted _ name

section Calls

variable {t : Devices} {k : DeviceKey}

/-- One more call. -/
theorem rowAfter_concat {calls : List IntrospectionMap} {d : Device}
    (h : rowAfter t k calls = some d) (intro : IntrospectionMap) :
    ∃ d', rowAfter t k (calls ++ [intro]) = some d' ∧ d'.introspection = intro ∧
      ∀ name, d'.oldIntrospection.lookup name =
        ((d.introspection.lookup name).filter fun v => ¬ Declares intro name v.major).or
          (d.oldIntrospection.lookup name) := by
  obtain ⟨t₁, ht₁, hrow⟩ := Option.bind_eq_some_iff.1 h
  obtain ⟨old, removed, hcall, -, hold⟩ := updateIntrospection_spec hrow intro
  refine ⟨{ d with introspection := intro, oldIntrospection := old }, ?_, rfl, hold⟩
  rw [rowAfter, exec_append, ht₁]
  simp [exec, introspect, hcall, lookup_mapSet, Except.toOption]

/-- The row is there after all calls, with the last introspection. -/
theorem exists_rowAfter {d : Device} (hrow : t.lookup k = some d)
    (hintro : d.introspection = SortedMap.empty) (calls : List IntrospectionMap) :
    ∃ d', rowAfter t k calls = some d' ∧ d'.introspection = currentAfter calls := by
  induction calls using List.reverseRecOn with
  | nil => exact ⟨d, hrow, hintro⟩
  | append_singleton calls intro ih =>
    obtain ⟨d₁, hd₁, -⟩ := ih
    obtain ⟨d', hd', hcurrent, -⟩ := rowAfter_concat hd₁ intro
    exact ⟨d', hd', hcurrent.trans (currentAfter_concat calls intro).symm⟩

/-- The row after the calls has every pair that was declared and is not declared now. -/
def Complete (t : Devices) (k : DeviceKey) (calls : List IntrospectionMap) : Prop :=
  ∃ d, rowAfter t k calls = some d ∧
    ∀ name major, Lost calls name major → Declares d.oldIntrospection name major

/-- No interface has been declared with two majors that are both gone. -/
def OneMajorLost (calls : List IntrospectionMap) : Prop :=
  ∀ name major major', Lost calls name major → Lost calls name major' → major = major'

/-- Once a call loses one major per name, what was complete before stays so. -/
theorem Complete.concat {d : Device} (hrow : t.lookup k = some d)
    (hintro : d.introspection = SortedMap.empty) {calls : List IntrospectionMap}
    (h : Complete t k calls) {intro : IntrospectionMap} (hone : OneMajorLost (calls ++ [intro])) :
    Complete t k (calls ++ [intro]) := by
  obtain ⟨d₁, hd₁, hcomplete⟩ := h
  obtain ⟨d₂, hd₂, hcurrent⟩ := exists_rowAfter hrow hintro calls
  rw [hd₁, Option.some.injEq] at hd₂
  subst hd₂
  obtain ⟨d', hd', -, hold⟩ := rowAfter_concat hd₁ intro
  refine ⟨d', hd', fun name major hlost => ?_⟩
  have hgone : ¬ Declares intro name major := by
    have := hlost.2
    rwa [currentAfter_concat] at this
  -- a pair that the call itself drops is recorded by it; another one is left where it was
  by_cases hnow : Declares d₁.introspection name major
  · obtain ⟨v, hv, rfl⟩ := declares_iff.1 hnow
    refine declares_iff.2 ⟨v, ?_, rfl⟩
    simp [hold, hv, Option.filter_some, hgone]
  · have hbefore : Lost calls name major := by
      obtain ⟨m, hm, hdecl⟩ := hlost.1
      rcases List.mem_append.1 hm with hm | hm
      · exact ⟨⟨m, hm, hdecl⟩, hcurrent ▸ hnow⟩
      · rw [List.mem_singleton.1 hm] at hdecl
        exact absurd hdecl hgone
    obtain ⟨v, hv, hmajor⟩ := declares_iff.1 (hcomplete name major hbefore)
    refine declares_iff.2 ⟨v, ?_, hmajor⟩
    rw [hold, hv]
    cases hw : d₁.introspection.lookup name with
    | none => rfl
    | some w =>
      -- the entry is only replaced by a second major that is gone
      have hw' : Declares intro name w.major := by
        by_contra hdrop
        have hdeclared : Declares d₁.introspection name w.major := declares_iff.2 ⟨w, hw, rfl⟩
        have hmem : ∃ m ∈ calls ++ [intro], Declares m name w.major := by
          rw [hcurrent] at hdeclared
          rcases List.eq_nil_or_concat calls with rfl | ⟨before, last, rfl⟩
          · cases hdeclared
          · rw [List.concat_eq_append, currentAfter_concat] at hdeclared
            exact ⟨last, by simp, hdeclared⟩
        have hlost' : Lost (calls ++ [intro]) name w.major := by
          refine ⟨hmem, ?_⟩
          rwa [currentAfter_concat]
        rw [← hone name major w.major hlost hlost'] at hdeclared
        exact hnow hdeclared
      simp [Option.filter_some, hw']

end Calls

/-- After each of the calls `old_introspection` has everything that was declared earlier and is not
declared now exactly when no interface has two majors that are gone; and each call returns what was
declared before it and is not declared after it. -/
theorem history_complete_iff {t : Devices} {k : DeviceKey} {d : Device} (hrow : t.lookup k = some d)
    (hintro : d.introspection = SortedMap.empty) (calls : List IntrospectionMap) :
    ((∀ done, done <+: calls → Complete t k done) ↔ ∀ done, done <+: calls → OneMajorLost done) ∧
      ∀ done intro, done ++ [intro] <+: calls →
        ∃ t₁ t₂ removed, exec (introspect k) t done = some t₁ ∧
          updateIntrospection intro t₁ k = .ok (t₂, removed) ∧
          ∀ name v, removed.lookup name = some v ↔
            (currentAfter done).lookup name = some v ∧ ¬ Declares intro name v.major := by
  refine ⟨⟨fun h done hdone => ?_, fun h done hdone => ?_⟩, fun done intro hdone => ?_⟩
  · obtain ⟨d', -, hcomplete⟩ := h done hdone
    exact fun name major major' hlost hlost' =>
      (hcomplete name major hlost).unique (hcomplete name major' hlost')
  · induction done using List.reverseRecOn with
    | nil => exact ⟨d, hrow, fun name major hlost => by simp [Lost] at hlost⟩
    | append_singleton done intro ih =>
      have hbefore : done <+: calls := (List.prefix_append _ _).trans hdone
      exact (ih hbefore).concat hrow hintro (h _ hdone)
  · obtain ⟨d₁, hd₁, hcurrent⟩ := exists_rowAfter hrow hintro done
    obtain ⟨t₁, ht₁, hrow₁⟩ := Option.bind_eq_some_iff.1 hd₁
    obtain ⟨old, removed, hcall, hremoved, -⟩ := updateIntrospection_spec hrow₁ intro
    refine ⟨t₁, _, removed, ht₁, hcall, fun name v => ?_⟩
    rw [hremoved, hcurrent, Option.filter_eq_some_iff, decide_eq_true_iff]

/-- What is gone after two calls was declared by the first. -/
theorem oneMajorLost_pair {a b : IntrospectionMap} {done : List IntrospectionMap} (hdone : done <+: [a, b]) :
    OneMajorLost done := by
  have hfirst : ∀ {name major}, Lost done name major → Declares a name major := by
    rintro name major ⟨⟨m, hm, hdecl⟩, hgone⟩
    rw [List.prefix_cons_iff] at hdone
    obtain rfl | ⟨t, rfl, ht⟩ := hdone
    · cases hm
    obtain rfl | rfl : t = [] ∨ t = [b] := by simpa [List.prefix_cons_iff] using ht
    · exact List.mem_singleton.1 hm ▸ hdecl
    · rcases List.mem_cons.1 hm with rfl | hm
      · exact hdecl
      · exact absurd (List.mem_singleton.1 hm ▸ hdecl) hgone
  exact fun name major major' hlost hlost' => (hfirst hlost).unique (hfirst hlost')

/-- A device that upgrades an interface keeps its history: the old major is gone, and recorded. -/
theorem history_complete_upgrade :
    let k : DeviceKey := (1, Vector.replicate 16 7)
    let thermostat (major minor : Int) : IntrospectionMap :=
      SortedMap.ofList [(utf8 "org.example.Thermostat", ⟨major, minor⟩)]
    let calls := [thermostat 1 4, thermostat 2 0]
    Lost calls (utf8 "org.example.Thermostat") 1 ∧
      ∀ done, done <+: calls → Complete [(k, { credentialsSecretHash := [] })] k done :=
  ⟨⟨⟨_, List.mem_cons_self, by decide +kernel⟩, by decide +kernel⟩,
    (history_complete_iff (d := { credentialsSecretHash := [] }) (by decide) rfl _).1.2 fun _ hdone => oneMajorLost_pair hdone⟩

/-- Major 1 is replaced by major 2 and major 2 is removed: major 1 is gone from the history. -/
theorem second_major_forgets_first :
    let k : DeviceKey := (1, Vector.replicate 16 7)
    let thermostat (major minor : Int) : IntrospectionMap :=
      SortedMap.ofList [(utf8 "org.example.Thermostat", ⟨major, minor⟩)]
    let calls := [thermostat 1 0, thermostat 2 0, SortedMap.empty]
    ∃ d, rowAfter [(k, { credentialsSecretHash := [] })] k calls = some d ∧
      (∃ m ∈ calls, Declares m (utf8 "org.example.Thermostat") 1) ∧
      ¬ Declares (currentAfter calls) (utf8 "org.example.Thermostat") 1 ∧
      ¬ Declares d.oldIntrospection (utf8 "org.example.Thermostat") 1 :=
  ⟨_, rfl, by decide +kernel⟩

end Astrate.Store
