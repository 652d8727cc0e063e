import Astrate.Pairing.Service

/-!
# The registration limit

`Register` counts the devices of the realm, computes a hash of the secret and then inserts the row. Nothing
holds the count in place meanwhile, so every call that has counted may add a row of its own
(`registration_limit_exceeded`).

What bounds the table is the number of its rows together with the calls that have counted. As long as at
most one call of the realm is between its two statements, this sum does not pass the limit
(`registration_limit_kept`).
-/

set_option autoImplicit false

namespace Astrate.Pairing

open Astrate.GoLib
open Astrate.Store

/-- The call has counted the devices of the realm and has not stored its own. -/
def CallPoint.hasCounted (r : Int) : CallPoint → Bool
  | .counted key => key.1 == r
  | _ => false

/-- How many calls have counted the devices of the realm and have not stored theirs. -/
def Fleet.counted (r : Int) (s : Fleet) : Nat := s.calls.countP fun call => call.point.hasCounted r

/-- Every realm of this id has this limit. -/
def PairingPorts.HasLimit {χ : Type} (p : PairingPorts χ) (r limit : Int) : Prop :=
  ∀ name realm, p.getRealmByName name = some realm → realm.id = r →
    realm.deviceRegistrationLimit = some limit

/-! ## What a statement does to the count -/

theorem countDevices_eq_countP (t : Devices) (r : Int) :
    countDevices t r = (t.map Prod.fst).countP fun k => k.1 == r := by
  rw [countDevices, List.countP_map, List.countP_eq_length_filter]
  rfl

theorem countDevices_updateDevice {f : Device → Device} {t t' : Devices} {k : DeviceKey}
    (h : updateDevice f t k = .ok t') (r : Int) : countDevices t' r = countDevices t r := by
  rw [updateDevice] at h
  cases hd : t.lookup k with
  | none =>
    rw [hd] at h
    cases h
  | some d =>
    rw [hd] at h
    cases h
    rw [countDevices_eq_countP, keys_mapSet hd, countDevices_eq_countP]

theorem countDevices_afterStatement (f : Device → Device) (t : Devices) (next : CallPoint) (k : DeviceKey)
    (r : Int) : countDevices (afterStatement t next (updateDevice f t k)).1 r = countDevices t r := by
  cases h : updateDevice f t k with
  | error e => rfl
  | ok t' => exact countDevices_updateDevice h r

/-- `RegisterDevice` adds at most one row, and it adds it to the realm of the device. -/
theorem countDevices_registerDevice (secretHash : Bytes) (t : Devices) (next : CallPoint) (k : DeviceKey)
    (r : Int) :
    countDevices (afterStatement t next (registerDevice secretHash t k)).1 r ≤
      countDevices t r + if k.1 == r then 1 else 0 := by
  rw [registerDevice]
  cases hd : t.lookup k with
  | none =>
    rw [afterStatement, mapSet_of_lookup_eq_none hd, countDevices_eq_countP, countDevices_eq_countP,
      List.map_append, List.countP_append]
    simp
  | some d =>
    by_cases hfirst : d.firstCredentialsRequest = none
    · simp only [hfirst, if_true, afterStatement]
      rw [countDevices_eq_countP, keys_mapSet hd, countDevices_eq_countP]
      exact Nat.le_add_right _ _
    · simp only [hfirst, if_false, afterStatement]
      exact Nat.le_add_right _ _

/-! ## What a step does to the count -/

section

variable {χ : Type} {p : PairingPorts χ} {r limit : Int}

/-- A call counts as a row from the moment it has counted. -/
def weight (r : Int) (t : Devices) (point : CallPoint) : Nat :=
  countDevices t r + if point.hasCounted r then 1 else 0

variable {t : Devices} {s s' : Fleet} {bound : Int}

theorem countDevices_lt_of_registerCheck (hlimit : p.HasLimit r limit)
    {realmName hwID initialFormat : Bytes} {key : DeviceKey}
    (h : registerCheck p t realmName hwID initialFormat = .ok key) (hkey : key.1 = r) :
    (countDevices t r : Int) < limit := by
  rw [registerCheck] at h
  split at h
  · cases h
  · split_ifs at h
    split at h
    · cases h
    · next realm hrealm =>
      split at h
      · next hnone =>
        cases h
        rw [hlimit _ realm hrealm hkey] at hnone
        cases hnone
      · next l hl =>
        split_ifs at h with hge
        cases h
        have : l = limit := by
          rw [hlimit _ realm hrealm hkey, Option.some.injEq] at hl
          exact hl.symm
        subst this hkey
        exact not_le.1 hge

theorem not_hasCounted_afterRegister (initialFormat secret : Bytes) (key : DeviceKey) :
    (afterRegister initialFormat secret key).hasCounted r = false := by
  rw [afterRegister]
  split <;> rfl

theorem not_hasCounted_afterStatement {next : CallPoint} (h : next.hasCounted r = false)
    (res : Except DeviceError Devices) : (afterStatement t next res).2.hasCounted r = false := by
  cases res with
  | error e => rfl
  | ok t' => exact h

/-- Only a call that counts adds to the weight, and it finds the realm below its limit. -/
theorem weight_advance (hlimit : p.HasLimit r limit) {answer : Answer} {req : Request}
    {point : CallPoint} {res : Devices × CallPoint} (h : advance p answer t req point = some res) :
    weight r res.1 res.2 ≤ weight r t point ∨
      point.hasCounted r = false ∧ res.2.hasCounted r = true ∧ res.1 = t ∧ (countDevices t r : Int) < limit := by
  -- a step that leaves the table as it is and after which the call has not counted
  have hreads : ∀ point' : CallPoint, point'.hasCounted r = false → weight r t point' ≤ weight r t point := by
    intro point' hpoint'
    rw [weight, weight, hpoint']
    exact Nat.add_le_add_left (Nat.zero_le _) _
  have hupdates : ∀ (f : Device → Device) (key : DeviceKey) (next : CallPoint), next.hasCounted r = false →
      weight r (afterStatement t next (updateDevice f t key)).1
        (afterStatement t next (updateDevice f t key)).2 ≤ weight r t point := by
    intro f key next hnext
    rw [weight, countDevices_afterStatement, not_hasCounted_afterStatement hnext]
    exact Nat.add_le_add_left (Nat.zero_le _) _
  cases req with
  | register realmName hwID initialFormat secret secretHash =>
    cases point with
    | start =>
      cases h
      cases hcheck : registerCheck p t realmName hwID initialFormat with
      | error e => exact Or.inl (hreads _ rfl)
      | ok key =>
        by_cases hkey : key.1 = r
        · refine Or.inr ⟨rfl, ?_, rfl, countDevices_lt_of_registerCheck hlimit hcheck hkey⟩
          simp [afterCheck, CallPoint.hasCounted, hkey]
        · refine Or.inl (hreads _ ?_)
          simp [afterCheck, CallPoint.hasCounted, hkey]
    | counted key =>
      cases h
      refine Or.inl ?_
      -- the row takes the place of the call
      rw [weight, weight, not_hasCounted_afterStatement (not_hasCounted_afterRegister initialFormat secret key)]
      exact countDevices_registerDevice secretHash t _ key r
    | stored key hint =>
      cases h
      exact Or.inl (hupdates _ key _ rfl)
    | _ => cases h
  | unregister realmName deviceID =>
    cases point with
    | start =>
      cases h
      refine Or.inl (hreads _ ?_)
      cases unregisterCheck p realmName deviceID <;> rfl
    | addressed key =>
      cases h
      exact Or.inl (hupdates _ key _ rfl)
    | _ => cases h
  | credentials realmName deviceID secret ip =>
    cases point with
    | start =>
      cases h
      refine Or.inl (hreads _ ?_)
      cases credentialsCheck p t answer.signed realmName deviceID secret <;> rfl
    | signed key cert =>
      cases h
      exact Or.inl (hupdates _ key _ rfl)
    | _ => cases h
  | connect conn clientID =>
    cases point with
    | start =>
      cases h
      refine Or.inl (hreads _ ?_)
      rw [afterIdentify]
      split <;> rfl
    | identified key =>
      cases h
      refine Or.inl (hreads _ ?_)
      rw [afterGetDevice.eq_def]
      split
      · rfl
      · split <;> rfl
    | authenticated key =>
      cases h
      exact Or.inl (hreads _ rfl)
    | _ => cases h

theorem counted_move {c : Nat} {call : Call} (hcall : s.calls[c]? = some call)
    (res : Devices × CallPoint) :
    (s.move c call res).counted r + (if call.point.hasCounted r then 1 else 0) =
      s.counted r + if res.2.hasCounted r then 1 else 0 := by
  obtain ⟨hc, rfl⟩ := List.getElem?_eq_some_iff.1 hcall
  rw [Fleet.counted, Fleet.move, List.countP_set hc, Fleet.counted]
  have hpos : (if s.calls[c].point.hasCounted r then 1 else 0) ≤
      s.calls.countP fun call => call.point.hasCounted r := by
    split_ifs with h
    · exact List.countP_pos_iff.2 ⟨_, List.getElem_mem hc, h⟩
    · exact Nat.zero_le _
  dsimp only
  omega

/-- The rows of the realm and the calls that have counted them stay within the bound. -/
def Bounded (r bound : Int) (s : Fleet) : Prop :=
  (countDevices s.devices r : Int) + s.counted r ≤ bound

theorem bounded_statement {f : Device → Device} {key : DeviceKey}
    (h : Bounded r bound s) (hstep : s.statement (updateDevice f) key = some s') : Bounded r bound s' := by
  obtain ⟨t, ht, rfl⟩ := Option.map_eq_some_iff.1 hstep
  rw [Bounded, countDevices_updateDevice (toOption_eq_some_iff.1 ht)]
  exact h

theorem bounded_overlap (hlimit : p.HasLimit r limit) {n : Nat} (hbound : limit + n ≤ bound + 1)
    {a : FleetStep} (hs' : s'.counted r ≤ n) (h : Bounded r bound s)
    (hstep : s.step p a = some s') : Bounded r bound s' := by
  cases a with
  | run c answer =>
    obtain ⟨call, res, hcall, hres, rfl⟩ := Fleet.step_run hstep
    have hmove := counted_move (r := r) hcall res
    have hdevices : (s.move c call res).devices = res.1 := rfl
    rw [Bounded] at h ⊢
    rw [hdevices]
    rcases weight_advance hlimit hres with hle | ⟨hbefore, hafter, htable, hlt⟩
    · rw [weight, weight] at hle
      omega
    · -- the call that counts finds the realm below its limit, and the others are less than `n`
      rw [hbefore, hafter] at hmove
      rw [htable]
      omega
  | fail c =>
    obtain ⟨call, hcall, rfl⟩ := Fleet.step_fail hstep
    have hmove := counted_move (r := r) hcall (s.devices, .returned (.failed .other))
    rw [Bounded] at h ⊢
    simp only [CallPoint.hasCounted, Bool.false_eq_true, if_false] at hmove
    change (countDevices s.devices r : Int) + _ ≤ _
    omega
  | setDeviceInhibited key inhibited => exact bounded_statement h hstep
  | setDeviceConnected key instant ip => exact bounded_statement h hstep
  | setDeviceDisconnected key instant => exact bounded_statement h hstep

theorem bounded_step (hlimit : p.HasLimit r limit) (hbound : limit ≤ bound)
    {a : FleetStep} (hs' : s'.counted r ≤ 1) (h : Bounded r bound s) (hstep : s.step p a = some s') :
    Bounded r bound s' :=
  bounded_overlap hlimit (Int.add_le_add_right hbound 1) hs' h hstep

/-- Calls of `Register` that overlap with others only outside their two statements keep to the limit. A realm
that is over its limit already gets no further device. -/
theorem registration_limit_kept (hlimit : p.HasLimit r limit) {s s' : Fleet}
    (hstart : ∀ call ∈ s.calls, call.point = .start) {schedule : List FleetStep}
    (halone : Always (Fleet.step p) (fun s₁ => s₁.counted r ≤ 1) s schedule)
    (hrun : exec (Fleet.step p) s schedule = some s') :
    (countDevices s'.devices r : Int) ≤ max (countDevices s.devices r : Int) limit := by
  have hnone : s.counted r = 0 := by
    refine List.countP_eq_zero.2 fun call hcall => ?_
    rw [hstart call hcall]
    exact Bool.false_ne_true
  have hinit : Bounded r (max (countDevices s.devices r : Int) limit) s := by
    rw [Bounded, hnone]
    exact le_trans (le_of_eq (Int.add_zero _)) (le_max_left _ _)
  have hbounded := (halone.invariant
    (fun s₁ a s₂ _ hs₂ h hstep => bounded_step hlimit (le_max_right _ _) hs₂ h hstep) hinit).last hrun
  exact le_trans (Int.le_add_of_nonneg_right (Int.natCast_nonneg _)) hbounded

/-- **Overlapping registrations.** While at most `n` calls are between their two statements at a time, the realm
gets less than `n` devices over its limit; the calls that have counted at the start count as rows. -/
theorem registration_overshoot (hlimit : p.HasLimit r limit) {s s' : Fleet} {n : Nat} {schedule : List FleetStep}
    (hoverlap : Always (Fleet.step p) (fun s₁ => s₁.counted r ≤ n) s schedule)
    (hrun : exec (Fleet.step p) s schedule = some s') :
    (countDevices s'.devices r : Int) ≤ max (countDevices s.devices r + s.counted r : Int) (limit + n - 1) := by
  have hbounded := (hoverlap.invariant (fun s₁ a s₂ _ hs₂ h hstep =>
    bounded_overlap hlimit (sub_le_iff_le_add.1 (le_max_right _ _)) hs₂ h hstep) (le_max_left _ _)).last hrun
  exact le_trans (Int.le_add_of_nonneg_right (Int.natCast_nonneg _)) hbounded

end

/-- A service with one realm that takes one device. -/
def onePorts : PairingPorts Unit := { acmePorts with getRealmByName := fun _ => some ⟨1, some 1⟩ }

/-- Two devices register one after the other: the second one is refused. -/
theorem registration_limit_kept_serial :
    ∃ (answer : Answer) (s' : Fleet),
      exec (Fleet.step onePorts) ⟨[], [registerAll 7 (utf8 "a"), registerAll 8 (utf8 "b")], [], []⟩
        [.run 0 answer, .run 0 answer, .run 1 answer] = some s' ∧
      (countDevices s'.devices 1 : Int) ≤ max 0 1 := by
  let s : Fleet := ⟨[], [registerAll 7 (utf8 "a"), registerAll 8 (utf8 "b")], [], []⟩
  let answer : Answer := ⟨.error .other, ⟨0⟩⟩
  let schedule : List FleetStep := [.run 0 answer, .run 0 answer, .run 1 answer]
  have hrun : (exec (Fleet.step onePorts) s schedule).isSome = true := by decide +kernel
  obtain ⟨s', hs'⟩ := Option.isSome_iff_exists.1 hrun
  have hlimit : onePorts.HasLimit 1 1 := by
    intro name realm hrealm _
    cases hrealm
    rfl
  have halone : Always (Fleet.step onePorts) (fun s₁ => s₁.counted 1 ≤ 1) s schedule := by decide +kernel
  exact ⟨answer, s', hs', registration_limit_kept hlimit (by decide +kernel) halone hs'⟩

/-- Two devices register at the same time in a realm that takes one. -/
theorem registration_limit_exceeded :
    ((exec (Fleet.step onePorts) ⟨[], [registerAll 7 (utf8 "a"), registerAll 8 (utf8 "b")], [], []⟩
        [.run 0 ⟨.error .other, ⟨0⟩⟩, .run 1 ⟨.error .other, ⟨0⟩⟩, .run 0 ⟨.error .other, ⟨0⟩⟩,
          .run 1 ⟨.error .other, ⟨0⟩⟩]).map
      fun s => (s.calls.map Call.point, countDevices s.devices 1)) =
      some ([.returned (.secret (utf8 "a")), .returned (.secret (utf8 "b"))], 2) := by
  decide +kernel

theorem registration_overshoot_two :
    ∃ (a : Answer) (s' : Fleet),
      exec (Fleet.step onePorts) ⟨[], [registerAll 7 (utf8 "a"), registerAll 8 (utf8 "b")], [], []⟩
        [.run 0 a, .run 1 a, .run 0 a, .run 1 a] = some s' ∧
      (countDevices s'.devices 1 : Int) ≤ max (0 + 0) (1 + 2 - 1) :=
  have ⟨s', hs'⟩ := Option.isSome_iff_exists.1 (by decide +kernel)
  ⟨⟨.error .other, ⟨0⟩⟩, s', hs',
    registration_overshoot (n := 2) (fun _ _ hrealm _ => by cases hrealm; rfl) (by decide +kernel) hs'⟩

end Astrate.Pairing
