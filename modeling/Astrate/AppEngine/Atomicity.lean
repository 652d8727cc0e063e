import Astrate.AppEngine.Patch

/-!
# Calls that fail half-way

The statements of `CreateGroup` and of `applyPatch` are not in one transaction. An error behind the first of
them leaves what was written: a group with some of its devices, a device with new aliases and old attributes
(`error_leaves_writes`).

`error_leaves_nothing` says that this takes a failure of the store behind the first write, or others who take away
what the call has checked: they delete its device or its group, or put one of its devices into the group before it.
-/

set_option autoImplicit false

namespace Astrate.AppEngine

open Astrate.GoLib

/-- A call that has written and is going to write more. -/
def ApiCall.hasWritten : ApiCall → Bool
  | .writing _ writes dirty => dirty && !writes.isEmpty
  | .adding .. => true
  | _ => false

/-- What a call counts on: the devices that it has found exist, and its group is there without those that it is
going to add. -/
def ApiCall.needs (db : ApiDb) : ApiCall → Bool
  | .checking _ _ ids _ => ids.all fun id => (db.devices.lookup id).isSome
  | .adding name ids =>
    ids.all (fun id => (db.devices.lookup id).isSome) &&
      (db.groups.lookup name).any fun members => ids.all fun id => !members.contains id
  | .writing id _ true => (db.devices.lookup id).isSome
  | _ => true

section

variable {ε : Type} (env : ε → ApiDb → Option ApiDb) (c : Nat)

/-- The store does not fail behind the first write of the call, and the steps of others leave what it needs. -/
def Undisturbed (s : Calls ApiDb ApiCall) (a : CallsAction Bool ε) : Prop :=
  ∀ call ∈ s.points[c]?,
    match a with
    | .run c' fails =>
      if c' = c then (fails && call.hasWritten) = false
      else ∀ s' ∈ Calls.step advance env s a, call.needs s'.shared = true
    | .env _ => ∀ s' ∈ Calls.step advance env s a, call.needs s'.shared = true

instance (s : Calls ApiDb ApiCall) (a : CallsAction Bool ε) : Decidable (Undisturbed env c s a) := by
  unfold Undisturbed
  cases a <;> infer_instance

/-- A step of the call leaves the database as it is. -/
def LeavesAlone (s : Calls ApiDb ApiCall) (a : CallsAction Bool ε) : Prop :=
  ∀ fails, a = .run c fails → ∀ s' ∈ Calls.step advance env s a, s'.shared = s.shared

end

/-- The devices that a call has found are listed once. -/
def ApiCall.distinct : ApiCall → Prop
  | .checking _ _ ids _ | .adding _ ids => ids.Nodup
  | _ => True

/-- The call has all it needs. -/
def Safe (call : ApiCall) (db : ApiDb) : Prop := call.distinct ∧ call.needs db = true

/-- A call that has written and will not fail before its final read. -/
def ApiCall.committed : ApiCall → Bool
  | .writing _ _ true | .adding .. | .returned none | .returned (some .finalRead) => true
  | _ => false

variable {db : ApiDb} {name : Bytes} {ids : List DeviceID} {id : DeviceID}

theorem safe_checkDevice {raw : Bytes} {todo : List Bytes} {missing : List Bytes}
    (h : Safe (.checking name (raw :: todo) ids missing) db) :
    Safe (checkDevice db name raw todo ids missing) db := by
  rw [checkDevice]
  split
  · exact h
  · next id hid =>
    cases hd : db.devices.lookup id with
    | none => exact h
    | some d =>
      by_cases hmem : ids.contains id = true
      · simp only [hmem, if_true]
        exact h
      · simp only [hmem]
        refine ⟨nodup_concat h.1 fun hid => hmem (List.contains_iff_mem.2 hid), ?_⟩
        simpa [ApiCall.needs, hd] using h.2

/-- The next device is there and is no member yet. -/
theorem safe_addGroupDevice (h : Safe (.adding name (id :: ids)) db) :
    Safe (addGroupDevice db name id ids).2 (addGroupDevice db name id ids).1 ∧
      (addGroupDevice db name id ids).2.committed = true := by
  obtain ⟨hnodup, hneeds⟩ := h
  simp only [ApiCall.needs, List.all_cons, Bool.and_eq_true, Option.any_eq_true] at hneeds
  obtain ⟨⟨hdev, hrest⟩, members, hmembers, hnot, hothers⟩ := hneeds
  obtain ⟨d, hd⟩ := Option.isSome_iff_exists.1 hdev
  rw [Bool.not_eq_true'] at hnot
  simp only [addGroupDevice, hmembers, hd, hnot, Bool.false_eq_true, if_false]
  obtain ⟨hnew, hnodup⟩ := List.nodup_cons.1 hnodup
  have hthen : (ids.all fun i => !(members ++ [id]).contains i) = true := by
    rw [List.all_eq_true] at hothers ⊢
    intro i hi
    have hne : i ≠ id := fun heq => hnew (heq ▸ hi)
    simpa [hne] using hothers i hi
  refine ⟨⟨hnodup, ?_⟩, rfl⟩
  simp only [ApiCall.needs, hrest, lookup_mapSet, beq_self_eq_true, if_true, Option.any_some, hthen,
    Bool.and_self]

/-- A step of a call that has what it needs, and does not fail behind its first write: it has what it needs then,
and it changes nothing unless it commits itself. -/
theorem safe_advance {fails : Bool} {call : ApiCall} {r : ApiDb × ApiCall} (h : Safe call db)
    (hfails : (fails && call.hasWritten) = false) (hstep : advance fails call db = some r) :
    Safe r.2 r.1 ∧ (r.1 = db ∨ r.2.committed = true) ∧ (call.committed = true → r.2.committed = true) := by
  unfold advance at hstep
  split at hstep
  · -- a failure: the call has not written, or it is at its final read
    obtain ⟨err, herr, rfl⟩ := Option.map_eq_some_iff.1 hstep
    refine ⟨⟨trivial, rfl⟩, .inl rfl, fun hcommitted => ?_⟩
    cases call with
    | writing id writes dirty =>
      cases writes with
      | nil => cases herr; rfl
      | cons w rest => cases dirty <;> simp_all [ApiCall.hasWritten, ApiCall.committed]
    | returned err => cases herr
    | _ => simp_all [ApiCall.hasWritten, ApiCall.committed]
  · cases hstep
  · split at hstep <;> cases hstep <;> exact ⟨⟨trivial, rfl⟩, .inl rfl, fun hc => by cases hc⟩
  · cases hstep
    rw [applyPatchCheck]
    split_ifs <;> exact ⟨⟨trivial, rfl⟩, .inl rfl, fun hc => by cases hc⟩
  · next id w rest dirty =>
    cases hstep
    rw [patchDevice]
    cases hd : db.devices.lookup id with
    | none =>
      refine ⟨⟨trivial, rfl⟩, .inl rfl, fun hcommitted => ?_⟩
      cases dirty with
      | false => cases hcommitted
      | true => exact absurd h.2 (by simp [ApiCall.needs, hd])
    | some d => exact ⟨⟨trivial, by simp [ApiCall.needs, lookup_mapSet]⟩, .inr rfl, fun _ => rfl⟩
  · cases hstep
    refine ⟨⟨trivial, rfl⟩, .inl rfl, fun _ => ?_⟩
    split_ifs <;> rfl
  · cases hstep
    refine ⟨safe_checkDevice h, .inl rfl, fun hc => by cases hc⟩
  · cases hstep
    rw [storeGroup]
    split_ifs
    · exact ⟨⟨trivial, rfl⟩, .inl rfl, fun hc => by cases hc⟩
    · split
      · exact ⟨⟨trivial, rfl⟩, .inl rfl, fun hc => by cases hc⟩
      · exact ⟨⟨h.1, by simpa [ApiCall.needs, lookup_mapSet] using h.2⟩, .inr rfl, fun hc => by cases hc⟩
  · cases hstep
    obtain ⟨hsafe, hcommitted⟩ := safe_addGroupDevice h
    exact ⟨hsafe, .inr hcommitted, fun _ => hcommitted⟩
  · cases hstep
    exact ⟨⟨trivial, rfl⟩, .inl rfl, fun _ => rfl⟩

/-- A request that has not begun. -/
def ApiCall.isRequest : ApiCall → Bool
  | .patch .. => true
  | .checking _ _ ids missing => ids.isEmpty && missing.isEmpty
  | _ => false

section

variable {ε : Type} {env : ε → ApiDb → Option ApiDb} {c : Nat} {s s' : Calls ApiDb ApiCall}
  {a : CallsAction Bool ε} {call : ApiCall}

/-- One step of the system, seen from a call that has what it needs. -/
theorem safe_step (hcall : s.points[c]? = some call) (h : Safe call s.shared) (hok : Undisturbed env c s a)
    (hstep : Calls.step advance env s a = some s') :
    ∃ call', s'.points[c]? = some call' ∧ Safe call' s'.shared ∧
      (LeavesAlone env c s a ∨ call'.committed = true) ∧ (call.committed = true → call'.committed = true) := by
  have hkept : s'.points[c]? = some call → call.needs s'.shared = true →
      (∀ fails, a ≠ .run c fails) → ∃ call', s'.points[c]? = some call' ∧ Safe call' s'.shared ∧
        (LeavesAlone env c s a ∨ call'.committed = true) ∧ (call.committed = true → call'.committed = true) :=
    fun hpoint hneeds hother =>
      ⟨call, hpoint, ⟨h.1, hneeds⟩, .inl fun fails ha => absurd ha (hother fails), fun hc => hc⟩
  have hok := hok call hcall
  cases a with
  | env e =>
    have hneeds := hok s' hstep
    obtain ⟨db, hdb, rfl⟩ := Option.map_eq_some_iff.1 hstep
    exact hkept hcall hneeds nofun
  | run c' fails =>
    obtain ⟨p, hp, r, hr, rfl⟩ : ∃ p, s.points[c']? = some p ∧ ∃ r, advance fails p s.shared = some r ∧
        s' = ⟨r.1, s.points.set c' r.2⟩ := by
      cases hp : s.points[c']? with
      | none => simp [Calls.step, hp] at hstep
      | some p =>
        simp only [Calls.step, hp, Option.map_eq_some_iff] at hstep
        obtain ⟨r, hr, rfl⟩ := hstep
        exact ⟨p, rfl, r, hr, rfl⟩
    by_cases hc : c' = c
    · subst hc
      cases hp.symm.trans hcall
      dsimp only at hok
      rw [if_pos rfl] at hok
      obtain ⟨hsafe, hleaves, hcommitted⟩ := safe_advance h hok hr
      refine ⟨r.2, List.getElem?_set_self (List.getElem?_eq_some_iff.1 hp).1, hsafe,
        hleaves.imp_left fun heq _ _ t ht => ?_, hcommitted⟩
      cases ht.symm.trans hstep
      exact heq
    · dsimp only at hok
      rw [if_neg hc] at hok
      exact hkept (by rw [List.getElem?_set_ne hc]; exact hcall) (hok _ hstep) (by simpa using hc)

/-- **All or nothing.** Among any number of calls and whatever else others do: a call that returns an error before
its final read has written nothing, if the store does not fail behind its first write and the others leave what it
needs. -/
theorem error_leaves_nothing {err : ApiError} {schedule : List (CallsAction Bool ε)}
    (hcall : s.points[c]? = some call) (hrequest : call.isRequest = true)
    (hok : Throughout (Calls.step advance env) (Undisturbed env c) s schedule)
    (hrun : exec (Calls.step advance env) s schedule = some s')
    (hreturned : s'.points[c]? = some (.returned (some err))) (hbefore : err ≠ .finalRead) :
    Throughout (Calls.step advance env) (LeavesAlone env c) s schedule := by
  have hinit : Safe call s.shared := by
    cases call with
    | patch address p => exact ⟨trivial, rfl⟩
    | checking name todo ids missing =>
      have : ids = [] := by simpa using (Bool.and_eq_true_iff.1 hrequest).1
      subst this
      exact ⟨List.nodup_nil, rfl⟩
    | _ => cases hrequest
  clear hrequest
  induction schedule generalizing s call with
  | nil => trivial
  | cons a schedule ih =>
    obtain ⟨t, ht, hrun⟩ := exec_cons_eq_some.1 hrun
    obtain ⟨hoka, hok⟩ := (throughout_cons ht).1 hok
    obtain ⟨call', hcall', hsafe, hleaves, -⟩ := safe_step hcall hinit hoka ht
    refine (throughout_cons ht).2 ⟨hleaves.resolve_right fun hcommitted => ?_, ih hcall' hok hrun hsafe⟩
    -- a call that is committed returns no such error
    obtain ⟨p, hp, -, hcommitted⟩ := exec_invariant
      (I := fun t => ∃ p, t.points[c]? = some p ∧ Safe p t.shared ∧ p.committed = true)
      (fun _ _ _ ⟨p, hp, hsafe, hcommitted⟩ hok hstep =>
        have ⟨p', hp', hsafe', _, hkeeps⟩ := safe_step hp hsafe hok hstep
        ⟨p', hp', hsafe', hkeeps hcommitted⟩) ⟨call', hcall', hsafe, hcommitted⟩ hok hrun
    cases hreturned.symm.trans hp
    cases err <;> first | exact hbefore rfl | cases hcommitted

end

/-- The request for a group of the two devices of `twoPatches`, and a patch of the first one. -/
def groupAndPatch (c : Nat) : Calls ApiDb ApiCall where
  shared := twoPatches.shared
  points := [[.checking (utf8 "g") [DeviceID.string (Vector.replicate 16 7), DeviceID.string (Vector.replicate 16 8)]
      [] [], .patch (.byID (DeviceID.string (Vector.replicate 16 7)))
        ⟨[(utf8 "name", some (utf8 "a"))], [(utf8 "k", some (utf8 "v"))], none⟩].getD c (.returned none)]

/-- A device is deleted before it is looked up: nothing is written. -/
theorem error_leaves_nothing_missing :
    (exec apiStep (groupAndPatch 0) [.run 0 false, .env (Vector.replicate 16 8), .run 0 false, .run 0 false]).map
        Calls.points = some [.returned (some (.devicesMustExist [DeviceID.string (Vector.replicate 16 8)]))] ∧
      Throughout apiStep (LeavesAlone deleteDevice 0) (groupAndPatch 0)
        [.run 0 false, .env (Vector.replicate 16 8), .run 0 false, .run 0 false] := by
  have hrun : (exec apiStep (groupAndPatch 0)
      [.run 0 false, .env (Vector.replicate 16 8), .run 0 false, .run 0 false]).map Calls.points =
        some [.returned (some (.devicesMustExist [DeviceID.string (Vector.replicate 16 8)]))] := by decide +kernel
  obtain ⟨s', hs', hpoints⟩ := Option.map_eq_some_iff.1 hrun
  exact ⟨hrun, error_leaves_nothing (c := 0) rfl rfl (by decide +kernel) hs' (by rw [hpoints]; rfl) (by simp)⟩

/-- A device is deleted behind its check, and the group stays with the other one; the store fails between two
statements of a patch, and the aliases stay. -/
theorem error_leaves_writes :
    (exec apiStep (groupAndPatch 0) [.run 0 false, .run 0 false, .env (Vector.replicate 16 8), .run 0 false,
        .run 0 false, .run 0 false]).map (fun s => (s.points, s.shared.groups)) =
      some ([.returned (some .notFound)], [(utf8 "g", [Vector.replicate 16 7])]) ∧
    (exec apiStep (groupAndPatch 1) [.run 0 false, .run 0 false, .run 0 false, .run 0 true]).map
        (fun s => (s.points, s.shared.devices.map fun e => e.2.aliases)) =
      some ([.returned (some .store)], [[(utf8 "name", utf8 "a")], []]) := by
  refine ⟨?_, ?_⟩
  · decide +kernel
  · decide +kernel

end Astrate.AppEngine
