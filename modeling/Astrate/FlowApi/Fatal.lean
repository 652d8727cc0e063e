import Astrate.FlowApi.Lifecycle
import Astrate.GoLib.Map

/-!
# Fatal callbacks and later instances

The watcher of a container block looks whether the block has been stopped, and calls the callback of
`onBlockFatal` afterwards; the callback marks the row, stops the flow and unregisters it by its name. What
it does is in the log, with the flow that was registered then.

The callback stays with its own flow if no flow is started while another one is live, or while the callback
of a flow that has been started is on its way (`fatal_acts_on_own`).
-/

set_option autoImplicit false

namespace Astrate.FlowApi.Lifecycle

open Astrate.GoLib

namespace Shared

/-- The build that the blocks of a flow come from. -/
def origin (s : Shared) (k : Nat) : Option Nat := (s.flows[k]?).map (·.build)

/-- No callback has done anything to a flow that was started after its own. -/
def OwnOnly (s : Shared) : Prop :=
  ∀ r ∈ s.log, ∀ t k, r.target = some t → s.origin k = some r.build → t ≤ k

variable {b k : Nat} {s : Shared}

theorem origin_lt (h : s.origin k = some b) : k < s.flows.length := by
  obtain ⟨f, hf, -⟩ := Option.map_eq_some_iff.1 h
  exact (List.getElem?_eq_some_iff.1 hf).1

theorem origin_congr {s' : Shared} (h : s'.flows = s.flows) (k : Nat) : s'.origin k = s.origin k := by
  rw [origin, origin, h]

theorem origin_stop (s : Shared) (j k : Nat) : (s.stop j).origin k = s.origin k := by
  rw [origin, origin, stop, List.getElem?_modify]
  cases s.flows[k]? with
  | none => rfl
  | some f =>
    by_cases h : j = k
    · simp [h]
    · simp [h]

theorem origin_start {b' : Nat} (h : (s.start b).origin k = some b') :
    s.origin k = some b' ∨ k = s.flows.length := by
  rcases Nat.lt_or_ge k s.flows.length with hlt | hge
  · left
    rw [origin, start, List.getElem?_append_left hlt] at h
    exact h
  · right
    have hlt := origin_lt h
    rw [start, List.length_append, List.length_singleton] at hlt
    omega

/-- The flow of a block that has not been stopped is live. -/
theorem live_of_origin (hblocks : s.blocksStopped b = false)
    (h : s.origin k = some b) : s.live k = true := by
  obtain ⟨f, hf, rfl⟩ := Option.map_eq_some_iff.1 h
  rw [blocksStopped, List.any_eq_false] at hblocks
  have hstopped := hblocks f (List.mem_of_getElem? hf)
  rw [live_iff]
  refine ⟨f, hf, ?_⟩
  simpa using hstopped

theorem mem_log_logs {why : Purpose} {act : FatalAct} {target : Option Nat} {r : FatalRecord}
    (h : r ∈ (s.logs why act target).log) : r ∈ s.log ∨ ∃ b, why = .fatal b ∧ r = ⟨b, act, target⟩ := by
  cases why with
  | fatal b =>
    rw [logs, List.mem_append, List.mem_singleton] at h
    exact h.imp_right fun h => ⟨b, rfl, h⟩
  | restart => exact Or.inl h
  | delete => exact Or.inl h

/-- The last flow that has been started is the only one that can have these blocks. -/
def Latest (s : Shared) (b : Nat) : Prop := ∀ k, s.origin k = some b → k + 1 = s.flows.length

end Shared

def Point.starts : Point → Bool
  | .starting _ => true
  | _ => false

namespace Instance

/-- No flow is live, and no callback is on its way for a flow that has been started. -/
def quiet (i : Instance) : Bool :=
  i.shared.idle && i.calls.all fun c => c.point.callback.all fun b => i.shared.flows.all (·.build != b)

/-- `StartFlow` starts a flow in a quiet state only. -/
def StartsAlone (i : Instance) (a : Act) : Prop :=
  ((i.calls[a.call]?).all fun c =>
    !c.point.starts || i.shared.registered.isSome || !a.ok || i.quiet) = true

instance (i : Instance) (a : Act) : Decidable (i.StartsAlone a) := inferInstanceAs (Decidable (_ = true))

/-- What holds of the callbacks while flows are started alone. -/
structure Own (i : Instance) : Prop where
  last : ∀ k, i.shared.live k = true → k + 1 = i.shared.flows.length
  registered : ∀ k, i.shared.registered = some k → k < i.shared.flows.length
  found : ∀ c ∈ i.calls, ∀ why k, c.point = .stopping why k → k < i.shared.flows.length
  callback : ∀ c ∈ i.calls, ∀ b, c.point.callback = some b → i.shared.Latest b
  target : ∀ r ∈ i.shared.log, ∀ t, r.target = some t → t < i.shared.flows.length
  own : i.shared.OwnOnly

theorem own_init (row : Option DurableFlow) (requests : List Request) : (init row requests).Own where
  last k hk := by cases hk
  registered k hk := by cases hk
  found c hc why k hpoint := by
    obtain ⟨r, -, rfl⟩ := List.mem_map.1 hc
    cases r <;> cases hpoint
  callback c hc b hb k hk := by cases hk
  target r hr := by cases hr
  own r hr := by cases hr

variable {c' : Call} {i : Instance}

/-- A step that starts nothing. The new record, if there is one, comes from a callback whose flow is the
latest. -/
theorem Own.frame {s' : Shared} (n : Nat) (h : i.Own)
    (hlength : s'.flows.length = i.shared.flows.length) (horigin : ∀ k, s'.origin k = i.shared.origin k)
    (hlive : ∀ k, s'.live k = true → i.shared.live k = true)
    (hregistered : ∀ k, s'.registered = some k → i.shared.registered = some k)
    (hfound : ∀ why k, c'.point = .stopping why k → k < i.shared.flows.length)
    (hcallback : ∀ b, c'.point.callback = some b → i.shared.Latest b)
    (hlog : ∀ r ∈ s'.log, r ∈ i.shared.log ∨
      i.shared.Latest r.build ∧ ∀ t, r.target = some t → t < i.shared.flows.length) :
    Own ⟨s', i.calls.set n c'⟩ := by
  have hlatest : ∀ b, i.shared.Latest b → s'.Latest b := by
    intro b hb k hk
    rw [hlength]
    exact hb k (horigin k ▸ hk)
  constructor
  case last =>
    intro k hk
    rw [hlength]
    exact h.last k (hlive k hk)
  case registered =>
    intro k hk
    rw [hlength]
    exact h.registered k (hregistered k hk)
  case found =>
    rw [hlength]
    exact forall_mem_set h.found hfound
  case callback =>
    exact fun c hc b hb => hlatest b (forall_mem_set h.callback hcallback c hc b hb)
  case target =>
    intro r hr t ht
    rw [hlength]
    rcases hlog r hr with hr | ⟨-, hr⟩
    · exact h.target r hr t ht
    · exact hr t ht
  case own =>
    intro r hr t k ht hk
    rw [horigin] at hk
    rcases hlog r hr with hr | ⟨hlatest, hr⟩
    · exact h.own r hr t k ht hk
    · have hlt := hr t ht
      have hlast := hlatest k hk
      omega

/-- A flow is started in a quiet state. -/
theorem Own.start (n b : Nat) (h : i.Own) (hquiet : i.quiet = true)
    (hc' : c'.point = .marking) : Own ⟨i.shared.start b, i.calls.set n c'⟩ := by
  rw [quiet, Bool.and_eq_true, List.all_eq_true] at hquiet
  obtain ⟨hidle, hcalls⟩ := hquiet
  have hlength : (i.shared.start b).flows.length = i.shared.flows.length + 1 := by simp [Shared.start]
  constructor
  case last =>
    intro k hk
    rcases (i.shared.live_start b k).1 hk with hk | rfl
    · rw [Shared.idle_iff.1 hidle k] at hk
      cases hk
    · exact hlength.symm
  case registered =>
    intro k hk
    cases hk
    rw [hlength]
    exact Nat.lt_succ_self _
  case found =>
    intro c hc why k hpoint
    rw [hlength]
    rcases List.mem_or_eq_of_mem_set hc with hc | rfl
    · exact Nat.lt_succ_of_lt (h.found c hc why k hpoint)
    · rw [hc'] at hpoint
      cases hpoint
  case callback =>
    intro c hc b' hb' k hk
    rw [hlength]
    rcases List.mem_or_eq_of_mem_set hc with hc | rfl
    · rcases Shared.origin_start hk with hk | rfl
      · -- the flow of the callback had been started before
        have hnot := hcalls c hc
        rw [hb', Option.all_some, List.all_eq_true] at hnot
        obtain ⟨f, hf, rfl⟩ := Option.map_eq_some_iff.1 hk
        simpa using hnot f (List.mem_of_getElem? hf)
      · rfl
    · rw [hc'] at hb'
      cases hb'
  case target =>
    intro r hr t ht
    rw [hlength]
    exact Nat.lt_succ_of_lt (h.target r hr t ht)
  case own =>
    intro r hr t k ht hk
    rcases Shared.origin_start hk with hk | rfl
    · exact h.own r hr t k ht hk
    · exact Nat.le_of_lt (h.target r hr t ht)

/-- A step that leaves the flows as they are. -/
theorem Own.still {s' : Shared} (n : Nat) (h : i.Own)
    (hflows : s'.flows = i.shared.flows)
    (hregistered : ∀ k, s'.registered = some k → i.shared.registered = some k)
    (hfound : ∀ why k, c'.point = .stopping why k → k < i.shared.flows.length)
    (hcallback : ∀ b, c'.point.callback = some b → i.shared.Latest b)
    (hlog : ∀ r ∈ s'.log, r ∈ i.shared.log ∨
      i.shared.Latest r.build ∧ ∀ t, r.target = some t → t < i.shared.flows.length) :
    Own ⟨s', i.calls.set n c'⟩ := by
  refine h.frame n (by rw [hflows]) (Shared.origin_congr hflows) (fun k hk => ?_) hregistered hfound
    hcallback hlog
  rwa [Shared.live_congr hflows] at hk

theorem own_step {i' : Instance} {a : Act} (h : i.Own) (halone : i.StartsAlone a)
    (hstep : i.step a = some i') : i'.Own := by
  obtain ⟨c, s', c', hc, hcall, rfl⟩ := step_eq_some hstep
  have hlatest := h.callback c (List.mem_of_getElem? hc)
  cases goes_of_callStep hcall with
  | pass hs _ hcritical hcallback =>
    refine h.still a.call hs.flows (fun k hk => hs.registered ▸ hk) (fun why k hpoint => ?_)
      (fun b hb k hk => ?_) (fun r hr => Or.inl (hs.log ▸ hr))
    · rw [hpoint] at hcritical
      cases hcritical
    · -- the watcher has seen that the block is running, and a flow that is live is the latest
      exact h.last k (Shared.live_of_origin (hcallback b hb) hk)
  | insert _ _ =>
    exact h.still a.call rfl (fun _ => id) (fun _ _ h => by cases h) (fun _ h => by cases h)
      (fun _ => Or.inl)
  | begin _ hcallback hp =>
    refine h.still a.call rfl (fun _ => id) (fun why k hpoint => ?_) (fun b hb => ?_) (fun _ => Or.inl)
    · rcases hp with rfl | ⟨rfl | rfl, _⟩ <;> cases hpoint
    · rw [Call.goto, hcallback] at hb
      cases hb
  | @notify b hpoint =>
    rw [hpoint] at hlatest
    refine h.still a.call rfl (fun _ => id) (fun _ _ h => by cases h) hlatest (fun r hr => ?_)
    rcases Shared.mem_log_logs hr with hr | ⟨b', hb', rfl⟩
    · exact Or.inl hr
    · cases hb'
      exact Or.inr ⟨hlatest b rfl, h.registered⟩
  | absent hpoint _ =>
    rw [hpoint] at hlatest
    exact h.still a.call rfl (fun _ => id) (fun _ _ h => by cases h) hlatest (fun _ => Or.inl)
  | found hpoint hsome =>
    rw [hpoint] at hlatest
    refine h.still a.call rfl (fun _ => id) (fun why k hk => ?_) hlatest (fun _ => Or.inl)
    cases hk
    exact h.registered _ hsome
  | @stop why k hpoint =>
    have hk := h.found c (List.mem_of_getElem? hc) why k hpoint
    rw [hpoint] at hlatest
    refine h.frame a.call ?_ (fun j => ?_) (fun j hj => ?_) (fun j hj => ?_) (fun _ _ h => by cases h)
      hlatest (fun r hr => ?_)
    · rw [Shared.flows_logs, Shared.stop, List.length_modify]
    · rw [Shared.origin_congr (Shared.flows_logs _ _ _ _), Shared.origin_stop]
    · rw [Shared.live_congr (Shared.flows_logs _ _ _ _), Shared.live_stop] at hj
      exact hj.1
    · rw [Shared.registered_logs] at hj
      exact hj
    · rcases Shared.mem_log_logs hr with hr | ⟨b, rfl, rfl⟩
      · exact Or.inl hr
      · refine Or.inr ⟨hlatest b rfl, fun t ht => ?_⟩
        cases ht
        exact hk
  | @unregister why hpoint =>
    rw [hpoint] at hlatest
    refine h.still a.call (Shared.flows_logs _ _ _ _) (fun k hk => ?_) (fun why' k hk => ?_)
      (fun b hb => ?_) (fun r hr => ?_)
    · rw [Shared.registered_logs] at hk
      cases hk
    · cases why <;> cases hk
    · cases why <;> cases hb
    · rcases Shared.mem_log_logs hr with hr | ⟨b, rfl, rfl⟩
      · exact Or.inl hr
      · exact Or.inr ⟨hlatest b rfl, h.registered⟩
  | delete _ =>
    exact h.still a.call rfl (fun _ => id) (fun _ _ h => by cases h) (fun _ h => by cases h)
      (fun _ => Or.inl)
  | build hs _ hp =>
    refine h.still a.call hs.flows (fun k hk => hs.registered ▸ hk) (fun why k hk => ?_)
      (fun b hb => ?_) (fun r hr => Or.inl (hs.log ▸ hr))
    · rcases hp with ⟨b, rfl⟩ | ⟨b, rfl⟩ <;> cases hk
    · rcases hp with ⟨b, rfl⟩ | ⟨b, rfl⟩ <;> cases hb
  | @start b hpoint hnone hok =>
    rw [StartsAlone, hc, Option.all_some, hpoint, hnone, hok] at halone
    exact h.start a.call b halone rfl
  | quit hs _ _ =>
    obtain ⟨hcritical, hcallback⟩ := c.fails_free
    refine h.still a.call hs.flows (fun k hk => hs.registered ▸ hk) (fun why k hk => ?_)
      (fun b hb => ?_) (fun r hr => Or.inl (hs.log ▸ hr))
    · rw [hk] at hcritical
      cases hcritical
    · rw [hcallback] at hb
      cases hb

/-- **Fatal callbacks act on their own instance.** For every set of calls and every order of their steps in
which flows are started alone: whatever a callback has marked, stopped or unregistered was not started
after the flow of the block that made it. -/
theorem fatal_acts_on_own (row : Option DurableFlow) (requests : List Request) (acts : List Act)
    (i : Instance) (hrun : exec step (init row requests) acts = some i)
    (halone : Throughout step StartsAlone (init row requests) acts) : i.shared.OwnOnly :=
  (exec_invariant (I := Own) (fun _ _ _ h hok hstep => own_step h hok hstep) (own_init row requests)
    halone hrun).own

/-- A container of the flow that was created dies, and the loop starts the flow again. -/
def dies : List Act := List.replicate 6 ⟨0, true⟩ ++ List.replicate 17 ⟨1, true⟩

theorem fatal_acts_on_own_dies :
    ∃ i, exec step (init none [.create true, .fatal 0]) dies = some i ∧ i.shared.OwnOnly ∧
      i.shared.live 1 = true ∧
      i.shared.log = [⟨0, .marks, some 0⟩, ⟨0, .stops, some 0⟩, ⟨0, .unregisters, some 0⟩] :=
  ⟨_, rfl, fatal_acts_on_own none [.create true, .fatal 0] dies _ rfl (by decide), rfl, rfl⟩

/-- The watcher has seen that the block is running when the flow is reloaded. -/
def diesLate : List Act :=
  List.replicate 6 ⟨0, true⟩ ++ [⟨2, true⟩] ++ List.replicate 9 ⟨1, true⟩ ++ List.replicate 4 ⟨2, true⟩

/-- The callback of the old flow marks the new one as failed, stops it and unregisters it. -/
theorem fatal_acts_on_later :
    ∃ i, exec step (init none [.create false, .reload, .fatal 0]) diesLate = some i ∧
      i.shared.origin 0 = some 0 ∧ i.shared.origin 1 = some 1 ∧
      i.shared.log = [⟨0, .marks, some 1⟩, ⟨0, .stops, some 1⟩, ⟨0, .unregisters, some 1⟩] ∧
      i.shared.live 1 = false ∧ i.shared.registered = none ∧ i.shared.row = some ⟨false, .failed⟩ :=
  ⟨_, rfl, rfl, rfl, rfl, rfl, rfl, rfl⟩

end Instance

end Astrate.FlowApi.Lifecycle
