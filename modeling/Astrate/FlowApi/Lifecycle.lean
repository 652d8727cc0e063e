import Astrate.GoLib.Schedule

/-!
# The life of a flow instance

The calls of `internal/flowapi/service.go` that concern one realm and one flow name, running at the same
time: `CreateAndStartFlow`, `RehydrateAutoRestart`, `ReloadFlow`, `UpdateFlowConfig`, `DeleteFlow`, and the
callback of `onBlockFatal` with the loop of `restartWithBackoff`. A call is a sequence of steps of the
store and of the manager of `internal/flow/flow.go`. Each step is atomic, and nothing is locked between
two of them. The store does not fail; builds fail, and so do the drains of `StopFlow` whose context can
end.

A flow object is numbered by when it was started, and its blocks by when they were built. While no two
calls are at the same time between what they read and what they do because of it (`critical`), all is
well (`instance_lifecycle`).
-/

set_option autoImplicit false

namespace Astrate.FlowApi.Lifecycle

open Astrate.GoLib

/-! ## The state -/

/-- The column `status` of a flow. -/
inductive FlowStatus where
  | creating
  | running
  | failed
  | stopped
  deriving DecidableEq, Repr

/-- The row of the flow. -/
structure DurableFlow where
  autoRestart : Bool
  status : FlowStatus := .stopped
  deriving DecidableEq, Repr

/-- A `Flow`, with the number of the build its blocks come from. -/
structure FlowObject where
  build : Nat
  stopped : Bool := false
  deriving DecidableEq, Repr

/-- What a fatal callback does to the instance. -/
inductive FatalAct where
  | marks
  | stops
  | unregisters
  deriving DecidableEq, Repr

/-- A thing that the callback of a block of `build` has done to the flow `target`. -/
structure FatalRecord where
  build : Nat
  act : FatalAct
  target : Option Nat
  deriving DecidableEq, Repr

/-- What the calls share: the row, the entry of the manager's map, the flows in the order they were
started, the number of builds, the entry of the map `restarting`; and what fatal callbacks have done. -/
structure Shared where
  row : Option DurableFlow
  registered : Option Nat := none
  flows : List FlowObject := []
  builds : Nat := 0
  restarting : Bool := false
  log : List FatalRecord := []
  deriving DecidableEq, Repr

/-- What a call stops the flow for. -/
inductive Purpose where
  | restart
  | delete
  | fatal (build : Nat)
  deriving DecidableEq, Repr

namespace Shared

/-- Started and not stopped. -/
def live (s : Shared) (k : Nat) : Bool := (s.flows[k]?).any (!·.stopped)

/-- No flow runs. -/
def idle (s : Shared) : Bool := s.flows.all (·.stopped)

def autoRestarts (s : Shared) : Bool := s.row.any (·.autoRestart)

/-- The blocks of the build belong to a flow that has been stopped. -/
def blocksStopped (s : Shared) (build : Nat) : Bool := s.flows.any fun f => f.build == build && f.stopped

/-- `UpdateFlowRuntime`; without the row it does nothing. -/
def mark (s : Shared) (status : FlowStatus) : Shared :=
  { s with row := s.row.map fun r => { r with status } }

/-- `StartFlow` -/
def start (s : Shared) (build : Nat) : Shared :=
  { s with registered := some s.flows.length, flows := s.flows ++ [⟨build, false⟩] }

/-- The last part of `StopFlow`, after the drain. -/
def stop (s : Shared) (k : Nat) : Shared :=
  { s with flows := s.flows.modify k fun f => { f with stopped := true } }

def logs (s : Shared) (why : Purpose) (act : FatalAct) (target : Option Nat) : Shared :=
  match why with
  | .fatal build => { s with log := s.log ++ [⟨build, act, target⟩] }
  | _ => s

end Shared

/-! ## The calls -/

/-- What a call is about to do. -/
inductive Point where
  | inserting (autoRestart : Bool)
  | listing
  | validating
  | updating
  | probing
  | resolving
  | watching (build : Nat)
  | notifying (build : Nat)
  | reloading
  | looking (why : Purpose)
  | stopping (why : Purpose) (k : Nat)
  | unregistering (why : Purpose)
  | deleting
  | building
  | built (build : Nat)
  | starting (build : Nat)
  | marking
  | reading
  | rereading
  | claiming
  | sleeping
  | releasing
  | done
  deriving DecidableEq, Repr

/-- Between a look at the row or the manager's map and the step that relies on it. -/
def Point.critical : Point → Bool
  | .looking _ | .stopping _ _ | .unregistering _ | .deleting => true
  | .building | .built _ | .starting _ => true
  | _ => false

/-- The build whose callback this is. -/
def Purpose.callback : Purpose → Option Nat
  | .fatal b => some b
  | _ => none

/-- The build whose callback is between the check of its watcher and `UnregisterFlow`. -/
def Point.callback : Point → Option Nat
  | .notifying b => some b
  | .looking why | .stopping why _ | .unregistering why => why.callback
  | _ => none

/-- A call; `looping` says that it has become the loop of `restartWithBackoff`. -/
structure Call where
  point : Point
  looping : Bool := false
  deriving DecidableEq, Repr

/-- `fatal` is the exit of a container of the build, which its watcher sees. -/
inductive Request where
  | create (autoRestart : Bool)
  | rehydrate
  | reload
  | updateConfig
  | delete
  | fatal (build : Nat)
  deriving DecidableEq, Repr

def Request.entry : Request → Point
  | .create autoRestart => .inserting autoRestart
  | .rehydrate => .listing
  | .reload => .reloading
  | .updateConfig => .validating
  | .delete => .resolving
  | .fatal build => .watching build

namespace Call

/-- A call goes on. -/
def goto (c : Call) (p : Point) : Call := { c with point := p }

/-- The start fails; the loop tries again. -/
def fails (c : Call) : Call := c.goto (if c.looping then .sleeping else .done)

end Call

/-- Where the call goes on after `UnregisterFlow`. -/
def Purpose.next : Purpose → Point
  | .restart => .building
  | .delete => .deleting
  | .fatal _ => .rereading

/-- The next step of a call. What it cannot know is given by `ok`: whether the new config is valid, whether
the drain ends before the context does, whether the blocks can be built, and whether the graph is
accepted. -/
def callStep (s : Shared) (c : Call) (ok : Bool) : Option (Shared × Call) :=
  match c.point with
  | .inserting autoRestart =>
    match s.row with
    | none => some ({ s with row := some ⟨autoRestart, .stopped⟩ }, c.goto .building)
    | some _ => some (s, c.goto .done)
  | .listing => some (s, c.goto (if s.autoRestarts then .building else .done))
  | .validating => some (s, c.goto (if s.row.isSome && ok then .updating else .done))
  | .updating => some (s, c.goto (if s.row.isSome then .probing else .done))
  | .probing => some (s, c.goto (if s.registered.isSome then .reloading else .done))
  | .resolving => some (s, c.goto (.looking .delete))
  | .watching b =>
    if b < s.builds then some (s, c.goto (if s.blocksStopped b then .done else .notifying b)) else none
  | .notifying b =>
    some ((s.mark .failed).logs (.fatal b) .marks s.registered, c.goto (.looking (.fatal b)))
  -- the row is read once, and not looked at again before the flow is started
  | .reloading => some (s, if s.row.isSome then c.goto (.looking .restart) else c.fails)
  | .looking why =>
    match s.registered with
    | none => some (s, c.goto (.unregistering why))
    | some k => some (s, c.goto (.stopping why k))
  | .stopping why k =>
    if ok then some ((s.stop k).logs why .stops (some k), c.goto (.unregistering why))
    else
      -- the callback drains with the background context
      match why with
      | .fatal _ => none
      | _ => some (s, c.fails)
  | .unregistering why =>
    some ({ s with registered := none }.logs why .unregisters s.registered, c.goto why.next)
  | .deleting => some ({ s with row := none }, c.goto .done)
  | .building =>
    -- a build that fails may leave blocks behind, and they have a number too
    if ok then some ({ s with builds := s.builds + 1 }, c.goto (.built s.builds))
    else some ({ s with builds := s.builds + 1 }.mark .failed, c.fails)
  | .built b => some (s.mark .creating, c.goto (.starting b))
  | .starting b =>
    match s.registered with
    -- `ErrFlowExists` leaves the status as it is
    | some _ => some (s, c.fails)
    | none => if ok then some (s.start b, c.goto .marking) else some (s.mark .failed, c.fails)
  | .marking => some (s.mark .running, c.goto .reading)
  | .reading =>
    -- a restart fails if the row is gone by now, and the loop goes on
    some (s, c.goto (if c.looping then (if s.row.isSome then .releasing else .sleeping) else .done))
  | .rereading => some (s, c.goto (if s.autoRestarts then .claiming else .done))
  | .claiming =>
    -- one loop for an instance is enough
    if s.restarting then some (s, c.goto .done)
    else some ({ s with restarting := true }, { c with point := .sleeping, looping := true })
  | .sleeping => some (s, c.goto (if s.autoRestarts then .reloading else .releasing))
  | .releasing => some ({ s with restarting := false }, c.goto .done)
  | .done => none

/-- The instance with the calls that concern it. -/
structure Instance where
  shared : Shared
  calls : List Call
  deriving DecidableEq, Repr

/-- A step of a call, and its success. -/
structure Act where
  call : Nat
  ok : Bool := true
  deriving DecidableEq, Repr

namespace Instance

/-- No flow has been started, and no call has begun. -/
def init (row : Option DurableFlow) (requests : List Request) : Instance where
  shared := { row }
  calls := requests.map fun r => ⟨r.entry, false⟩

/-- One step, if possible. -/
def step (i : Instance) (a : Act) : Option Instance :=
  match i.calls[a.call]? with
  | none => none
  | some c => (callStep i.shared c a.ok).map fun r => ⟨r.1, i.calls.set a.call r.2⟩

theorem step_eq_some {i i' : Instance} {a : Act} (h : i.step a = some i') :
    ∃ c s' c', i.calls[a.call]? = some c ∧ callStep i.shared c a.ok = some (s', c') ∧
      i' = ⟨s', i.calls.set a.call c'⟩ := by
  rw [step] at h
  cases hc : i.calls[a.call]? with
  | none => simp [hc] at h
  | some c =>
    rw [hc] at h
    obtain ⟨⟨s', c'⟩, hcall, rfl⟩ := Option.map_eq_some_iff.1 h
    exact ⟨c, s', c', rfl, hcall, rfl⟩

end Instance

/-! ## What a step can do -/

namespace Shared

/-- The two agree on what the calls rely on. -/
structure Same (s s' : Shared) : Prop where
  row : s'.row.isSome = s.row.isSome
  registered : s'.registered = s.registered
  flows : s'.flows = s.flows
  log : s'.log = s.log

theorem Same.refl (s : Shared) : s.Same s := ⟨rfl, rfl, rfl, rfl⟩

theorem same_mark (s : Shared) (status : FlowStatus) : s.Same (s.mark status) :=
  ⟨Option.isSome_map, rfl, rfl, rfl⟩

@[simp] theorem row_logs (s : Shared) (why : Purpose) (act : FatalAct) (t : Option Nat) :
    (s.logs why act t).row = s.row := by
  cases why <;> rfl

@[simp] theorem registered_logs (s : Shared) (why : Purpose) (act : FatalAct) (t : Option Nat) :
    (s.logs why act t).registered = s.registered := by
  cases why <;> rfl

@[simp] theorem flows_logs (s : Shared) (why : Purpose) (act : FatalAct) (t : Option Nat) :
    (s.logs why act t).flows = s.flows := by
  cases why <;> rfl

theorem autoRestarts_row (s : Shared) (h : s.autoRestarts = true) : s.row.isSome = true := by
  rw [autoRestarts] at h
  cases hrow : s.row with
  | none =>
    rw [hrow] at h
    cases h
  | some r => rfl

theorem live_congr {s s' : Shared} (h : s'.flows = s.flows) (k : Nat) : s'.live k = s.live k := by
  rw [live, live, h]

theorem live_iff {s : Shared} {k : Nat} : s.live k = true ↔ ∃ f, s.flows[k]? = some f ∧ f.stopped = false := by
  rw [live]
  cases s.flows[k]? with
  | none => simp
  | some f => simp

theorem idle_iff {s : Shared} : s.idle = true ↔ ∀ k, s.live k = false := by
  rw [idle, List.all_eq_true]
  constructor
  · intro h k
    rw [← Bool.not_eq_true, live_iff]
    rintro ⟨f, hf, hstopped⟩
    rw [h f (List.mem_of_getElem? hf)] at hstopped
    cases hstopped
  · intro h f hf
    obtain ⟨k, hk⟩ := List.mem_iff_getElem?.1 hf
    by_contra hstopped
    have hlive : s.live k = true := live_iff.2 ⟨f, hk, Bool.not_eq_true _ ▸ hstopped⟩
    rw [h k] at hlive
    cases hlive

theorem live_start (s : Shared) (b k : Nat) :
    (s.start b).live k = true ↔ s.live k = true ∨ k = s.flows.length := by
  rw [live_iff, live_iff, start]
  rcases Nat.lt_trichotomy k s.flows.length with h | rfl | h
  · simp [List.getElem?_append_left h, Nat.ne_of_lt h]
  · simp
  · have hpast : (s.flows ++ [(⟨b, false⟩ : FlowObject)]).length ≤ k := by
      rw [List.length_append, List.length_singleton]
      exact h
    rw [List.getElem?_eq_none hpast, List.getElem?_eq_none (Nat.le_of_lt h)]
    simp [Nat.ne_of_gt h]

theorem live_stop (s : Shared) (j k : Nat) : (s.stop j).live k = true ↔ s.live k = true ∧ k ≠ j := by
  rw [live_iff, live_iff, stop, List.getElem?_modify]
  by_cases h : j = k
  · simp [h]
  · simp [h, Ne.symm h]

end Shared

/-- The steps of a call by what they do to the shared state. -/
inductive Goes (s : Shared) (c : Call) (ok : Bool) : Shared → Call → Prop
  | pass {s' : Shared} {c' : Call} (hs : s.Same s') (hc : c.point.critical = false)
      (hc' : c'.point.critical = false)
      (hcallback : ∀ b, c'.point.callback = some b → s.blocksStopped b = false) : Goes s c ok s' c'
  | insert {autoRestart : Bool} (hc : c.point = .inserting autoRestart) (hrow : s.row = none) :
      Goes s c ok { s with row := some ⟨autoRestart, .stopped⟩ } (c.goto .building)
  | begin {p : Point} (hc : c.point.critical = false) (hcallback : p.callback = none)
      (hp : p = .looking .delete ∨ (p = .building ∨ p = .looking .restart) ∧ s.row.isSome = true) :
      Goes s c ok s (c.goto p)
  | notify {b : Nat} (hc : c.point = .notifying b) :
      Goes s c ok ((s.mark .failed).logs (.fatal b) .marks s.registered) (c.goto (.looking (.fatal b)))
  | absent {why : Purpose} (hc : c.point = .looking why) (hnone : s.registered = none) :
      Goes s c ok s (c.goto (.unregistering why))
  | found {why : Purpose} {k : Nat} (hc : c.point = .looking why) (hsome : s.registered = some k) :
      Goes s c ok s (c.goto (.stopping why k))
  | stop {why : Purpose} {k : Nat} (hc : c.point = .stopping why k) :
      Goes s c ok ((s.stop k).logs why .stops (some k)) (c.goto (.unregistering why))
  | unregister {why : Purpose} (hc : c.point = .unregistering why) :
      Goes s c ok ({ s with registered := none }.logs why .unregisters s.registered) (c.goto why.next)
  | delete (hc : c.point = .deleting) : Goes s c ok { s with row := none } (c.goto .done)
  | build {s' : Shared} {p : Point} (hs : s.Same s') (hc : c.point = .building ∨ ∃ b, c.point = .built b)
      (hp : (∃ b, p = .built b) ∨ ∃ b, p = .starting b) : Goes s c ok s' (c.goto p)
  | start {b : Nat} (hc : c.point = .starting b) (hnone : s.registered = none) (hok : ok = true) :
      Goes s c ok (s.start b) (c.goto .marking)
  | quit {s' : Shared} (hs : s.Same s') (hc : c.point.critical = true)
      (hp : (∃ why k, c.point = .stopping why k) ∨ c.point = .building ∨
        ∃ b, c.point = .starting b ∧ (s.registered.isSome = true ∨ ok = false)) : Goes s c ok s' c.fails

/-- A point where a call neither relies on anything nor is in a callback. -/
def Point.Free (p : Point) : Prop := p.critical = false ∧ p.callback = none

theorem Point.Free.ite {P : Prop} [Decidable P] {p q : Point} (hp : p.Free) (hq : q.Free) :
    (if P then p else q).Free := by
  split_ifs
  · exact hp
  · exact hq

theorem Call.fails_free (c : Call) : c.fails.point.Free := .ite ⟨rfl, rfl⟩ ⟨rfl, rfl⟩

variable {s s' : Shared} {c : Call}

variable {c' : Call} {ok : Bool}

theorem Goes.free (hs : s.Same s') (hc : c.point.critical = false) (hc' : c'.point.Free) : Goes s c ok s' c' :=
  .pass hs hc hc'.1 fun b hb => by rw [hc'.2] at hb; cases hb

theorem goes_of_callStep (h : callStep s c ok = some (s', c')) : Goes s c ok s' c' := by
  obtain ⟨point, looping⟩ := c
  cases point with
  | inserting autoRestart =>
    dsimp only [callStep] at h
    split at h
    · next hrow =>
      cases h
      exact .insert rfl hrow
    · cases h
      exact .free (.refl s) rfl ⟨rfl, rfl⟩
  | listing =>
    cases h
    split_ifs with hauto
    · refine .begin rfl rfl (Or.inr ⟨Or.inl rfl, ?_⟩)
      exact s.autoRestarts_row hauto
    · exact .free (.refl s) rfl ⟨rfl, rfl⟩
  | validating | updating | probing | rereading | sleeping =>
    cases h
    exact .free (.refl s) rfl (.ite ⟨rfl, rfl⟩ ⟨rfl, rfl⟩)
  | resolving =>
    cases h
    exact .begin rfl rfl (Or.inl rfl)
  | watching b =>
    dsimp only [callStep] at h
    split_ifs at h with hbuilt hstopped
    · cases h
      exact .free (.refl s) rfl ⟨rfl, rfl⟩
    · cases h
      refine .pass (.refl s) rfl rfl fun b' hb' => ?_
      cases hb'
      exact Bool.not_eq_true _ ▸ hstopped
  | notifying b =>
    cases h
    exact .notify rfl
  | reloading =>
    cases h
    split_ifs with hrow
    · exact .begin rfl rfl (Or.inr ⟨Or.inr rfl, hrow⟩)
    · exact .free (.refl s) rfl (Call.fails_free _)
  | looking why =>
    dsimp only [callStep] at h
    split at h
    · next hregistered =>
      cases h
      exact .absent rfl hregistered
    · next k hregistered =>
      cases h
      exact .found rfl hregistered
  | stopping why k =>
    dsimp only [callStep] at h
    split_ifs at h
    · cases h
      exact .stop rfl
    · cases why with
      | fatal b => cases h
      | restart | delete =>
        cases h
        exact .quit (.refl s) rfl (Or.inl ⟨_, k, rfl⟩)
  | unregistering why =>
    cases h
    exact .unregister rfl
  | deleting =>
    cases h
    exact .delete rfl
  | building =>
    dsimp only [callStep] at h
    split_ifs at h
    · cases h
      exact .build ⟨rfl, rfl, rfl, rfl⟩ (Or.inl rfl) (Or.inl ⟨_, rfl⟩)
    · cases h
      exact .quit ⟨Option.isSome_map, rfl, rfl, rfl⟩ rfl (Or.inr (Or.inl rfl))
  | built b =>
    cases h
    exact .build (s.same_mark _) (Or.inr ⟨b, rfl⟩) (Or.inr ⟨b, rfl⟩)
  | starting b =>
    dsimp only [callStep] at h
    split at h
    · next k hregistered =>
      cases h
      exact .quit (.refl s) rfl (Or.inr (Or.inr ⟨b, rfl, Or.inl (by rw [hregistered]; rfl)⟩))
    · next hregistered =>
      split_ifs at h with hok
      · cases h
        exact .start rfl hregistered hok
      · cases h
        exact .quit (s.same_mark _) rfl (Or.inr (Or.inr ⟨b, rfl, Or.inr (Bool.not_eq_true _ ▸ hok)⟩))
  | marking =>
    cases h
    exact .free (s.same_mark _) rfl ⟨rfl, rfl⟩
  | reading =>
    cases h
    exact .free (.refl s) rfl (.ite (.ite ⟨rfl, rfl⟩ ⟨rfl, rfl⟩) ⟨rfl, rfl⟩)
  | claiming =>
    dsimp only [callStep] at h
    split_ifs at h
    · cases h
      exact .free (.refl s) rfl ⟨rfl, rfl⟩
    · cases h
      exact .free ⟨rfl, rfl, rfl, rfl⟩ rfl ⟨rfl, rfl⟩
  | releasing =>
    cases h
    exact .free ⟨rfl, rfl, rfl, rfl⟩ rfl ⟨rfl, rfl⟩
  | done => cases h

/-! ## One call -/

/-- Every live flow is registered, and the row is there. -/
def Shared.Good (s : Shared) : Prop := ∀ k, s.live k = true → s.registered = some k ∧ s.row.isSome = true

theorem Shared.Good.congr (hrow : s'.row.isSome = s.row.isSome)
    (hregistered : s'.registered = s.registered) (hflows : s'.flows = s.flows) (h : s.Good) : s'.Good := by
  intro k hk
  rw [Shared.live_congr hflows] at hk
  rw [hrow, hregistered]
  exact h k hk

theorem Shared.Good.idle_of_none (h : s.Good) (hnone : s.registered = none) : s.idle = true := by
  rw [Shared.idle_iff]
  intro k
  by_contra hk
  have hregistered := (h k (Bool.not_eq_false _ ▸ hk)).1
  rw [hnone] at hregistered
  cases hregistered

theorem Shared.good_of_idle (h : s.idle = true) : s.Good := by
  intro k hk
  rw [Shared.idle_iff.1 h k] at hk
  cases hk

/-- What a call relies on: the row that it has read, the flow that it has found, and that it has left
nothing running. -/
def Point.Assumes (s : Shared) : Point → Prop
  | .looking why => why = .restart → s.row.isSome = true
  | .stopping why k => s.registered = some k ∧ (why = .restart → s.row.isSome = true)
  | .unregistering why => s.idle = true ∧ (why = .restart → s.row.isSome = true)
  | .deleting => s.idle = true
  | .building | .built _ | .starting _ => s.row.isSome = true
  | _ => True

theorem Point.assumes_of_not_critical {p : Point} (h : p.critical = false) (s : Shared) : p.Assumes s := by
  cases p <;> trivial

theorem Point.Assumes.same {p : Point} (hs : s.Same s') (h : p.Assumes s) : p.Assumes s' := by
  have hidle : s'.idle = s.idle := by rw [Shared.idle, Shared.idle, hs.flows]
  cases p with
  | looking why =>
    rw [Point.Assumes, hs.row]
    exact h
  | stopping why k =>
    rw [Point.Assumes, hs.row, hs.registered]
    exact h
  | unregistering why =>
    rw [Point.Assumes, hs.row, hidle]
    exact h
  | deleting =>
    rw [Point.Assumes, hidle]
    exact h
  | building | built | starting =>
    rw [Point.Assumes, hs.row]
    exact h
  | _ => trivial

/-- A call on its own does what it should. -/
theorem Goes.good (h : Goes s c ok s' c') (hgood : s.Good)
    (hc : c.point.Assumes s) : s'.Good ∧ c'.point.Assumes s' := by
  cases h with
  | pass hs _ hc' _ => exact ⟨hgood.congr hs.row hs.registered hs.flows, Point.assumes_of_not_critical hc' _⟩
  | insert hpoint hrow =>
    refine ⟨fun k hk => ⟨(hgood k hk).1, rfl⟩, rfl⟩
  | begin _ _ hp =>
    refine ⟨hgood, ?_⟩
    rcases hp with rfl | ⟨rfl | rfl, hrow⟩
    · exact nofun
    · exact hrow
    · exact fun _ => hrow
  | notify hpoint =>
    refine ⟨hgood.congr (s.same_mark _).row rfl rfl, nofun⟩
  | absent hpoint hnone =>
    rw [hpoint] at hc
    exact ⟨hgood, hgood.idle_of_none hnone, hc⟩
  | found hpoint hsome =>
    rw [hpoint] at hc
    exact ⟨hgood, hsome, hc⟩
  | @stop why k hpoint =>
    rw [hpoint] at hc
    -- the flow that was found is the only one that can be live
    have hidle : (s.stop k).idle = true := by
      rw [Shared.idle_iff]
      intro j
      by_contra hj
      obtain ⟨hj, hne⟩ := (s.live_stop k j).1 (Bool.not_eq_false _ ▸ hj)
      have hregistered := (hgood j hj).1
      rw [hc.1] at hregistered
      cases hregistered
      exact hne rfl
    have hidle' : ((s.stop k).logs why .stops (some k)).idle = true := by
      rw [Shared.idle, Shared.flows_logs]
      exact hidle
    refine ⟨Shared.good_of_idle hidle', hidle', ?_⟩
    rw [Shared.row_logs]
    exact hc.2
  | @unregister why hpoint =>
    rw [hpoint] at hc
    have hidle : (({ s with registered := none } : Shared).logs why .unregisters s.registered).idle =
        true := by
      rw [Shared.idle, Shared.flows_logs]
      exact hc.1
    refine ⟨Shared.good_of_idle hidle, ?_⟩
    cases why with
    | restart => exact hc.2 rfl
    | delete => exact hidle
    | fatal b => trivial
  | delete hpoint =>
    rw [hpoint] at hc
    exact ⟨Shared.good_of_idle hc, trivial⟩
  | build hs hpoint hp =>
    have hrow : s.row.isSome = true := by
      rcases hpoint with hpoint | ⟨b, hpoint⟩
      · rwa [hpoint] at hc
      · rwa [hpoint] at hc
    refine ⟨hgood.congr hs.row hs.registered hs.flows, ?_⟩
    rw [← hs.row] at hrow
    rcases hp with ⟨b, rfl⟩ | ⟨b, rfl⟩
    · exact hrow
    · exact hrow
  | start hpoint hnone _ =>
    rw [hpoint] at hc
    refine ⟨fun k hk => ?_, trivial⟩
    rcases (s.live_start _ k).1 hk with hk | rfl
    · rw [Shared.idle_iff.1 (hgood.idle_of_none hnone) k] at hk
      cases hk
    · exact ⟨rfl, hc⟩
  | quit hs _ _ =>
    exact ⟨hgood.congr hs.row hs.registered hs.flows, Point.assumes_of_not_critical c.fails_free.1 _⟩

/-- Outside of its critical points a call leaves alone what the others rely on. -/
theorem Goes.same (h : Goes s c ok s' c')
    (hc : c.point.critical = false) (hc' : c'.point.critical = false) : s.Same s' := by
  cases h with
  | pass hs _ _ _ => exact hs
  | insert _ _ => cases hc'
  | begin _ _ hp => rcases hp with rfl | ⟨rfl | rfl, _⟩ <;> cases hc'
  | notify _ => cases hc'
  | absent hpoint _ | found hpoint _ | stop hpoint | unregister hpoint | delete hpoint | start hpoint =>
    rw [hpoint] at hc
    cases hc
  | build _ hpoint _ =>
    rcases hpoint with hpoint | ⟨b, hpoint⟩ <;>
    · rw [hpoint] at hc
      cases hc
  | quit hs _ _ => exact hs

/-! ## Calls at the same time -/

namespace Instance

/-- At most one call is at a critical point. -/
def Exclusive (i : Instance) : Prop :=
  i.calls.Pairwise fun c d => (c.point.critical && d.point.critical) = false

instance (i : Instance) : Decidable i.Exclusive := inferInstanceAs (Decidable (List.Pairwise _ _))

theorem Exclusive.not_critical {i : Instance} (h : i.Exclusive) {m n : Nat} {d : Call} (hne : m ≠ n)
    (hm : i.calls[m]? = some c) (hn : i.calls[n]? = some d) (hc : c.point.critical = true) :
    d.point.critical = false := by
  obtain ⟨hmlt, rfl⟩ := List.getElem?_eq_some_iff.1 hm
  obtain ⟨hnlt, rfl⟩ := List.getElem?_eq_some_iff.1 hn
  have hpair := List.pairwise_iff_getElem.1 h
  rcases Nat.lt_or_gt_of_ne hne with hlt | hlt
  · have := hpair m n hmlt hnlt hlt
    rwa [hc, Bool.true_and] at this
  · have := hpair n m hnlt hmlt hlt
    rwa [hc, Bool.and_true] at this

/-- A live flow is registered and has its row. -/
def Good (i : Instance) : Prop := i.shared.Good

/-- What every step keeps under exclusion. -/
structure Sound (i : Instance) : Prop where
  good : i.Good
  assumes : ∀ c ∈ i.calls, c.point.Assumes i.shared

theorem good_init (row : Option DurableFlow) (requests : List Request) : (init row requests).Good :=
  Shared.good_of_idle rfl

theorem entry_not_critical (r : Request) : r.entry.critical = false := by
  cases r <;> rfl

theorem sound_init (row : Option DurableFlow) (requests : List Request) : (init row requests).Sound := by
  refine ⟨good_init row requests, fun c hc => ?_⟩
  obtain ⟨r, -, rfl⟩ := List.mem_map.1 hc
  exact Point.assumes_of_not_critical (entry_not_critical r) _

theorem sound_step {i i' : Instance} {a : Act} (hbefore : i.Exclusive) (hafter : i'.Exclusive)
    (h : i.Sound) (hstep : i.step a = some i') : i'.Sound := by
  obtain ⟨c, s', c', hc, hcall, rfl⟩ := step_eq_some hstep
  have hgoes := goes_of_callStep hcall
  obtain ⟨hgood, hc'⟩ := hgoes.good h.good (h.assumes c (List.mem_of_getElem? hc))
  have hlt : a.call < i.calls.length := (List.getElem?_eq_some_iff.1 hc).1
  refine ⟨hgood, fun d hd => ?_⟩
  obtain ⟨m, hm⟩ := List.mem_iff_getElem?.1 hd
  by_cases hmn : a.call = m
  · subst hmn
    rw [List.getElem?_set_self hlt] at hm
    cases hm
    exact hc'
  · have hd' := hm
    rw [List.getElem?_set_ne hmn] at hd'
    cases hcritical : d.point.critical with
    | false => exact Point.assumes_of_not_critical hcritical _
    | true =>
      -- the other call is the critical one, before the step and after it
      have hout := hbefore.not_critical (Ne.symm hmn) hd' hc hcritical
      have hout' := hafter.not_critical (Ne.symm hmn) hm (List.getElem?_set_self hlt) hcritical
      exact (h.assumes d (List.mem_of_getElem? hd')).same (hgoes.same hout hout')

end Instance

/-! ## Which steps do harm -/

/-- The steps that keep every live flow registered and its row stored: `UnregisterFlow` does not find a
live flow, the row is not deleted while there is one, and none is started without the row. -/
def keeps (s : Shared) (c : Call) (ok : Bool) : Bool :=
  match c.point with
  | .unregistering _ => s.registered.all fun k => !s.live k
  | .deleting => s.idle
  | .starting _ => s.registered.isSome || !ok || s.row.isSome
  | _ => true

theorem keeps_of_not_critical (h : c.point.critical = false) (s : Shared) (ok : Bool) :
    keeps s c ok = true := by
  obtain ⟨point, looping⟩ := c
  cases point <;> trivial

theorem Shared.good_unregistered (hgood : s.Good) (hflows : s'.flows = s.flows)
    (hnone : s'.registered = none) : s'.Good ↔ (s.registered.all fun k => !s.live k) = true := by
  constructor
  · intro hgood'
    have hidle := Shared.idle_iff.1 (hgood'.idle_of_none hnone)
    rw [Option.all_eq_true]
    intro k _
    rw [← Shared.live_congr hflows, hidle k]
    rfl
  · intro hall k hk
    rw [Shared.live_congr hflows] at hk
    rw [(hgood k hk).1, Option.all_some, hk] at hall
    cases hall

theorem Goes.good_iff (h : Goes s c ok s' c') (hgood : s.Good) : s'.Good ↔ keeps s c ok = true := by
  cases h with
  | pass hs hc _ _ =>
    exact iff_of_true (hgood.congr hs.row hs.registered hs.flows) (keeps_of_not_critical hc s ok)
  | insert hpoint _ =>
    refine iff_of_true (fun k hk => ⟨(hgood k hk).1, rfl⟩) ?_
    rw [keeps, hpoint]
  | begin hc _ _ => exact iff_of_true hgood (keeps_of_not_critical hc s ok)
  | notify hpoint =>
    refine iff_of_true (hgood.congr (s.same_mark _).row rfl rfl) ?_
    rw [keeps, hpoint]
  | absent hpoint _ | found hpoint _ =>
    refine iff_of_true hgood ?_
    rw [keeps, hpoint]
  | @stop why k hpoint =>
    rw [keeps, hpoint]
    refine iff_of_true (fun j hj => ?_) rfl
    rw [Shared.live_congr (Shared.flows_logs _ _ _ _), Shared.live_stop] at hj
    rw [Shared.registered_logs, Shared.row_logs]
    exact hgood j hj.1
  | unregister hpoint =>
    rw [keeps, hpoint]
    exact Shared.good_unregistered hgood (Shared.flows_logs _ _ _ _) (Shared.registered_logs _ _ _ _)
  | delete hpoint =>
    rw [keeps, hpoint]
    constructor
    · intro hgood'
      rw [Shared.idle_iff]
      intro k
      by_contra hk
      cases (hgood' k (Bool.not_eq_false _ ▸ hk)).2
    · intro hidle
      exact Shared.good_of_idle hidle
  | build hs hpoint _ =>
    refine iff_of_true (hgood.congr hs.row hs.registered hs.flows) ?_
    rcases hpoint with hpoint | ⟨b, hpoint⟩
    · rw [keeps, hpoint]
    · rw [keeps, hpoint]
  | @start b hpoint hnone hok =>
    have hidle := Shared.idle_iff.1 (hgood.idle_of_none hnone)
    rw [keeps, hpoint, hnone, hok]
    constructor
    · intro hgood'
      exact (hgood' s.flows.length ((s.live_start b _).2 (Or.inr rfl))).2
    · intro hrow k hk
      rcases (s.live_start b k).1 hk with hk | rfl
      · rw [hidle k] at hk
        cases hk
      · exact ⟨rfl, hrow⟩
  | quit hs _ hp =>
    refine iff_of_true (hgood.congr hs.row hs.registered hs.flows) ?_
    rcases hp with ⟨why, k, hpoint⟩ | hpoint | ⟨b, hpoint, hfails⟩
    · rw [keeps, hpoint]
    · rw [keeps, hpoint]
    · rw [keeps, hpoint]
      rcases hfails with hregistered | rfl
      · rw [hregistered]
        rfl
      · simp

namespace Instance

/-- The step is not a harmful one. -/
def Keeps (i : Instance) (a : Act) : Prop := ((i.calls[a.call]?).all (keeps i.shared · a.ok)) = true

instance (i : Instance) (a : Act) : Decidable (i.Keeps a) := inferInstanceAs (Decidable (_ = true))

theorem good_iff_keeps {i i' : Instance} {a : Act} (hgood : i.Good) (hstep : i.step a = some i') :
    i'.Good ↔ i.Keeps a := by
  obtain ⟨c, s', c', hc, hcall, rfl⟩ := step_eq_some hstep
  rw [Keeps, hc, Option.all_some]
  exact (goes_of_callStep hcall).good_iff hgood

/-- What should hold of an instance: there is at most one live flow, it is registered, and it has a row
once all calls have returned. -/
structure Consistent (i : Instance) : Prop where
  one : ∀ j k, i.shared.live j = true → i.shared.live k = true → j = k
  registered : ∀ k, i.shared.live k = true → i.shared.registered = some k
  row : (∀ c ∈ i.calls, c.point = .done) → ∀ k, i.shared.live k = true → i.shared.row.isSome = true

theorem Good.consistent {i : Instance} (h : i.Good) : i.Consistent where
  one j k hj hk := Option.some.inj ((h j hj).1.symm.trans (h k hk).1)
  registered k hk := (h k hk).1
  row _ k hk := (h k hk).2

/-- **The life of an instance.** For every set of calls and every order of their steps: the row is there
and the map has the flow whenever a flow is live, exactly if no step of the run is one of the harmful
ones; this is so if no two calls are ever at critical points at the same time; and it makes all states
of the run consistent. It is more than consistency, which asks for the row only when all calls have
returned. -/
theorem instance_lifecycle (row : Option DurableFlow) (requests : List Request) (acts : List Act)
    (i : Instance) (hrun : exec step (init row requests) acts = some i) :
    (Always step Good (init row requests) acts ↔ Throughout step Keeps (init row requests) acts) ∧
    (Always step Exclusive (init row requests) acts → Always step Good (init row requests) acts) ∧
    (Always step Good (init row requests) acts → Always step Consistent (init row requests) acts) := by
  refine ⟨?_, fun hexclusive => ?_, Always.mono fun i => Good.consistent⟩
  · apply always_iff_throughout (I := fun _ => True) (fun _ _ _ _ _ _ => trivial)
      (fun i a _ i' _ hgood hstep => good_iff_keeps hgood hstep) trivial (good_init row requests) hrun
  · apply Always.mono (fun i => Sound.good)
    exact hexclusive.invariant (fun i a i' h h' hsound hstep => sound_step h h' hsound hstep)
      (sound_init row requests)

/-- A create and then a reload, each from its first step to its last. -/
def inTurn : List Act :=
  List.replicate 6 ⟨0, true⟩ ++ List.replicate 9 ⟨1, true⟩

theorem instance_lifecycle_inTurn :
    Always step Exclusive (init none [.create true, .reload]) inTurn ∧
    Always step Consistent (init none [.create true, .reload]) inTurn ∧
    (exec step (init none [.create true, .reload]) inTurn).isSome = true := by
  obtain ⟨-, hexclusive, hconsistent⟩ := instance_lifecycle none [.create true, .reload] inTurn
    ((exec step (init none [.create true, .reload]) inTurn).get (by decide)) (by simp)
  exact ⟨by decide, hconsistent (hexclusive (by decide)), by decide⟩

/-- Two reloads of a running flow. The first has stopped it when the second stops, unregisters and starts
the flow; now the first unregisters the new flow, and starts another one. -/
def twoReloads : List Act :=
  List.replicate 6 ⟨0, true⟩ ++ List.replicate 3 ⟨1, true⟩ ++ List.replicate 9 ⟨2, true⟩ ++
    List.replicate 6 ⟨1, true⟩

/-- A reload has stopped and unregistered the flow when it is deleted. -/
def reloadAndDelete : List Act :=
  List.replicate 6 ⟨0, true⟩ ++ List.replicate 4 ⟨1, true⟩ ++ List.replicate 4 ⟨2, true⟩ ++
    List.replicate 5 ⟨1, true⟩

/-- After two reloads at the same time two flows are live, and the map has one of them. After a reload and
a deletion at the same time a flow is live without a row. -/
theorem instance_not_consistent :
    (∃ i, exec step (init none [.create true, .reload, .reload]) twoReloads = some i ∧
      i.shared.live 1 = true ∧ i.shared.live 2 = true ∧ i.shared.registered = some 2 ∧
      ∀ c ∈ i.calls, c.point = .done) ∧
    ∃ i, exec step (init none [.create true, .reload, .delete]) reloadAndDelete = some i ∧
      i.shared.live 1 = true ∧ i.shared.row = none ∧ ∀ c ∈ i.calls, c.point = .done := by
  refine ⟨⟨_, rfl, by decide⟩, ⟨_, rfl, by decide⟩⟩

end Instance

end Astrate.FlowApi.Lifecycle
