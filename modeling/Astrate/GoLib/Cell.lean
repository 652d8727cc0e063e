import Astrate.GoLib.Map
import Astrate.GoLib.Schedule

/-!
# A cached object in front of a row

An object is loaded from a row when the first message needs it, is kept in a cache, and is changed by the
messages together with the row. The cache can be emptied at any moment, also while a message is handled: the
message goes on with the object it has, and the next one loads a new object. Objects are therefore numbered as
they are allocated, and the cache and the message hold numbers.

What a message finds in its object is right as long as an object could be loaded anew wherever the cache is
emptied (`Cell.kept_exec`).
-/

set_option autoImplicit false

namespace Astrate.GoLib

/-- How messages are handled: which are let in, the object that is loaded from a row, and what a message makes of
its object and of the row, with a record of it. -/
structure Handler (ρ ο μ ε : Type) where
  accept : μ → Bool
  load : ρ → ο
  handle : μ → ο → ρ → ο × ρ × ε

/-- A row, the objects that were loaded from it, the one in the cache, and the message that is being handled with
its object. `done` are the records of the messages handled. -/
structure Cell (ρ ο μ ε : Type) where
  row : ρ
  objects : List ο := []
  cached : Option Nat := none
  current : Option (μ × Nat) := none
  done : List ε := []
  deriving DecidableEq

/-- What happens to a cell. -/
inductive CellAction (μ : Type) where
  /-- A message arrives and gets its object. -/
  | begin (m : μ)
  | finish
  /-- The message is given up and has no effect. -/
  | abort
  | evict
  deriving DecidableEq

namespace Cell

variable {ρ ο μ ε : Type} (h : Handler ρ ο μ ε)

/-- The object of the cache, loaded if there is none. -/
def get (s : Cell ρ ο μ ε) : Nat × Cell ρ ο μ ε :=
  match s.cached with
  | some i => (i, s)
  | none =>
    (s.objects.length, { s with objects := s.objects ++ [h.load s.row], cached := some s.objects.length })

/-- One step, if possible. -/
def step (s : Cell ρ ο μ ε) : CellAction μ → Option (Cell ρ ο μ ε)
  | .begin m =>
    if s.current.isSome then none
    else if h.accept m then some { (s.get h).2 with current := some (m, (s.get h).1) }
    else some s
  | .finish =>
    match s.current with
    | none => none
    | some (m, i) =>
      match s.objects[i]? with
      | none => none
      | some o =>
        some { s with
          row := (h.handle m o s.row).2.1
          objects := s.objects.set i (h.handle m o s.row).1
          current := none
          done := s.done ++ [(h.handle m o s.row).2.2] }
  | .abort => if s.current.isSome then some { s with current := none } else none
  | .evict => some { s with cached := none }

/-! ## What an object has to be -/

section Kept

variable (Good : List ε → ρ → ο → Prop) (Fine : μ → Prop)

/-- An object that is loaded now is good, and so is one that is loaded behind the current message. -/
structure Recoverable (s : Cell ρ ο μ ε) : Prop where
  now : Good s.done s.row (h.load s.row)
  next : ∀ m i o, s.current = some (m, i) → s.objects[i]? = some o →
    Good (s.done ++ [(h.handle m o s.row).2.2]) (h.handle m o s.row).2.1 (h.load (h.handle m o s.row).2.1)

/-- The messages that are let in are fine, and the cache is emptied only where an object can be loaded anew. -/
def Careful (s : Cell ρ ο μ ε) : CellAction μ → Prop
  | .begin m => h.accept m = true → Fine m
  | .evict => s.Recoverable h Good
  | _ => True

/-- What every step keeps. -/
structure Kept (s : Cell ρ ο μ ε) : Prop where
  cached : ∀ i, s.cached = some i → ∃ o, s.objects[i]? = some o ∧ Good s.done s.row o
  current : ∀ m i, s.current = some (m, i) →
    Fine m ∧ (∃ o, s.objects[i]? = some o ∧ Good s.done s.row o) ∧ ∀ j, s.cached = some j → j = i
  empty : s.cached = none → s.Recoverable h Good

variable {h Good Fine} {s s' : Cell ρ ο μ ε}

theorem kept_init {row : ρ} (hinit : Good [] row (h.load row)) :
    Kept h Good Fine ({ row := row } : Cell ρ ο μ ε) where
  cached := nofun
  current := nofun
  empty := fun _ => ⟨hinit, nofun⟩

section

variable (hs : Kept h Good Fine s)

include hs

/-- The object that a message gets is good. -/
theorem Kept.get :
    (s.get h).2.row = s.row ∧ (s.get h).2.done = s.done ∧ (s.get h).2.cached = some (s.get h).1 ∧
      ∃ o, (s.get h).2.objects[(s.get h).1]? = some o ∧ Good s.done s.row o := by
  rw [Cell.get]
  split
  · next i hi => exact ⟨rfl, rfl, hi, hs.cached i hi⟩
  · next hnone =>
    refine ⟨rfl, rfl, rfl, h.load s.row, ?_, (hs.empty hnone).now⟩
    exact List.getElem?_concat_length

theorem Kept.begin {m : μ} (hm : Fine m) :
    Kept h Good Fine { (s.get h).2 with current := some (m, (s.get h).1) } := by
  obtain ⟨hrow, hdone, hcached, o, ho, hgood⟩ := hs.get
  refine ⟨fun i hi => ⟨o, ?_, ?_⟩, fun m' i hm' => ?_, fun hnone => ?_⟩
  · cases hcached.symm.trans hi
    exact ho
  · rw [hrow, hdone]
    exact hgood
  · cases hm'
    refine ⟨hm, ⟨o, ho, ?_⟩, fun j hj => ?_⟩
    · rw [hrow, hdone]
      exact hgood
    · exact (Option.some.inj (hcached.symm.trans hj)).symm
  · cases hcached.symm.trans hnone

theorem Kept.finish
    (hhandle : ∀ done row o m, Fine m → Good done row o →
      Good (done ++ [(h.handle m o row).2.2]) (h.handle m o row).2.1 (h.handle m o row).1)
    {m : μ} {i : Nat} {o : ο} (hcurrent : s.current = some (m, i)) (ho : s.objects[i]? = some o) :
    Kept h Good Fine { s with
      row := (h.handle m o s.row).2.1
      objects := s.objects.set i (h.handle m o s.row).1
      current := none
      done := s.done ++ [(h.handle m o s.row).2.2] } := by
  obtain ⟨hfine, ⟨o', ho', hgood⟩, honly⟩ := hs.current m i hcurrent
  cases ho.symm.trans ho'
  have hlength : i < s.objects.length := (List.getElem?_eq_some_iff.1 ho).1
  refine ⟨fun j hj => ?_, fun _ _ hm => (by cases hm), fun hnone => ⟨?_, fun _ _ _ hm => (by cases hm)⟩⟩
  · -- the object in the cache, if there is one, is that of the message
    cases honly j hj
    exact ⟨_, List.getElem?_set_self hlength, hhandle s.done s.row o m hfine hgood⟩
  · exact (hs.empty hnone).next m i o hcurrent ho

theorem Kept.step
    (hhandle : ∀ done row o m, Fine m → Good done row o →
      Good (done ++ [(h.handle m o row).2.2]) (h.handle m o row).2.1 (h.handle m o row).1)
    {a : CellAction μ} (ha : s.Careful h Good Fine a) (hstep : s.step h a = some s') : Kept h Good Fine s' := by
  cases a with
  | begin m =>
    dsimp only [Cell.step] at hstep
    split_ifs at hstep with hbusy haccept
    · cases hstep
      exact hs.begin (ha haccept)
    · cases hstep
      exact hs
  | finish =>
    dsimp only [Cell.step] at hstep
    split at hstep
    · cases hstep
    · next m i hcurrent =>
      split at hstep
      · cases hstep
      · next o ho =>
        cases hstep
        exact hs.finish hhandle hcurrent ho
  | abort =>
    dsimp only [Cell.step] at hstep
    split_ifs at hstep
    cases hstep
    exact ⟨hs.cached, fun _ _ hm => (by cases hm), fun hnone => ⟨(hs.empty hnone).now,
      fun _ _ _ hm => (by cases hm)⟩⟩
  | evict =>
    cases hstep
    exact ⟨fun _ hi => (by cases hi), fun m i hm =>
      ⟨(hs.current m i hm).1, (hs.current m i hm).2.1, fun _ hj => (by cases hj)⟩, fun _ => ⟨ha.now, ha.next⟩⟩

theorem Kept.exists_good : ∃ o, Good s.done s.row o := by
  cases hcached : s.cached with
  | none => exact ⟨_, (hs.empty hcached).now⟩
  | some i =>
    obtain ⟨o, -, hgood⟩ := hs.cached i hcached
    exact ⟨o, hgood⟩

end

/-- The object in the cache is good at any time, and every message finds a good one. -/
theorem kept_exec {ok : Cell ρ ο μ ε → CellAction μ → Prop}
    (hhandle : ∀ done row o m, Fine m → Good done row o →
      Good (done ++ [(h.handle m o row).2.2]) (h.handle m o row).2.1 (h.handle m o row).1)
    (hcareful : ∀ s a, Kept h Good Fine s → ok s a → s.Careful h Good Fine a)
    {row : ρ} (hinit : Good [] row (h.load row)) {schedule : List (CellAction μ)}
    (hok : Throughout (Cell.step h) ok { row := row } schedule)
    (hrun : exec (Cell.step h) { row := row } schedule = some s) : Kept h Good Fine s :=
  exec_invariant (fun _ _ _ hs ha hstep => hs.step hhandle (hcareful _ _ hs ha) hstep) (kept_init hinit) hok hrun

end Kept

end Cell

end Astrate.GoLib
