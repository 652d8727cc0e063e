import Astrate.Flow.Graph
import Astrate.Flow.Pipeline

/-!
# Building blocks

`Registry` and `Instantiate` of `internal/flow/factory.go`. The blocks of a pipeline are constructed in
topological order; blocks can hold resources from then on, which `Stop` releases. A `Build` keeps the
blocks that a call has constructed and those it has stopped, next to what it returns, so that exits can
be compared by what they leave behind.

An exit over a constructor that fails stops all blocks so far; an exit over a type that is empty or
unknown stops none (`Exit`).
-/

set_option autoImplicit false

namespace Astrate.Flow

open Astrate.GoLib

/-- A constructor gets the name and the configuration of a node and the dependencies, and returns a
block, which may be nil, or an error. -/
abbrev Constructor (δ : Type) := Bytes → Config → δ → Except FmtError (Option Block)

/-- The constructors by type. -/
structure Registry (δ : Type) where
  ctors : List (Bytes × Constructor δ)

variable {δ : Type}

/-- A type is registered. -/
def Registry.has (r : Registry δ) (blockType : Bytes) : Bool := (r.ctors.lookup blockType).isSome

/-- The registered types, sorted. -/
def Registry.types (r : Registry δ) : List Bytes :=
  (r.ctors.foldl (fun types e => SortedMap.insertEntry e.1 () types) []).map Prod.fst

/-- What a call has done with blocks, and what it returned. -/
structure Build (ε α : Type) where
  constructed : List Block
  stopped : List Block
  result : Except ε α

/-- Every block that the call constructed and that has to be stopped has been. -/
def Build.NoLeak {ε α : Type} (b : Build ε α) : Prop :=
  ∀ x ∈ b.constructed, x.stopper = true → x ∈ b.stopped

/-- The call has constructed no block that has to be stopped. -/
def Build.NoStopper {ε α : Type} (b : Build ε α) : Prop := ∀ x ∈ b.constructed, x.stopper = false

/-- The blocks whose `Stop` is called. -/
def stopAll (blocks : List Block) : List Block := blocks.filter (·.stopper)

/-- The value of `byName[name]`. -/
def nodeNamed (p : Pipeline) (name : Bytes) : PipelineNode :=
  (p.blocks.reverse.find? fun n => n.name == name).getD {}

/-- The loop of `Instantiate`, with the blocks so far. -/
def instantiateLoop (r : Registry δ) (p : Pipeline) (deps : δ) :
    List Bytes → List Block → Build FmtError (List Block)
  | [], out => ⟨out, [], .ok out⟩
  | name :: order, out =>
    let node := nodeNamed p name
    if node.blockType.isEmpty then
      ⟨out, [], errorf "flow: pipeline %q block %q has empty block_type" [.str p.id, .str name]⟩
    else
      match r.ctors.lookup node.blockType with
      | none =>
        ⟨out, [], errorf "flow: unknown block type: %q (block %q)" [.str node.blockType, .str name]⟩
      | some ctor =>
        match ctor name node.config deps with
        | .error _ =>
          ⟨out, stopAll out, errorf "flow: construct %q (%s): %w" [.str name, .str node.blockType, .err]⟩
        | .ok none =>
          ⟨out, stopAll out,
            errorf "flow: construct %q (%s) returned nil block" [.str name, .str node.blockType]⟩
        | .ok (some b) => instantiateLoop r p deps order (out ++ [b])

/-- `Instantiate` of a pipeline that is not nil. -/
def instantiate (r : Registry δ) (p : Pipeline) (deps : δ) : Build FmtError (List Block) :=
  match p.validate with
  | .error e => ⟨[], [], .error e⟩
  | .ok _ =>
    match p.topoOrder with
    | .error e => ⟨[], [], .error e⟩
    | .ok order => instantiateLoop r p deps order []

/-! ## What is left behind -/

/-- The type of a node is empty, or not registered. -/
def Registry.refuses (r : Registry δ) (p : Pipeline) (name : Bytes) : Bool :=
  (nodeNamed p name).blockType.isEmpty || !r.has (nodeNamed p name).blockType

/-- The block that is made of a node, if its type is registered and its constructor returns one. -/
def Registry.block (r : Registry δ) (p : Pipeline) (deps : δ) (name : Bytes) : Option Block :=
  if r.refuses p name then none
  else (r.ctors.lookup (nodeNamed p name).blockType).bind fun ctor =>
    (ctor name (nodeNamed p name).config deps).toOption.join

/-- Blocks are made of all these nodes, and one of them, or of the blocks so far, has to be stopped. -/
def Registry.HoldsStopper (r : Registry δ) (p : Pipeline) (deps : δ) (out : List Block)
    (names : List Bytes) : Prop :=
  (∀ n ∈ names, (r.block p deps n).isSome = true) ∧
    ((∃ b ∈ out, b.stopper = true) ∨ ∃ n ∈ names, ∃ b, r.block p deps n = some b ∧ b.stopper = true)

/-- In this order such nodes are followed by one of an empty or unregistered type. -/
def Registry.Strands (r : Registry δ) (p : Pipeline) (deps : δ) (out : List Block) (order : List Bytes) : Prop :=
  ∃ before name after, order = before ++ name :: after ∧ r.HoldsStopper p deps out before ∧ r.refuses p name = true

theorem noStopper_iff_of_none_stopped {ε α : Type} {b : Build ε α} (h : b.stopped = []) :
    b.NoLeak ↔ b.NoStopper := by
  constructor
  · intro hleak x hx
    cases hstopper : x.stopper with
    | false => rfl
    | true =>
      have hmem := hleak x hx hstopper
      rw [h] at hmem
      cases hmem
  · intro hnone x hx hstopper
    rw [hnone x hx] at hstopper
    cases hstopper

theorem noLeak_stopAll {ε α : Type} (blocks : List Block) (result : Except ε α) :
    (Build.mk blocks (stopAll blocks) result).NoLeak :=
  fun _ hx hstopper => List.mem_filter.2 ⟨hx, hstopper⟩

/-- How the loop ends: behind the last node, over a type, or over a constructor. -/
inductive Exit (r : Registry δ) (p : Pipeline) (deps : δ) :
    List Bytes → List Block → Build FmtError (List Block) → Prop where
  | done (out : List Block) : Exit r p deps [] out ⟨out, [], .ok out⟩
  | refused {name order out} (e : FmtError) (h : r.refuses p name = true) :
      Exit r p deps (name :: order) out ⟨out, [], .error e⟩
  | failed {name order out} (e : FmtError) (h : r.refuses p name = false) (hblock : r.block p deps name = none) :
      Exit r p deps (name :: order) out ⟨out, stopAll out, .error e⟩
  | next {name order out b build} (hblock : r.block p deps name = some b)
      (h : Exit r p deps order (out ++ [b]) build) : Exit r p deps (name :: order) out build

variable {r : Registry δ} {p : Pipeline} {deps : δ} {order : List Bytes} {out : List Block}
  {build : Build FmtError (List Block)}

theorem exit_instantiateLoop (r : Registry δ) (p : Pipeline) (deps : δ) (order : List Bytes) (out : List Block) :
    Exit r p deps order out (instantiateLoop r p deps order out) := by
  induction order generalizing out with
  | nil => exact .done out
  | cons name order ih =>
    rw [instantiateLoop]
    split_ifs with hempty
    · exact .refused _ (by simp [Registry.refuses, hempty])
    · cases hctor : r.ctors.lookup (nodeNamed p name).blockType with
      | none => exact .refused _ (by simp [Registry.refuses, Registry.has, hctor])
      | some ctor =>
        have hknown : r.refuses p name = false := by simp [Registry.refuses, Registry.has, hctor, hempty]
        have hblock : r.block p deps name = (ctor name (nodeNamed p name).config deps).toOption.join := by
          simp [Registry.block, hknown, hctor]
        dsimp only
        cases hmade : ctor name (nodeNamed p name).config deps with
        | error e => exact .failed _ hknown (by rw [hblock, hmade]; rfl)
        | ok found =>
          cases found with
          | none => exact .failed _ hknown (by rw [hblock, hmade]; rfl)
          | some b => exact .next (by rw [hblock, hmade]; rfl) (ih (out ++ [b]))

theorem holdsStopper_cons {name : Bytes} {names : List Bytes} {b : Block} (h : r.block p deps name = some b) :
    r.HoldsStopper p deps out (name :: names) ↔ r.HoldsStopper p deps (out ++ [b]) names := by
  simp [Registry.HoldsStopper, h, or_and_right, exists_or, or_assoc]

theorem strands_cons {name : Bytes} :
    r.Strands p deps out (name :: order) ↔ (∃ b ∈ out, b.stopper = true) ∧ r.refuses p name = true ∨
      ∃ b, r.block p deps name = some b ∧ r.Strands p deps (out ++ [b]) order := by
  constructor
  · rintro ⟨before, name', after, heq, hholds, hrefuses⟩
    cases before with
    | nil =>
      cases heq
      exact .inl ⟨by simpa [Registry.HoldsStopper] using hholds, hrefuses⟩
    | cons n before =>
      cases heq
      obtain ⟨b, hb⟩ := Option.isSome_iff_exists.1 (hholds.1 _ List.mem_cons_self)
      exact .inr ⟨b, hb, before, name', after, rfl, (holdsStopper_cons hb).1 hholds, hrefuses⟩
  · rintro (⟨hstopper, hrefuses⟩ | ⟨b, hb, before, name', after, rfl, hholds, hrefuses⟩)
    · exact ⟨[], name, order, rfl, by simpa [Registry.HoldsStopper] using hstopper, hrefuses⟩
    · exact ⟨name :: before, name', after, rfl, (holdsStopper_cons hb).2 hholds, hrefuses⟩

/-- An exit with an error leaks exactly if it is over a type and there are blocks to stop; not all nodes have
become blocks. -/
theorem Exit.noLeak_iff (h : Exit r p deps order out build) {e : FmtError} (he : build.result = .error e) :
    (build.NoLeak ↔ ¬ r.Strands p deps out order) ∧ ¬ r.HoldsStopper p deps out order := by
  induction h with
  | done out => cases he
  | @refused name order out e' hrefuses =>
    have hnone : r.block p deps name = none := if_pos hrefuses
    rw [noStopper_iff_of_none_stopped rfl, strands_cons]
    simp [hrefuses, hnone, Build.NoStopper, Registry.HoldsStopper]
  | @failed name order out e' hknown hnone =>
    refine ⟨iff_of_true (noLeak_stopAll out _) ?_, by simp [Registry.HoldsStopper, hnone]⟩
    simp [strands_cons, hknown, hnone]
  | @next name order out b build hb _ ih =>
    have hknown : r.refuses p name ≠ true := fun hrefuses => by simp [Registry.block, hrefuses] at hb
    rw [(ih he).1, strands_cons, holdsStopper_cons hb]
    exact ⟨by simp [hknown, hb], (ih he).2⟩

/-- Without an error nothing has been stopped, and blocks were made of all nodes. -/
theorem Exit.built (h : Exit r p deps order out build) {bs : List Block} (hbs : build.result = .ok bs) :
    build.stopped = [] ∧ build.constructed = bs ∧ ¬ r.Strands p deps out order ∧
      (build.NoStopper ↔ ¬ r.HoldsStopper p deps out order) := by
  induction h with
  | done out =>
    cases hbs
    exact ⟨rfl, rfl, fun ⟨_, _, _, heq, _⟩ => by simp at heq, by simp [Build.NoStopper, Registry.HoldsStopper]⟩
  | refused e h => cases hbs
  | failed e h hblock => cases hbs
  | @next name order out b build hb _ ih =>
    have hknown : r.refuses p name ≠ true := fun hrefuses => by simp [Registry.block, hrefuses] at hb
    obtain ⟨hstopped, hbuilt, hstrands, hholds⟩ := ih hbs
    rw [strands_cons, holdsStopper_cons hb]
    exact ⟨hstopped, hbuilt, by simpa [hknown, hb] using hstrands, hholds⟩

/-- The order in which the blocks of a valid pipeline are made. -/
def Pipeline.buildOrder (p : Pipeline) : List Bytes :=
  match p.validate with
  | .error _ => []
  | .ok _ => p.topoOrder.toOption.getD []

theorem noLeak_of_nothing {ε α : Type} (e : ε) : (⟨[], [], .error e⟩ : Build ε α).NoLeak :=
  fun _ hx => absurd hx List.not_mem_nil

theorem instantiate_exit (r : Registry δ) (p : Pipeline) (deps : δ) :
    Exit r p deps p.buildOrder [] (instantiate r p deps) ∨
      p.buildOrder = [] ∧ ∃ e, instantiate r p deps = ⟨[], [], .error e⟩ := by
  rw [instantiate, Pipeline.buildOrder]
  cases p.validate with
  | error e => exact .inr ⟨rfl, e, rfl⟩
  | ok u =>
    cases p.topoOrder with
    | error e => exact .inr ⟨rfl, e, rfl⟩
    | ok order => exact .inl (exit_instantiateLoop r p deps order [])

/-- An `Instantiate` that fails leaks exactly if a type is empty or unknown behind a block to stop. -/
theorem instantiate_noLeak_iff {e : FmtError} (he : (instantiate r p deps).result = .error e) :
    ((instantiate r p deps).NoLeak ↔ ¬ r.Strands p deps [] p.buildOrder) ∧
      ¬ r.HoldsStopper p deps [] p.buildOrder := by
  rcases instantiate_exit r p deps with h | ⟨hnil, e', heq⟩
  · exact h.noLeak_iff he
  · rw [heq, hnil]
    exact ⟨iff_of_true (noLeak_of_nothing e') fun ⟨_, _, _, h, _⟩ => by simp at h,
      by simp [Registry.HoldsStopper]⟩

theorem instantiate_built {bs : List Block} (hbs : (instantiate r p deps).result = .ok bs) :
    (instantiate r p deps).stopped = [] ∧ (instantiate r p deps).constructed = bs ∧
      ¬ r.Strands p deps [] p.buildOrder ∧
      ((instantiate r p deps).NoStopper ↔ ¬ r.HoldsStopper p deps [] p.buildOrder) := by
  rcases instantiate_exit r p deps with h | ⟨-, e, heq⟩
  · exact h.built hbs
  · rw [heq] at hbs
    cases hbs

end Astrate.Flow
