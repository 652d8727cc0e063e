import Astrate.GoLib.Bytes

/-!
# Blocks and their graph

`internal/flow/block.go` and `internal/flow/graph.go`. A block is known by its identity, since the
program asks which values are one and the same block, and by the interfaces it implements; what its
`Process` returns is up to the block.

`BlockGraph.Run` is cut at the calls of `Process`: `GraphRun` is where a run stands, `advance` is what
it does up to the next call, and a call ends with what `Process` returns. So two runs of one graph can
be looked at while each is in the middle of a call.
-/

set_option autoImplicit false

namespace Astrate.Flow

open Astrate.GoLib

/-- A block: which instance it is, and whether it implements `Source` and `Stopper`. -/
structure Block where
  id : Nat
  name : Bytes
  source : Bool := false
  stopper : Bool := false
  deriving DecidableEq, Repr

/-- A chain of blocks. -/
structure BlockGraph where
  blocks : List Block
  ne_nil : blocks ≠ []

/-- The loop of `NewBlockGraph` over the blocks, of which some may be nil. -/
def checkBlocks : Nat → List (Option Block) → Except FmtError (List Block)
  | _, [] => .ok []
  | i, none :: _ => errorf "flow: block at index %d is nil" [.int i]
  | i, some b :: bs => (checkBlocks (i + 1) bs).map (b :: ·)

/-- `NewBlockGraph`. -/
def newBlockGraph (blocks : List (Option Block)) : Except FmtError BlockGraph :=
  match checkBlocks 0 blocks with
  | .error e => .error e
  | .ok [] => errorf "flow: block graph must have at least one block" []
  | .ok (b :: bs) => .ok ⟨b :: bs, List.cons_ne_nil b bs⟩

theorem checkBlocks_map_some (bs : List Block) : ∀ i, checkBlocks i (bs.map some) = .ok bs := by
  induction bs with
  | nil => exact fun _ => rfl
  | cons b bs ih =>
    intro i
    rw [List.map_cons, checkBlocks, ih]
    rfl

/-- A list without nil blocks is refused only if it is empty. -/
theorem newBlockGraph_map_some {bs : List Block} (h : bs ≠ []) : newBlockGraph (bs.map some) = .ok ⟨bs, h⟩ := by
  rw [newBlockGraph, checkBlocks_map_some]
  cases bs with
  | nil => exact absurd rfl h
  | cons b bs => rfl

/-! ## Runs -/

section Runs

variable {μ : Type}

/-- Where a run is: the block of the loop, the messages it has yet to process there (the first one is
in `Process` if `busy`), and the messages for the block after it. -/
structure GraphRun (μ : Type) where
  block : Nat
  cur : List μ
  next : List μ
  busy : Bool
  deriving DecidableEq

namespace GraphRun

/-- Before the first block. -/
def start (m : μ) : GraphRun μ := ⟨0, [m], [], false⟩

/-- What the run does until it calls `Process` or leaves a block; `none` if it returns. -/
def advance (blocks : List Block) (r : GraphRun μ) : Option (GraphRun μ) :=
  match blocks[r.block]? with
  | none => none
  | some b =>
    if b.source then some { r with block := r.block + 1 }
    else
      match r.cur with
      | [] => some ⟨r.block + 1, r.next, [], false⟩
      | _ :: _ => some { r with busy := true }

/-- `Process` returns these messages. -/
def collect (r : GraphRun μ) (out : List μ) : GraphRun μ :=
  ⟨r.block, r.cur.tail, r.next ++ out, false⟩

/-- The block whose `Process` is in progress. -/
def calling (blocks : List Block) (r : GraphRun μ) : Option Block :=
  if r.busy then blocks[r.block]? else none

/-- `Process` is called of a block that is not a source. -/
def Valid (blocks : List Block) (r : GraphRun μ) : Prop :=
  r.busy = true → ∃ b, blocks[r.block]? = some b ∧ b.source = false

theorem valid_advance {blocks : List Block} {r r' : GraphRun μ} (hbusy : r.busy = false)
    (h : r.advance blocks = some r') : r'.Valid blocks := by
  rw [advance] at h
  split at h
  · cases h
  · next b hb =>
    split_ifs at h with hsource
    · cases h
      intro hbusy'
      rw [hbusy] at hbusy'
      cases hbusy'
    · split at h
      · cases h
        exact nofun
      · cases h
        exact fun _ => ⟨b, hb, by simpa using hsource⟩

end GraphRun

end Runs

end Astrate.Flow
