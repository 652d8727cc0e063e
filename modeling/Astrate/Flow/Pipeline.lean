import Mathlib.Data.List.Sort
import Astrate.InterfaceSchema.Parse

/-!
# Pipelines

`internal/flow/pipeline.go`, and `topoOrder` and `ParseDefinition` of `internal/flow/factory.go`: the
description of a pipeline, its JSON form, `Validate`, and the topological order of its blocks.

The graph of a pipeline is given by the names of its blocks and by its connections. `topoOrder` is
Kahn's algorithm with ties broken by the position of a block: a vertex that is taken counts down its
successors, and those that reach zero join the queue by position. The loop is given as much fuel as there are
vertices and edges.
-/

set_option autoImplicit false

namespace Astrate.Flow

open Astrate.GoLib
open Astrate.GoLib.Json (Any Generic Slice StructField Token decodeMap decodeSlice decodeStruct scanDocument)
open Astrate.InterfaceSchema (stringField)

/-- A configuration. The nil map and the empty one are not told apart by anything that reads them. -/
abbrev Config := List (Bytes × Generic)

/-- One block within a pipeline. -/
structure PipelineNode where
  name : Bytes := []
  blockType : Bytes := []
  config : Config := []

/-- An edge between two blocks. -/
structure Connection where
  from_ : Bytes := []
  fromPort : Bytes := []
  to_ : Bytes := []
  toPort : Bytes := []
  deriving DecidableEq

/-- A pipeline. -/
structure Pipeline where
  id : Bytes := []
  name : Bytes := []
  blocks : List PipelineNode
  connections : List Connection

/-! ## The graph -/

/-- The names of the blocks. -/
def names (blocks : List PipelineNode) : List Bytes := blocks.map (·.name)

/-- The connections without their ports. -/
def edges (conns : List Connection) : List (Bytes × Bytes) := conns.map fun c => (c.from_, c.to_)

section Kahn

variable {α : Type} [DecidableEq α]

def inDegree (edges : List (α × α)) (v : α) : Int := (edges.map Prod.snd).count v

def successors (edges : List (α × α)) (v : α) : List α :=
  (edges.filter fun e => e.1 == v).map Prod.snd

/-- Count down, and collect what reaches zero. -/
def countDown (f : α → Int) : List α → (α → Int) × List α
  | [] => (f, [])
  | v :: vs =>
    let r := countDown (Function.update f v (f v - 1)) vs
    (r.1, if f v - 1 = 0 then v :: r.2 else r.2)

/-- The loop over the queue; the result is what it takes from it, in order. -/
def kahn (arrange : List α → List α) (adj : α → List α) : Nat → List α → (α → Int) → List α
  | 0, _, _ => []
  | _ + 1, [], _ => []
  | fuel + 1, v :: queue, f =>
    let r := countDown f (adj v)
    v :: kahn arrange adj fuel (queue ++ arrange r.2) r.1

def topological (arrange : List α → List α) (vs : List α) (edges : List (α × α)) : List α :=
  kahn arrange (successors edges) (vs.length + edges.length)
    (arrange (vs.filter fun v => decide (inDegree edges v = 0))) (inDegree edges)

end Kahn

/-- The position of a block. -/
def blockIndex (blocks : List PipelineNode) (name : Bytes) : Nat :=
  blocks.findIdx fun b => b.name == name

/-- `sort.Slice` by the position of the block. -/
def byIndex (blocks : List PipelineNode) (ns : List Bytes) : List Bytes :=
  ns.insertionSort fun a b => blockIndex blocks a ≤ blockIndex blocks b

/-- The topological order in which ties are broken by position. -/
def stableOrder (blocks : List PipelineNode) (conns : List Connection) : List Bytes :=
  topological (byIndex blocks) (names blocks) (edges conns)

/-- `topoOrder`. -/
def Pipeline.topoOrder (p : Pipeline) : Except FmtError (List Bytes) :=
  let order := stableOrder p.blocks p.connections
  if order.length = p.blocks.length then .ok order
  else errorf "flow: pipeline %q contains a cycle" [.str p.id]

/-- Every connection is between blocks of the list. -/
def Declared (ns : List Bytes) (conns : List Connection) : Prop :=
  ∀ c ∈ conns, c.from_ ∈ ns ∧ c.to_ ∈ ns

theorem topoOrder_eq_ok {p : Pipeline} {order : List Bytes} :
    p.topoOrder = .ok order ↔
      stableOrder p.blocks p.connections = order ∧ order.length = p.blocks.length := by
  rw [Pipeline.topoOrder]
  split_ifs with hlength
  · constructor
    · intro h
      cases h
      exact ⟨rfl, hlength⟩
    · rintro ⟨rfl, -⟩
      rfl
  · constructor
    · intro h
      cases h
    · rintro ⟨rfl, h⟩
      exact absurd h hlength

/-! ## Validation -/

/-- The loop of `Validate` and of `checkInnerGraph` over the names of the blocks. -/
def checkNames (empty : FmtError) (duplicate : Bytes → FmtError) :
    List Bytes → List Bytes → Except FmtError Unit
  | _, [] => .ok ()
  | seen, name :: ns =>
    if name.isEmpty then .error empty
    else if seen.contains name then .error (duplicate name)
    else checkNames empty duplicate (name :: seen) ns

theorem checkNames_eq_ok {empty : FmtError} {duplicate : Bytes → FmtError} {seen ns : List Bytes} :
    checkNames empty duplicate seen ns = .ok () ↔ [] ∉ ns ∧ ns.Nodup ∧ ∀ n ∈ ns, n ∉ seen := by
  induction ns generalizing seen with
  | nil => simp [checkNames]
  | cons n ns ih =>
    rw [checkNames]
    split_ifs with hempty hseen
    · rw [List.isEmpty_iff] at hempty
      simp [hempty]
    · rw [List.contains_iff_mem] at hseen
      simp [hseen]
    · rw [List.isEmpty_iff] at hempty
      rw [List.contains_iff_mem] at hseen
      rw [ih]
      simp only [List.mem_cons, List.nodup_cons, not_or, forall_eq_or_imp]
      constructor
      · rintro ⟨hne, hnodup, hnew⟩
        exact ⟨⟨Ne.symm hempty, hne⟩, ⟨fun hmem => (hnew n hmem).1 rfl, hnodup⟩, hseen,
          fun m hm => (hnew m hm).2⟩
      · rintro ⟨⟨-, hne⟩, ⟨hnot, hnodup⟩, -, hnew⟩
        exact ⟨hne, hnodup, fun m hm => ⟨fun he => hnot (he ▸ hm), hnew m hm⟩⟩

/-- The loop of `Validate` over the connections. -/
def Pipeline.checkConnections (p : Pipeline) : List Connection → Except FmtError Unit
  | [] => .ok ()
  | c :: cs =>
    if !(names p.blocks).contains c.from_ then
      errorf "flow: pipeline %q connection references unknown block %q" [.str p.id, .str c.from_]
    else if !(names p.blocks).contains c.to_ then
      errorf "flow: pipeline %q connection references unknown block %q" [.str p.id, .str c.to_]
    else if c.from_ == c.to_ then
      errorf "flow: pipeline %q has self-loop on block %q" [.str p.id, .str c.from_]
    else p.checkConnections cs

/-- `Validate`. -/
def Pipeline.validate (p : Pipeline) : Except FmtError Unit := do
  if p.id.isEmpty then
    errorf "flow: pipeline ID is empty" []
  if p.blocks.isEmpty then
    errorf "flow: pipeline %q has no blocks" [.str p.id]
  checkNames ⟨"flow: pipeline %q has a block with empty name", [.str p.id]⟩
    (fun name => ⟨"flow: pipeline %q has duplicate block name %q", [.str p.id, .str name]⟩)
    [] (names p.blocks)
  p.checkConnections p.connections
  -- the loop that counts visits takes blocks as they become ready
  if (topological (fun ready => ready) (names p.blocks) (edges p.connections)).length ≠ p.blocks.length then
    errorf "flow: pipeline %q contains a cycle" [.str p.id]
  if !(names p.blocks).any fun n => decide (inDegree (edges p.connections) n = 0) then
    errorf "flow: pipeline %q has no source block (every block has incoming edges)" [.str p.id]
  if !(names p.blocks).any fun n => (successors (edges p.connections) n).isEmpty then
    errorf "flow: pipeline %q has no sink block (every block has outgoing edges)" [.str p.id]

/-! ## The JSON form -/

/-- The fields `blocks` and `connections` as they are while JSON is decoded into them. -/
structure RawDefinition where
  blocks : Slice PipelineNode := .nil
  connections : Slice Connection := .nil

/-- The members of a block. -/
def pipelineNodeFields : List (StructField PipelineNode) :=
  [stringField "name" (·.name) fun n v => { n with name := v },
    stringField "block_type" (·.blockType) fun n v => { n with blockType := v },
    ⟨utf8 "config", fun n t => (decodeMap n.config t).map fun v => { n with config := v }⟩]

def connectionFields : List (StructField Connection) :=
  [stringField "from" (·.from_) fun c v => { c with from_ := v },
    stringField "from_port" (·.fromPort) fun c v => { c with fromPort := v },
    stringField "to" (·.to_) fun c v => { c with to_ := v },
    stringField "to_port" (·.toPort) fun c v => { c with toPort := v }]

/-- The field `blocks` of a structure. -/
def blocksField {σ : Type} (get : σ → Slice PipelineNode) (set : σ → Slice PipelineNode → σ) :
    StructField σ where
  name := utf8 "blocks"
  set s t := (decodeSlice (decodeStruct pipelineNodeFields false) {} (get s) t).map (set s)

/-- The field `connections` of a structure. -/
def connectionsField {σ : Type} (get : σ → Slice Connection) (set : σ → Slice Connection → σ) :
    StructField σ where
  name := utf8 "connections"
  set s t := (decodeSlice (decodeStruct connectionFields false) {} (get s) t).map (set s)

def rawDefinitionFields : List (StructField RawDefinition) :=
  [blocksField (·.blocks) fun d v => { d with blocks := v },
    connectionsField (·.connections) fun d v => { d with connections := v }]

/-- `json.Unmarshal` into a `rawDefinition`. -/
def unmarshalRaw (def_ : Bytes) : Option RawDefinition :=
  (scanDocument def_).bind (decodeStruct rawDefinitionFields false {})

/-- The fields of a `Pipeline` as they are while JSON is decoded into them. -/
structure PipelineTarget extends RawDefinition where
  id : Bytes
  name : Bytes

def pipelineFields : List (StructField PipelineTarget) :=
  [stringField "id" (·.id) fun p v => { p with id := v },
    stringField "name" (·.name) fun p v => { p with name := v },
    blocksField (·.blocks) fun p v => { p with blocks := v },
    connectionsField (·.connections) fun p v => { p with connections := v }]

/-- `ParseDefinition`. -/
def parseDefinition (id name : Bytes) (definition : Bytes) : Except FmtError Pipeline :=
  if definition.isEmpty then errorf "flow: empty pipeline definition" []
  else
    match (scanDocument definition).bind (decodeStruct pipelineFields false { id := id, name := name }) with
    | none => errorf "flow: pipeline definition does not parse: %w" [.err]
    | some t =>
      let name' := if name.isEmpty then t.name else name
      let id' := if id.isEmpty then t.id else id
      let p : Pipeline :=
        { id := if id'.isEmpty then name' else id'
          name := name'
          blocks := t.blocks.elems
          connections := t.connections.elems }
      p.validate.map fun _ => p

/-- A slice that is nil if it is empty. -/
def sliceJSON (elems : List Any) : Any :=
  if elems.isEmpty then .number (utf8 "null") else .array elems

/-- A string field with `omitempty`. -/
def omitEmpty (name : String) (v : Bytes) : List (Bytes × Any) :=
  if v.isEmpty then [] else [(utf8 name, .string v)]

/-- A block in JSON. -/
def pipelineNodeJSON (n : PipelineNode) : Any :=
  .object ([(utf8 "name", .string n.name), (utf8 "block_type", .string n.blockType)] ++
    if n.config.isEmpty then [] else [(utf8 "config", .object (Generic.toAnyMembers n.config))])

/-- A connection in JSON. -/
def connectionJSON (c : Connection) : Any :=
  .object ((utf8 "from", .string c.from_) :: omitEmpty "from_port" c.fromPort ++
    (utf8 "to", .string c.to_) :: omitEmpty "to_port" c.toPort)

/-- `json.Marshal` of a `rawDefinition`. -/
def marshalRaw (blocks : List PipelineNode) (conns : List Connection) : Bytes :=
  Json.marshal true (.object [(utf8 "blocks", sliceJSON (blocks.map pipelineNodeJSON)),
    (utf8 "connections", sliceJSON (conns.map connectionJSON))])

/-- The key of a flow in the manager. -/
def instanceID (realm flowName : Bytes) : Bytes := realm ++ utf8 "/" ++ flowName

end Astrate.Flow
