import Mathlib.Logic.Relation
import Astrate.Flow.Substitute

/-!
# Composite blocks

`internal/flow/composite.go`. A node whose type the resolver knows as a user block is replaced by the
body of that block, whose placeholders are filled in from the configuration of the node. Bodies are
expanded in the same way, down to `maxCompositeDepth`.

`expandCompositesRec` is given the depth to which it may call itself, and records the calls of the
resolver. A run that succeeds has gone through a tree of nodes (`Tree`), and leaves the leaves of it
(`expandCompositesRec_ok`). All that is proved about results goes by that tree.
-/

set_option autoImplicit false

namespace Astrate.Flow

open Astrate.GoLib

/-- A composite as it is stored. -/
structure UserBlock where
  name : Bytes
  blockType : Bytes
  source : Bytes
  configSchema : Bytes
  deriving DecidableEq

/-- What tells user blocks from built-in types. -/
abbrev Resolver := Bytes → Except FmtError (Option UserBlock)

/-- The deepest nesting. -/
def maxCompositeDepth : Nat := 32

/-- The loop of `checkInnerGraph` over the connections. -/
def checkInnerConnections (composite : Bytes) (ns : List Bytes) : List Connection → Except FmtError Unit
  | [] => .ok ()
  | c :: cs =>
    if !ns.contains c.from_ then
      errorf "flow: composite %q connection references unknown block %q" [.str composite, .str c.from_]
    else if !ns.contains c.to_ then
      errorf "flow: composite %q connection references unknown block %q" [.str composite, .str c.to_]
    else checkInnerConnections composite ns cs

/-- `checkInnerGraph`. -/
def checkInnerGraph (composite : Bytes) (blocks : List PipelineNode) (conns : List Connection) :
    Except FmtError Unit := do
  checkNames ⟨"flow: composite %q has a block with empty name", [.str composite]⟩
    (fun name => ⟨"flow: composite %q has duplicate block name %q", [.str composite, .str name]⟩)
    [] (names blocks)
  checkInnerConnections composite (names blocks) conns

/-- The body of a composite for a configuration, from the substitution to the check for a cycle. -/
def compositeBody (ub : UserBlock) (config : Config) :
    Except FmtError (List PipelineNode × List Connection) := do
  let src ← substituteConfig ub.source config
  match unmarshalRaw src with
  | none => errorf "flow: composite %q definition does not parse: %w" [.str ub.name, .err]
  | some inner => do
      let blocks := inner.blocks.elems
      let conns := inner.connections.elems
      if blocks.isEmpty then
        errorf "flow: composite %q has an empty definition" [.str ub.name]
      checkInnerGraph ub.name blocks conns
      match ({ blocks := blocks, connections := conns } : Pipeline).topoOrder with
      | .error _ => errorf "flow: composite %q contains a cycle" [.str ub.name]
      | .ok _ => .ok (blocks, conns)

variable {conns : List Connection}

theorem checkInnerConnections_eq_ok {composite : Bytes} {ns : List Bytes} :
    checkInnerConnections composite ns conns = .ok () ↔ Declared ns conns := by
  induction conns with
  | nil => simp [checkInnerConnections, Declared]
  | cons c cs ih =>
    rw [checkInnerConnections]
    split_ifs with hfrom hto
    · simp_all [Declared]
    · simp_all [Declared]
    · simp_all [Declared]

/-- What is known of a body that passes the checks. -/
structure WellFormedBody (body : List PipelineNode × List Connection) : Prop where
  ne_nil : body.1 ≠ []
  named : [] ∉ names body.1
  nodup : (names body.1).Nodup
  declared : Declared (names body.1) body.2

theorem checkInnerGraph_eq_ok {composite : Bytes} {blocks : List PipelineNode} :
    checkInnerGraph composite blocks conns = .ok () ↔
      [] ∉ names blocks ∧ (names blocks).Nodup ∧ Declared (names blocks) conns := by
  rw [checkInnerGraph, bind_eq_ok_iff]
  constructor
  · rintro ⟨_, hnames, hconns⟩
    obtain ⟨hnamed, hnodup, -⟩ := checkNames_eq_ok.1 hnames
    exact ⟨hnamed, hnodup, checkInnerConnections_eq_ok.1 hconns⟩
  · rintro ⟨hnamed, hnodup, hconns⟩
    exact ⟨(), checkNames_eq_ok.2 ⟨hnamed, hnodup, fun _ _ => List.not_mem_nil⟩,
      checkInnerConnections_eq_ok.2 hconns⟩

variable {ub : UserBlock} {config : Config} {body : List PipelineNode × List Connection}

/-- A body is used if it parses, passes the checks and has a topological order. -/
theorem compositeBody_eq_ok :
    compositeBody ub config = .ok body ↔
      ∃ src inner, substituteConfig ub.source config = .ok src ∧ unmarshalRaw src = some inner ∧
        body = (inner.blocks.elems, inner.connections.elems) ∧ WellFormedBody body ∧
        (stableOrder body.1 body.2).length = body.1.length := by
  rw [compositeBody, bind_eq_ok_iff]
  constructor
  · rintro ⟨src, hsrc, h⟩
    cases hinner : unmarshalRaw src with
    | none =>
      rw [hinner] at h
      cases h
    | some inner =>
      rw [hinner] at h
      dsimp only at h
      split_ifs at h with hempty
      · cases h
      · obtain ⟨_, hgraph, h⟩ := bind_eq_ok_iff.1 h
        obtain ⟨hnamed, hnodup, hconns⟩ := checkInnerGraph_eq_ok.1 hgraph
        split at h
        · cases h
        · rename_i order horder
          cases h
          obtain ⟨rfl, hlength⟩ := topoOrder_eq_ok.1 horder
          exact ⟨src, inner, hsrc, hinner, rfl, ⟨by simpa using hempty, hnamed, hnodup, hconns⟩, hlength⟩
  · rintro ⟨src, inner, hsrc, hinner, rfl, hwf, hlength⟩
    have horder := (topoOrder_eq_ok (p := ⟨[], [], inner.blocks.elems, inner.connections.elems⟩)).2
      ⟨rfl, hlength⟩
    have hempty : inner.blocks.elems.isEmpty = false := by simpa using hwf.ne_nil
    have hgraph : checkInnerGraph ub.name inner.blocks.elems inner.connections.elems = .ok () :=
      checkInnerGraph_eq_ok.2 ⟨hwf.named, hwf.nodup, hwf.declared⟩
    refine ⟨src, hsrc, ?_⟩
    rw [hinner]
    simp [hempty, hgraph, horder, bind, Except.bind]

/-- A body of one node. -/
theorem compositeBody_single {src : Bytes} {n : PipelineNode}
    (hsrc : substituteConfig ub.source config = .ok src)
    (hraw : unmarshalRaw src = some ⟨.ofList [n], .nil⟩) (hname : n.name ≠ []) :
    compositeBody ub config = .ok ([n], []) := by
  refine compositeBody_eq_ok.2 ⟨src, _, hsrc, hraw, rfl, ⟨List.cons_ne_nil _ _, ?_, ?_, ?_⟩, rfl⟩
  · exact fun h => hname (List.mem_singleton.1 h).symm
  · exact List.nodup_singleton _
  · intro c hc
    cases hc

/-- A composite is opened if it is not being expanded already and there are not too many that are. -/
def openComposite (stack : List Bytes) (ub : UserBlock) (config : Config) :
    Except FmtError (List PipelineNode × List Connection) :=
  if stack.contains ub.name then errorf "flow: composite cycle detected at %q" [.str ub.name]
  else if maxCompositeDepth ≤ stack.length then
    errorf "flow: composite nesting too deep at %q" [.str ub.name]
  else compositeBody ub config

/-- A node or a connection of a body, renamed. -/
def PipelineNode.under (pre : Bytes) (n : PipelineNode) : PipelineNode := { n with name := pre ++ n.name }

def Connection.under (pre : Bytes) (c : Connection) : Connection :=
  { c with from_ := pre ++ c.from_, to_ := pre ++ c.to_ }

/-- A composite of a level, with the first and the last node of its expanded body. -/
structure Ends where
  name : Bytes
  first : Bytes
  last : Bytes

/-- The loop over the connections of a level. -/
def attach (e : Ends) (c : Connection) : Connection :=
  { c with
    to_ := if c.to_ == e.name then e.first else c.to_
    from_ := if c.from_ == e.name then e.last else c.from_ }

/-- The variables of the loop over the nodes. -/
structure Spliced where
  outNodes : List PipelineNode
  outConns : List Connection
  splicedConns : List Connection

/-- The first and the last node of an order, which is not empty where this is used (`leaves_ne_nil`). -/
def endsOf (name : Bytes) (order : List Bytes) : Ends := ⟨name, order.headD [], order.getLastD []⟩

/-- The end of the loop body: the expanded body is renamed and put in place of the node. -/
def spliceBody (pre : Bytes) (ub : UserBlock) (node : PipelineNode) (acc : Spliced)
    (expanded : List PipelineNode × List Connection) : Except FmtError Spliced :=
  let subPrefix := pre ++ node.name ++ utf8 "."
  let expNodes := expanded.1.map (PipelineNode.under subPrefix)
  let expConns := expanded.2.map (Connection.under subPrefix)
  match ({ blocks := expNodes, connections := expConns } : Pipeline).topoOrder with
  | .error _ => errorf "flow: composite %q contains a cycle" [.str ub.name]
  | .ok expOrder =>
    .ok
      { outNodes := acc.outNodes ++ expNodes
        outConns := acc.outConns.map (attach (endsOf node.name expOrder))
        splicedConns := acc.splicedConns ++ expConns }

/-- A run that has returned: the types it has called the resolver with, and what it returned. -/
abbrev Returned (α : Type) := List Bytes × Except FmtError α

/-- The loop of `expandComposites` over the nodes; `expand` is the recursive call. -/
def expandNodes (resolve : Resolver) (stack : List Bytes) (pre : Bytes)
    (expand : List PipelineNode → List Connection → List Bytes →
      Option (Returned (List PipelineNode × List Connection))) :
    List PipelineNode → Spliced → Option (Returned Spliced)
  | [], acc => some ([], .ok acc)
  | node :: nodes, acc =>
    match resolve node.blockType with
    | .error e => some ([node.blockType], .error e)
    | .ok none =>
      (expandNodes resolve stack pre expand nodes { acc with outNodes := acc.outNodes ++ [node] }).map
        fun r => (node.blockType :: r.1, r.2)
    | .ok (some ub) =>
      match openComposite stack ub node.config with
      | .error e => some ([node.blockType], .error e)
      | .ok body =>
        match expand body.1 body.2 (ub.name :: stack) with
        | none => none
        | some (calls, .error e) => some (node.blockType :: calls, .error e)
        | some (calls, .ok expanded) =>
          match spliceBody pre ub node acc expanded with
          | .error e => some (node.blockType :: calls, .error e)
          | .ok acc' =>
            (expandNodes resolve stack pre expand nodes acc').map
              fun r => (node.blockType :: calls ++ r.1, r.2)

/-- `expandComposites`, calling itself at most to `depth`; `none` if that is not enough. -/
def expandCompositesRec (resolve : Resolver) : Nat → List PipelineNode → List Connection → List Bytes →
    Bytes → Option (Returned (List PipelineNode × List Connection))
  | 0, _, _, _, _ => none
  | depth + 1, nodes, conns, stack, pre =>
    (expandNodes resolve stack pre
      (fun blocks conns stack => expandCompositesRec resolve depth blocks conns stack [])
      nodes ⟨[], conns, []⟩).map
        fun r => (r.1, r.2.map fun acc => (acc.outNodes, acc.outConns ++ acc.splicedConns))

/-- `ExpandComposites` up to a depth, for a resolver that is not nil. -/
def expandCompositesWithin (depth : Nat) (def_ : Bytes) (resolve : Resolver) : Option (Returned Bytes) :=
  if def_.isEmpty then some ([], errorf "flow: empty pipeline definition" [])
  else
    match unmarshalRaw def_ with
    | none => some ([], errorf "flow: pipeline definition does not parse: %w" [.err])
    | some root =>
      (expandCompositesRec resolve depth root.blocks.elems root.connections.elems [] []).map
        fun r => (r.1, r.2.map fun out => marshalRaw out.1 out.2)

/-- `ExpandComposites`. The depth is always enough (`expandCompositesWithin_returns`), so the error
that stands for a deeper run does not occur. -/
def expandComposites (def_ : Bytes) (resolve : Resolver) : Except FmtError Bytes :=
  ((expandCompositesWithin (maxCompositeDepth + 1) def_ resolve).getD
    ([], errorf "flow: composite nesting too deep" [])).2

/-! ## Termination -/

variable {stack : List Bytes}

theorem openComposite_eq_ok (h : openComposite stack ub config = .ok body) :
    stack.length < maxCompositeDepth ∧ compositeBody ub config = .ok body := by
  rw [openComposite] at h
  split_ifs at h with hstack hdepth
  · cases h
  · cases h
  · exact ⟨Nat.not_le.1 hdepth, h⟩

variable {resolve : Resolver}
  {expand : List PipelineNode → List Connection → List Bytes →
    Option (Returned (List PipelineNode × List Connection))} {pre : Bytes}

/-- The loop returns if every call it makes does. -/
theorem expandNodes_isSome
    (hexpand : stack.length < maxCompositeDepth →
      ∀ blocks conns name, (expand blocks conns (name :: stack)).isSome = true)
    (nodes : List PipelineNode) (acc : Spliced) :
    (expandNodes resolve stack pre expand nodes acc).isSome = true := by
  induction nodes generalizing acc with
  | nil => rfl
  | cons node nodes ih =>
    rw [expandNodes]
    cases hresolve : resolve node.blockType with
    | error e => rfl
    | ok found =>
      cases found with
      | none =>
        rw [Option.isSome_map]
        exact ih _
      | some ub =>
        dsimp only
        cases hopen : openComposite stack ub node.config with
        | error e => rfl
        | ok body =>
          dsimp only
          have hdepth := (openComposite_eq_ok hopen).1
          obtain ⟨⟨calls, expanded⟩, hbody⟩ :=
            Option.isSome_iff_exists.1 (hexpand hdepth body.1 body.2 ub.name)
          rw [hbody]
          cases expanded with
          | error e => rfl
          | ok expanded =>
            dsimp only
            cases hsplice : spliceBody pre ub node acc expanded with
            | error e => rfl
            | ok acc' =>
              rw [Option.isSome_map]
              exact ih acc'

/-- The stack grows with every call, and is refused at `maxCompositeDepth`. -/
theorem expandCompositesRec_isSome (resolve : Resolver) (depth : Nat) (nodes : List PipelineNode)
    (conns : List Connection) (stack : List Bytes) (pre : Bytes)
    (hdepth : maxCompositeDepth < depth + stack.length) (hstack : stack.length ≤ maxCompositeDepth) :
    (expandCompositesRec resolve depth nodes conns stack pre).isSome = true := by
  induction depth generalizing nodes conns stack pre with
  | zero => omega
  | succ depth ih =>
    rw [expandCompositesRec, Option.isSome_map]
    apply expandNodes_isSome
    intro hless blocks conns name
    apply ih
    · rw [List.length_cons]
      omega
    · rw [List.length_cons]
      omega

/-! ## Trees -/

/-- What a node is expanded to: it is left as it is, or it is a composite with the trees of the nodes of
its body and the connections between them. -/
inductive Tree where
  | leaf (node : PipelineNode)
  | composite (node : PipelineNode) (block : UserBlock) (children : List Tree) (conns : List Connection)

namespace Tree

def node : Tree → PipelineNode
  | .leaf n => n
  | .composite n _ _ _ => n

/-- The node is a user block. -/
def isComposite : Tree → Bool
  | .leaf _ => false
  | .composite _ _ _ _ => true

/-- The trees of the body. -/
def children : Tree → List Tree
  | .leaf _ => []
  | .composite _ _ ts _ => ts

/-- The tree is one that the resolver gives. -/
inductive Unfolded (resolve : Resolver) : Tree → Prop
  | leaf {n : PipelineNode} (hresolve : resolve n.blockType = .ok none) : Unfolded resolve (.leaf n)
  | composite {n : PipelineNode} {ub : UserBlock} {ts : List Tree} {cs : List Connection}
      (hresolve : resolve n.blockType = .ok (some ub))
      (hbody : compositeBody ub n.config = .ok (ts.map node, cs))
      (hchildren : ∀ t ∈ ts, Unfolded resolve t) : Unfolded resolve (.composite n ub ts cs)

end Tree

mutual

/-- The built-in nodes of a tree, named by their path. -/
def Tree.leaves : Tree → List PipelineNode
  | .leaf n => [n]
  | .composite n _ ts _ => (leavesAll ts).map (PipelineNode.under (n.name ++ utf8 "."))

def leavesAll : List Tree → List PipelineNode
  | [] => []
  | t :: ts => t.leaves ++ leavesAll ts

end

/-- The nodes at a depth that stand next to each other: those of the definition, or those of the body of
one composite. -/
inductive Level (ts : List Tree) : Nat → List Tree → Prop
  | top : Level ts 0 ts
  | body {d : Nat} {level : List Tree} {t : Tree} (h : Level ts d level) (ht : t ∈ level) :
      Level ts (d + 1) t.children

variable {ts : List Tree}

theorem mem_leavesAll {n : PipelineNode} : n ∈ leavesAll ts ↔ ∃ t ∈ ts, n ∈ t.leaves := by
  induction ts with
  | nil => simp [leavesAll]
  | cons t ts ih => simp [leavesAll, ih]

variable {node : PipelineNode} {acc : Spliced}

theorem outNodes_spliceBody {acc' : Spliced} {expanded : List PipelineNode × List Connection}
    (h : spliceBody pre ub node acc expanded = .ok acc') :
    acc'.outNodes = acc.outNodes ++ expanded.1.map (PipelineNode.under (pre ++ node.name ++ utf8 ".")) := by
  rw [spliceBody] at h
  split at h <;> cases h
  rfl

variable {nodes : List PipelineNode} {calls : List Bytes}

variable (stack resolve expand pre node acc) in
/-- What the loop makes of a node. -/
inductive NodePass : Except FmtError Spliced → Prop
  | builtin (hresolve : resolve node.blockType = .ok none) :
      NodePass (.ok { acc with outNodes := acc.outNodes ++ [node] })
  | unresolved {e : FmtError} (hresolve : resolve node.blockType = .error e) : NodePass (.error e)
  | unopened {ub : UserBlock} {e : FmtError} (hresolve : resolve node.blockType = .ok (some ub))
      (hopen : openComposite stack ub node.config = .error e) : NodePass (.error e)
  | failed {ub : UserBlock} {body : List PipelineNode × List Connection} {inner : List Bytes} {e : FmtError}
      (hresolve : resolve node.blockType = .ok (some ub))
      (hopen : openComposite stack ub node.config = .ok body)
      (hcall : expand body.1 body.2 (ub.name :: stack) = some (inner, .error e)) : NodePass (.error e)
  | expanded {ub : UserBlock} {body expanded : List PipelineNode × List Connection} {inner : List Bytes}
      {result : Except FmtError Spliced} (hresolve : resolve node.blockType = .ok (some ub))
      (hopen : openComposite stack ub node.config = .ok body)
      (hcall : expand body.1 body.2 (ub.name :: stack) = some (inner, .ok expanded))
      (hsplice : spliceBody pre ub node acc expanded = result) : NodePass result

/-- The loop ends with the error of a node, or goes on behind it. -/
theorem expandNodes_cons {result : Except FmtError Spliced}
    (h : expandNodes resolve stack pre expand (node :: nodes) acc = some (calls, result)) :
    (∃ e, NodePass stack resolve expand pre node acc (.error e) ∧ result = .error e) ∨
    ∃ acc' rest, NodePass stack resolve expand pre node acc (.ok acc') ∧
      expandNodes resolve stack pre expand nodes acc' = some (rest, result) := by
  rw [expandNodes] at h
  cases hresolve : resolve node.blockType with
  | error e =>
    rw [hresolve] at h
    cases h
    exact Or.inl ⟨e, .unresolved hresolve, rfl⟩
  | ok found =>
    rw [hresolve] at h
    cases found with
    | none =>
      obtain ⟨⟨rest, result⟩, hrest, he⟩ := Option.map_eq_some_iff.1 h
      cases he
      exact Or.inr ⟨_, rest, .builtin hresolve, hrest⟩
    | some ub =>
      dsimp only at h
      cases hopen : openComposite stack ub node.config with
      | error e =>
        rw [hopen] at h
        cases h
        exact Or.inl ⟨e, .unopened hresolve hopen, rfl⟩
      | ok body =>
        rw [hopen] at h
        dsimp only at h
        cases hcall : expand body.1 body.2 (ub.name :: stack) with
        | none =>
          rw [hcall] at h
          cases h
        | some r =>
          obtain ⟨inner, expanded⟩ := r
          rw [hcall] at h
          cases expanded with
          | error e =>
            cases h
            exact Or.inl ⟨e, .failed hresolve hopen hcall, rfl⟩
          | ok expanded =>
            dsimp only at h
            cases hsplice : spliceBody pre ub node acc expanded with
            | error e =>
              rw [hsplice] at h
              cases h
              exact Or.inl ⟨e, .expanded hresolve hopen hcall hsplice, rfl⟩
            | ok acc' =>
              rw [hsplice] at h
              obtain ⟨⟨rest, result⟩, hrest, he⟩ := Option.map_eq_some_iff.1 h
              cases he
              exact Or.inr ⟨acc', rest, .expanded hresolve hopen hcall hsplice, hrest⟩

/-- The loop over the nodes goes through a tree for each of them, if the recursive calls do. -/
theorem expandNodes_ok
    (hexpand : ∀ blocks conns st calls out, expand blocks conns st = some (calls, .ok out) →
      ∃ ts : List Tree, ts.map Tree.node = blocks ∧ (∀ t ∈ ts, t.Unfolded resolve) ∧ out.1 = leavesAll ts)
    {acc' : Spliced} (h : expandNodes resolve stack [] expand nodes acc = some (calls, .ok acc')) :
    ∃ ts : List Tree, ts.map Tree.node = nodes ∧ (∀ t ∈ ts, t.Unfolded resolve) ∧
      acc'.outNodes = acc.outNodes ++ leavesAll ts := by
  induction nodes generalizing acc calls with
  | nil =>
    cases h
    exact ⟨[], rfl, fun t ht => absurd ht List.not_mem_nil, by simp [leavesAll]⟩
  | cons node nodes ih =>
    rcases expandNodes_cons h with ⟨e, -, he⟩ | ⟨acc₁, rest, hpass, hrest⟩
    · cases he
    obtain ⟨ts, hnodes, hts, hacc⟩ := ih hrest
    cases hpass with
    | builtin hresolve =>
      refine ⟨.leaf node :: ts, by rw [List.map_cons, hnodes]; rfl, ?_, ?_⟩
      · exact List.forall_mem_cons.2 ⟨.leaf hresolve, hts⟩
      · simp [hacc, leavesAll, Tree.leaves]
    | @expanded ub body _ _ _ hresolve hopen hcall hsplice =>
      obtain ⟨-, hbody⟩ := openComposite_eq_ok hopen
      obtain ⟨ts₁, hnodes₁, hts₁, hout⟩ := hexpand _ _ _ _ _ hcall
      have htree : (Tree.composite node ub ts₁ body.2).Unfolded resolve :=
        .composite hresolve (by rw [hnodes₁]; exact hbody) hts₁
      refine ⟨.composite node ub ts₁ body.2 :: ts, by rw [List.map_cons, hnodes]; rfl, ?_, ?_⟩
      · exact List.forall_mem_cons.2 ⟨htree, hts⟩
      · simp [hacc, outNodes_spliceBody hsplice, hout, leavesAll, Tree.leaves]

/-- A run that succeeds has gone through a tree for every node. -/
theorem expandCompositesRec_ok {depth : Nat} {out : List PipelineNode × List Connection}
    (h : expandCompositesRec resolve depth nodes conns stack [] = some (calls, .ok out)) :
    ∃ ts : List Tree, ts.map Tree.node = nodes ∧ (∀ t ∈ ts, t.Unfolded resolve) ∧ out.1 = leavesAll ts := by
  induction depth generalizing nodes conns stack calls out with
  | zero => cases h
  | succ depth ih =>
    obtain ⟨⟨calls', result⟩, hnodes, he⟩ := Option.map_eq_some_iff.1 h
    cases result with
    | error e => cases he
    | ok acc =>
      cases he
      exact expandNodes_ok (fun _ _ _ _ _ hcall => ih hcall) hnodes

/-! ## What is left, and cycles -/

theorem Tree.Unfolded.leaves_builtin {t : Tree} (h : t.Unfolded resolve) :
    ∀ n ∈ t.leaves, resolve n.blockType = .ok none := by
  induction h with
  | leaf hresolve =>
    intro n hn
    rw [Tree.leaves, List.mem_singleton] at hn
    rw [hn]
    exact hresolve
  | composite _ _ _ ih =>
    intro n hn
    rw [Tree.leaves, List.mem_map] at hn
    obtain ⟨m, hm, rfl⟩ := hn
    obtain ⟨t, ht, hmt⟩ := mem_leavesAll.1 hm
    exact ih t ht m hmt

/-- The body of every user block has the same types, whatever the configuration. -/
def FixedTypes (resolve : Resolver) (types : Bytes → List Bytes) : Prop :=
  ∀ t ub config body, resolve t = .ok (some ub) → compositeBody ub config = .ok body →
    body.1.map (·.blockType) = types t

/-- The types of the bodies of user blocks, for a configuration that has no keys. -/
def bodyTypes (resolve : Resolver) (t : Bytes) : List Bytes :=
  match resolve t with
  | .ok (some ub) =>
    match compositeBody ub [] with
    | .ok body => body.1.map (·.blockType)
    | .error _ => []
  | _ => []

/-- Bodies without placeholders have fixed types. -/
theorem fixedTypes_of_plain (h : ∀ t ub, resolve t = .ok (some ub) → plainDefinition ub.source = true) :
    FixedTypes resolve (bodyTypes resolve) := by
  intro t ub config body hresolve hbody
  rw [compositeBody, substituteConfig_plain (h t ub hresolve) config [], ← compositeBody] at hbody
  rw [bodyTypes, hresolve]
  dsimp only
  rw [hbody]

/-- A user block refers to the types of its body. -/
def Refers (resolve : Resolver) (types : Bytes → List Bytes) (t t' : Bytes) : Prop :=
  (∃ ub, resolve t = .ok (some ub)) ∧ t' ∈ types t

/-- No reference cycle is reached from the root of a tree. -/
theorem Tree.Unfolded.acyclic {types : Bytes → List Bytes}
    (hfixed : FixedTypes resolve types) {t : Tree} (h : t.Unfolded resolve) :
    ∀ b, Relation.ReflTransGen (Refers resolve types) t.node.blockType b →
      ¬Relation.TransGen (Refers resolve types) b b := by
  induction h with
  | @leaf n hresolve =>
    have hnone : ∀ b, ¬Refers resolve types n.blockType b := by
      rintro b ⟨⟨ub, hub⟩, -⟩
      rw [hresolve] at hub
      cases hub
    intro b hreach hcycle
    cases hreach.cases_head with
    | inl he =>
      obtain ⟨c, hc, -⟩ := Relation.TransGen.head'_iff.1 hcycle
      exact hnone c (he ▸ hc)
    | inr hstep =>
      obtain ⟨c, hc, -⟩ := hstep
      exact hnone c hc
  | @composite n ub ts cs hresolve hbody _ ih =>
    -- what the block refers to are the types of the children
    have hchild : ∀ c, Refers resolve types n.blockType c → ∃ t ∈ ts, t.node.blockType = c := by
      rintro c ⟨-, hc⟩
      rw [← hfixed _ _ _ _ hresolve hbody] at hc
      simpa using hc
    intro b hreach hcycle
    cases hreach.cases_head with
    | inl he =>
      obtain ⟨c, hc, hback⟩ := Relation.TransGen.head'_iff.1 hcycle
      obtain ⟨t, ht, rfl⟩ := hchild c (he ▸ hc)
      exact ih t ht b hback hcycle
    | inr hstep =>
      obtain ⟨c, hc, hrest⟩ := hstep
      obtain ⟨t, ht, rfl⟩ := hchild c hc
      exact ih t ht b hrest hcycle

/-! ## Errors -/

/-- The formats of the errors of bodies. -/
def bodyFormats : List String :=
  substituteFormats ++
    ["flow: composite %q definition does not parse: %w", "flow: composite %q has an empty definition",
      "flow: composite %q has a block with empty name", "flow: composite %q has duplicate block name %q",
      "flow: composite %q connection references unknown block %q", "flow: composite %q contains a cycle"]

theorem checkNames_errors {formats : List String} {empty : FmtError} {duplicate : Bytes → FmtError}
    (hempty : empty.format ∈ formats) (hduplicate : ∀ n, (duplicate n).format ∈ formats)
    (seen ns : List Bytes) : ErrorsIn formats (checkNames empty duplicate seen ns) := by
  induction ns generalizing seen with
  | nil => exact errorsIn_ok ()
  | cons n ns ih =>
    rw [checkNames]
    split_ifs
    · exact errorsIn_errorf hempty empty.args
    · exact errorsIn_errorf (hduplicate n) (duplicate n).args
    · exact ih _

theorem checkInnerConnections_errors (composite : Bytes) (ns : List Bytes) (conns : List Connection) :
    ErrorsIn bodyFormats (checkInnerConnections composite ns conns) := by
  induction conns with
  | nil => exact errorsIn_ok ()
  | cons c cs ih =>
    rw [checkInnerConnections]
    split_ifs
    · exact errorsIn_errorf (by decide) _
    · exact errorsIn_errorf (by decide) _
    · exact ih

theorem compositeBody_errors (ub : UserBlock) (config : Config) :
    ErrorsIn bodyFormats (compositeBody ub config) := by
  refine ((substituteConfig_errors ub.source config).mono (List.subset_append_left _ _)).bind fun src => ?_
  cases unmarshalRaw src with
  | none => exact errorsIn_errorf (by decide) _
  | some inner =>
    have hgraph : ErrorsIn bodyFormats
        (checkInnerGraph ub.name inner.blocks.elems inner.connections.elems) :=
      (checkNames_errors (by simp [bodyFormats]) (fun _ => by simp [bodyFormats]) _ _).bind fun _ =>
        checkInnerConnections_errors _ _ _
    dsimp only
    split_ifs
    · exact errorsIn_errorf (by decide) _
    · refine hgraph.bind fun _ => ?_
      split
      · exact errorsIn_errorf (by decide) _
      · exact errorsIn_ok _

/-- An error of the loop over the nodes is the error of one of them. -/
theorem expandNodes_error {e : FmtError}
    (h : expandNodes resolve stack pre expand nodes acc = some (calls, .error e)) :
    ∃ node ∈ nodes, ∃ acc', NodePass stack resolve expand pre node acc' (.error e) := by
  induction nodes generalizing acc calls with
  | nil => cases h
  | cons node nodes ih =>
    rcases expandNodes_cons h with ⟨e', hpass, he⟩ | ⟨acc', rest, -, hrest⟩
    · cases he
      exact ⟨node, List.mem_cons_self, acc, hpass⟩
    · obtain ⟨n, hn, hpass⟩ := ih hrest
      exact ⟨n, List.mem_cons_of_mem node hn, hpass⟩

/-- The error for a composite that is being expanded already. -/
def cycleError (name : Bytes) : FmtError := ⟨"flow: composite cycle detected at %q", [.str name]⟩

theorem errorf_ne_cycleError {α : Type} {format : String} (h : format ≠ "flow: composite cycle detected at %q")
    {args : List FmtArg} {x : Bytes} : (errorf format args : Except FmtError α) ≠ .error (cycleError x) :=
  fun he => h (congrArg FmtError.format (Except.error.inj he))

theorem compositeBody_ne_cycleError {x : Bytes} : compositeBody ub config ≠ .error (cycleError x) := by
  intro h
  have hformat : "flow: composite cycle detected at %q" ∈ bodyFormats := compositeBody_errors ub config _ h
  revert hformat
  decide

theorem spliceBody_ne_cycleError {expanded : List PipelineNode × List Connection} (x : Bytes) :
    spliceBody pre ub node acc expanded ≠ .error (cycleError x) := by
  intro h
  rw [spliceBody] at h
  split at h
  · exact errorf_ne_cycleError (by decide) h
  · cases h

theorem expandCompositesWithin_returns (def_ : Bytes) (resolve : Resolver) :
    ∃ calls, expandCompositesWithin (maxCompositeDepth + 1) def_ resolve =
      some (calls, expandComposites def_ resolve) := by
  have hsome : (expandCompositesWithin (maxCompositeDepth + 1) def_ resolve).isSome = true := by
    rw [expandCompositesWithin]
    split_ifs
    · rfl
    · cases unmarshalRaw def_ with
      | none => rfl
      | some root =>
        rw [Option.isSome_map]
        exact expandCompositesRec_isSome resolve _ _ _ _ _ (Nat.lt_succ_self _) (Nat.zero_le _)
  obtain ⟨r, hr⟩ := Option.isSome_iff_exists.1 hsome
  refine ⟨r.1, ?_⟩
  rw [expandComposites, hr]
  rfl

/-- A definition that has been expanded: its nodes have trees, and those of the result are their leaves. -/
theorem expandComposites_ok {def_ out : Bytes} (h : expandComposites def_ resolve = .ok out) :
    ∃ (root : RawDefinition) (ts : List Tree), unmarshalRaw def_ = some root ∧
      ts.map Tree.node = root.blocks.elems ∧ (∀ t ∈ ts, t.Unfolded resolve) ∧
      ∃ conns, out = marshalRaw (leavesAll ts) conns := by
  obtain ⟨calls, hcalls⟩ := expandCompositesWithin_returns def_ resolve
  rw [h, expandCompositesWithin] at hcalls
  split_ifs at hcalls
  · cases hcalls
  · cases hroot : unmarshalRaw def_ with
    | none =>
      rw [hroot] at hcalls
      cases hcalls
    | some root =>
      rw [hroot] at hcalls
      obtain ⟨⟨calls', result⟩, hrun, he⟩ := Option.map_eq_some_iff.1 hcalls
      cases result with
      | error e => cases he
      | ok result =>
        cases he
        obtain ⟨ts, hnodes, hts, hout⟩ := expandCompositesRec_ok hrun
        exact ⟨root, ts, rfl, hnodes, hts, result.2, by rw [← hout]⟩

section Cycle

variable {resolve : Resolver} {refers : Bytes → Bytes → Prop}
  (hname : ∀ t ub, resolve t = .ok (some ub) → ub.name = t)
  (herror : ∀ t x, resolve t ≠ .error (cycleError x))
  (hbody : ∀ t ub config body, resolve t = .ok (some ub) → compositeBody ub config = .ok body →
    ∀ n ∈ body.1, ∀ ub', resolve n.blockType = .ok (some ub') → refers t n.blockType)

include hname herror hbody

/-- A composite on the stack refers, through others, to the nodes that are being expanded. So one that
is found there again refers to itself. -/
theorem expandCompositesRec_cycle {depth : Nat} {x : Bytes}
    (hstack : ∀ s ∈ stack, ∀ n ∈ nodes, ∀ ub, resolve n.blockType = .ok (some ub) →
      Relation.TransGen refers s n.blockType)
    (h : expandCompositesRec resolve depth nodes conns stack pre = some (calls, .error (cycleError x))) :
    Relation.TransGen refers x x := by
  induction depth generalizing nodes conns stack calls pre with
  | zero => cases h
  | succ depth ih =>
    obtain ⟨⟨calls', result⟩, hnodes, he⟩ := Option.map_eq_some_iff.1 h
    cases result with
    | ok acc => cases he
    | error e =>
      cases he
      obtain ⟨n, hn, acc, hpass⟩ := expandNodes_error hnodes
      cases hpass with
      | unresolved hresolve => exact absurd hresolve (herror _ _)
      | unopened hub hopen =>
        rw [openComposite] at hopen
        split_ifs at hopen with hmem hdepth
        · rw [List.contains_iff_mem, hname _ _ hub] at hmem
          cases hopen
          rw [hname _ _ hub]
          exact hstack _ hmem n hn _ hub
        · exact absurd hopen (errorf_ne_cycleError (by decide))
        · exact absurd hopen compositeBody_ne_cycleError
      | failed hub hopen hcall =>
        have hopened := (openComposite_eq_ok hopen).2
        apply ih _ hcall
        intro s hs m hm ub' hub'
        have hrefers := hbody _ _ _ _ hub hopened m hm ub' hub'
        rcases List.mem_cons.1 hs with rfl | hs
        · rw [hname _ _ hub]
          exact .single hrefers
        · exact (hstack s hs n hn _ hub).tail hrefers
      | expanded _ _ _ hsplice => exact absurd hsplice (spliceBody_ne_cycleError x)

/-- If references do not come back to a block, no composite cycle is found. -/
theorem expandComposites_ne_cycleError (hacyclic : ∀ t, ¬Relation.TransGen refers t t) (def_ x : Bytes) :
    expandComposites def_ resolve ≠ .error (cycleError x) := by
  intro h
  obtain ⟨calls, hcalls⟩ := expandCompositesWithin_returns def_ resolve
  rw [h, expandCompositesWithin] at hcalls
  split_ifs at hcalls
  · exact errorf_ne_cycleError (by decide) (Prod.mk.inj (Option.some.inj hcalls)).2
  · cases hroot : unmarshalRaw def_ with
    | none =>
      rw [hroot] at hcalls
      exact errorf_ne_cycleError (by decide) (Prod.mk.inj (Option.some.inj hcalls)).2
    | some root =>
      rw [hroot] at hcalls
      obtain ⟨⟨calls', result⟩, hrun, he⟩ := Option.map_eq_some_iff.1 hcalls
      cases result with
      | ok result => cases he
      | error e =>
        cases he
        refine hacyclic x (expandCompositesRec_cycle hname herror hbody ?_ hrun)
        intro s hs
        cases hs

end Cycle

/-- **Expansion ends, and leaves nothing to expand.** For every definition and every resolver,
`ExpandComposites` returns after finitely many calls of the resolver and with at most 33 calls of
`expandComposites` inside of each other. If it succeeds, no node of the result resolves to a user
block. If the types of bodies do not depend on the configuration and a user block that is reached from
the definition refers to itself through others, it returns an error. -/
theorem expandComposites_complete (def_ : Bytes) (resolve : Resolver) :
    ∃ calls result, expandCompositesWithin 33 def_ resolve = some (calls, result) ∧
      expandComposites def_ resolve = result ∧
      (∀ out, result = .ok out → ∃ nodes conns, out = marshalRaw nodes conns ∧
        ∀ n ∈ nodes, resolve n.blockType = .ok none) ∧
      ∀ root types, unmarshalRaw def_ = some root → FixedTypes resolve types →
        (∃ n ∈ root.blocks.elems, ∃ b,
          Relation.ReflTransGen (Refers resolve types) n.blockType b ∧
          Relation.TransGen (Refers resolve types) b b) →
        ∃ e, result = .error e := by
  obtain ⟨calls, hcalls⟩ := expandCompositesWithin_returns def_ resolve
  refine ⟨calls, _, hcalls, rfl, ?_, ?_⟩
  · intro out hout
    obtain ⟨root, ts, -, -, hts, conns, rfl⟩ := expandComposites_ok hout
    refine ⟨_, conns, rfl, fun n hn => ?_⟩
    obtain ⟨t, ht, hnt⟩ := mem_leavesAll.1 hn
    exact (hts t ht).leaves_builtin n hnt
  · rintro root types hroot hfixed ⟨n, hn, b, hreach, hcycle⟩
    cases hresult : expandComposites def_ resolve with
    | error e => exact ⟨e, rfl⟩
    | ok out =>
      exfalso
      obtain ⟨root', ts, hroot', hnodes, hts, -⟩ := expandComposites_ok hresult
      rw [hroot, Option.some.injEq] at hroot'
      subst hroot'
      rw [← hnodes, List.mem_map] at hn
      obtain ⟨t, ht, rfl⟩ := hn
      exact (hts t ht).acyclic hfixed b hreach hcycle

/-- A block whose body is a node of its own type. -/
def ouroboros : UserBlock where
  name := utf8 "loop"
  blockType := utf8 "producer"
  source := utf8 "\x7b\"blocks\":[\x7b\"name\":\"x\",\"block_type\":\"loop\"\x7d]\x7d"
  configSchema := []

def onlyOuroboros : Resolver := fun t => .ok (if t == utf8 "loop" then some ouroboros else none)

theorem expandComposites_complete_ouroboros :
    ∃ e, expandComposites ouroboros.source onlyOuroboros = .error e := by
  have hplain : ∀ t ub, onlyOuroboros t = .ok (some ub) → plainDefinition ub.source = true := by
    intro t ub h
    rw [onlyOuroboros] at h
    split_ifs at h
    · cases h
      decide +kernel
    · cases h
  have hself : Refers onlyOuroboros (bodyTypes onlyOuroboros) (utf8 "loop") (utf8 "loop") :=
    ⟨⟨ouroboros, rfl⟩, by decide +kernel⟩
  obtain ⟨root, hroot, n, hn, htype⟩ : ∃ root, unmarshalRaw ouroboros.source = some root ∧
      ∃ n ∈ root.blocks.elems, n.blockType = utf8 "loop" :=
    ⟨_, rfl, _, List.mem_cons_self, rfl⟩
  obtain ⟨calls, result, -, hresult, -, hcycle⟩ :=
    expandComposites_complete ouroboros.source onlyOuroboros
  obtain ⟨e, he⟩ := hcycle root _ hroot (fixedTypes_of_plain hplain)
    ⟨n, hn, utf8 "loop", by rw [htype], .single hself⟩
  exact ⟨e, hresult.trans he⟩

end Astrate.Flow
