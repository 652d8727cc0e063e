import Astrate.FlowApi.UserBlocks

/-!
# Configurations of composites

The part of `internal/flowapi/service.go` that expands the stored composites of a pipeline. The
configurations of its nodes are checked against the schemas of their composites first
(`validateCompositeConfigs`), and then the definition is expanded. The check sees the nodes of the
definition, not those that bodies bring in.
-/

set_option autoImplicit false

namespace Astrate.FlowApi

open Astrate.GoLib Astrate.Flow
open Astrate.GoLib.Json (Projects Slice StructField decodeStruct decodeStruct_project findField foldName
  scanDocument)

variable {σ : Type}

/-- The structure with the field `blocks` only. A `configNode` has the fields of a `PipelineNode`. -/
def shapeFields : List (StructField (Slice PipelineNode)) := [blocksField (fun s => s) fun _ v => v]

def decodePipelineNodes (def_ : Bytes) : Except ApiError (List PipelineNode) :=
  match (scanDocument def_).bind (decodeStruct shapeFields false .nil) with
  | none => .error (.validation ⟨"%v", [.err]⟩)
  | some nodes => .ok nodes.elems

/-- The schemas by the names of their blocks, which are distinct. -/
def compiledCompositeSchemas (svc : Service σ) : List UserBlock → Except ApiError (List (Bytes × σ))
  | [] => .ok []
  | ub :: rest =>
    if ub.configSchema.isEmpty || ub.name.isEmpty then compiledCompositeSchemas svc rest
    else
      match svc.schemas.compile ub.configSchema with
      | .error e => .error (.validation ⟨"composite %q: " ++ e.format, .str ub.name :: e.args⟩)
      | .ok sch => (compiledCompositeSchemas svc rest).map ((ub.name, sch) :: ·)

/-- The loop of `validateCompositeConfigs`. -/
def checkConfigs (svc : Service σ) (schemas : List (Bytes × σ)) : List PipelineNode → Except ApiError Unit
  | [] => .ok ()
  | n :: ns =>
    match schemas.lookup n.blockType with
    | none => checkConfigs svc schemas ns
    | some sch =>
      if svc.schemas.validate sch n.config then checkConfigs svc schemas ns
      else
        .error (.validation ⟨"block %q (composite %q): config does not match its schema: %v",
          [.str n.name, .str n.blockType, .err]⟩)

/-- `validateCompositeConfigs`. -/
def validateCompositeConfigs (svc : Service σ) (nodes : List PipelineNode) (stored : List UserBlock) :
    Except ApiError Unit := do
  let schemas ← compiledCompositeSchemas svc stored
  checkConfigs svc schemas nodes

/-- `expandStoredComposites`. -/
def expandStoredComposites (svc : Service σ) (table : UserBlockTable) (def_ : Bytes) :
    Except ApiError Bytes := do
  let nodes ← decodePipelineNodes def_
  if nodes.all fun n => svc.has n.blockType then .ok def_
  else if table.rows.isEmpty then .ok def_
  else do
    validateCompositeConfigs svc nodes table.rows
    (expandComposites def_ (resolverFromStored svc table)).mapError .validation

/-! ## The nodes that are checked -/

/-- The field that a member name refers to, in both structures. -/
theorem findField_shape (name : Bytes) :
    findField rawDefinitionFields name =
        some (blocksField (·.blocks) fun d v => { d with blocks := v }) ∧
      findField shapeFields name = some (blocksField (fun s => s) fun _ v => v) ∨
    findField rawDefinitionFields name =
        some (connectionsField (·.connections) fun d v => { d with connections := v }) ∧
      findField shapeFields name = none ∨
    findField rawDefinitionFields name = none ∧ findField shapeFields name = none := by
  have hfold : (foldName (utf8 "blocks") == foldName (utf8 "connections")) = false := by decide
  have hne : (utf8 "blocks" == utf8 "connections") = false := by decide
  by_cases hblocks : utf8 "blocks" = name
  · subst hblocks
    exact Or.inl ⟨rfl, rfl⟩
  · by_cases hconns : utf8 "connections" = name
    · subst hconns
      refine Or.inr (Or.inl ⟨rfl, ?_⟩)
      simp [findField, shapeFields, blocksField, hne, hfold]
    · by_cases hfblocks : foldName (utf8 "blocks") = foldName name
      · refine Or.inl ⟨?_, ?_⟩
        · simp [findField, rawDefinitionFields, blocksField, connectionsField, hblocks, hconns, hfblocks]
        · simp [findField, shapeFields, blocksField, hblocks, hfblocks]
      · by_cases hfconns : foldName (utf8 "connections") = foldName name
        · refine Or.inr (Or.inl ⟨?_, ?_⟩)
          · simp [findField, rawDefinitionFields, blocksField, connectionsField, hblocks, hconns,
              hfblocks, hfconns]
          · simp [findField, shapeFields, blocksField, hblocks, hfblocks]
        · refine Or.inr (Or.inr ⟨?_, ?_⟩)
          · simp [findField, rawDefinitionFields, blocksField, connectionsField, hblocks, hconns,
              hfblocks, hfconns]
          · simp [findField, shapeFields, blocksField, hblocks, hfblocks]

/-- The nodes that are checked are those that are expanded. -/
theorem decodePipelineNodes_eq {def_ : Bytes} {nodes : List PipelineNode} {root : RawDefinition}
    (hnodes : decodePipelineNodes def_ = .ok nodes) (hroot : unmarshalRaw def_ = some root) :
    nodes = root.blocks.elems := by
  obtain ⟨t, ht, hdecode⟩ := Option.bind_eq_some_iff.1 hroot
  have hprojects : Projects rawDefinitionFields shapeFields RawDefinition.blocks := by
    intro name s v s' f hf hset
    rcases findField_shape name with ⟨hraw, hshape⟩ | ⟨hraw, hshape⟩ | ⟨hraw, hshape⟩ <;>
      rw [hraw] at hf <;> rw [hshape] <;> cases hf
    · obtain ⟨slice, hslice, rfl⟩ := Option.map_eq_some_iff.1 hset
      exact Option.map_eq_some_iff.2 ⟨slice, hslice, rfl⟩
    · obtain ⟨slice, -, rfl⟩ := Option.map_eq_some_iff.1 hset
      rfl
  have hless : ∀ name, findField rawDefinitionFields name = none → findField shapeFields name = none := by
    intro name h
    rcases findField_shape name with ⟨hraw, -⟩ | ⟨hraw, -⟩ | ⟨-, hshape⟩
    · rw [hraw] at h
      cases h
    · rw [hraw] at h
      cases h
    · exact hshape
  have hproject := decodeStruct_project hprojects hless hdecode
  rw [decodePipelineNodes, ht, Option.bind_some, show Slice.nil = RawDefinition.blocks {} from rfl,
    hproject] at hnodes
  exact (Except.ok.inj hnodes).symm

/-- The schema of every stored block that has one is compiled under its name. -/
theorem lookup_compiledCompositeSchemas {svc : Service σ} {stored : List UserBlock}
    {schemas : List (Bytes × σ)} (hunique : (stored.map (·.name)).Nodup)
    (h : compiledCompositeSchemas svc stored = .ok schemas) {ub : UserBlock} (hub : ub ∈ stored)
    (hschema : ub.configSchema ≠ []) (hname : ub.name ≠ []) :
    ∃ sch, svc.schemas.compile ub.configSchema = .ok sch ∧ schemas.lookup ub.name = some sch := by
  induction stored generalizing schemas with
  | nil => cases hub
  | cons b rest ih =>
    rw [List.map_cons, List.nodup_cons] at hunique
    rw [compiledCompositeSchemas] at h
    split_ifs at h with hskip
    · -- a block without a schema is not the one that is looked up
      rcases List.mem_cons.1 hub with rfl | hub
      · simp [hschema, hname] at hskip
      · exact ih hunique.2 h hub
    · cases hcompile : svc.schemas.compile b.configSchema with
      | error e =>
        rw [hcompile] at h
        cases h
      | ok sch =>
        rw [hcompile] at h
        obtain ⟨schemas', hrest, rfl⟩ := map_eq_ok_iff.1 h
        rcases List.mem_cons.1 hub with rfl | hub
        · exact ⟨sch, hcompile, List.lookup_cons_self⟩
        · obtain ⟨sch', hsch', hlookup⟩ := ih hunique.2 hrest hub
          refine ⟨sch', hsch', ?_⟩
          have hne : ub.name ≠ b.name := fun he => hunique.1 (he ▸ List.mem_map_of_mem hub)
          rw [List.lookup_cons, beq_false_of_ne hne]
          exact hlookup

theorem checkConfigs_eq_ok_iff {svc : Service σ} {schemas : List (Bytes × σ)} {nodes : List PipelineNode} :
    checkConfigs svc schemas nodes = .ok () ↔ ∀ n ∈ nodes, ∀ sch,
      schemas.lookup n.blockType = some sch → svc.schemas.validate sch n.config = true := by
  induction nodes with
  | nil => simp [checkConfigs]
  | cons n ns ih =>
    rw [checkConfigs, List.forall_mem_cons, ← ih]
    cases schemas.lookup n.blockType with
    | none => simp
    | some sch => by_cases hvalid : svc.schemas.validate sch n.config = true <;> simp [hvalid]

/-! ## The depth of the check -/

/-- A composite whose block has a schema has a configuration that matches it. -/
def ValidConfig (svc : Service σ) : Flow.Tree → Prop
  | .leaf _ => True
  | .composite n ub _ _ => ub.configSchema = [] ∨
      ∃ sch, svc.schemas.compile ub.configSchema = .ok sch ∧ svc.schemas.validate sch n.config = true

/-- The check of the definition's nodes covers a composite: its block has no schema, or one of these nodes has
the same configuration and, by its type, the same schema. -/
def Covered (table : UserBlockTable) (nodes : List PipelineNode) : Flow.Tree → Prop
  | .leaf _ => True
  | .composite n ub _ _ => ub.configSchema = [] ∨ ∃ m ∈ nodes, m.config = n.config ∧
      ∃ b ∈ table.rows, b.name = m.blockType ∧ b.configSchema = ub.configSchema

section Checked

variable {svc : Service σ} {table : UserBlockTable} {def_ out : Bytes} {root : RawDefinition} {t : Flow.Tree}
  {ts : List Flow.Tree}

/-- A definition with a composite is expanded after the check. -/
theorem checked_of_composite (h : expandStoredComposites svc table def_ = .ok out)
    (hroot : unmarshalRaw def_ = some root) (ht : t.node ∈ root.blocks.elems)
    (hunfolded : t.Unfolded (resolverFromStored svc table)) (hcomposite : t.isComposite = true) :
    validateCompositeConfigs svc root.blocks.elems table.rows = .ok () := by
  cases hunfolded with
  | leaf _ => cases hcomposite
  | @composite n ub ts cs hresolve _ _ =>
    obtain ⟨hhas, b, hrow, -⟩ : svc.has n.blockType = false ∧
        ∃ b ∈ table.rows, b.name = n.blockType ∧ some ub = some b := by
      rcases storedResolver_eq_ok hresolve with ⟨-, h⟩ | h
      · cases h
      · exact h
    obtain ⟨nodes, hnodes, h⟩ := bind_eq_ok_iff.1 h
    rw [← decodePipelineNodes_eq hnodes hroot] at ht ⊢
    split_ifs at h with hbuiltin hempty
    · have hall := List.all_eq_true.1 hbuiltin _ ht
      rw [show (Flow.Tree.composite n ub ts cs).node = n from rfl, hhas] at hall
      cases hall
    · rw [List.isEmpty_iff] at hempty
      rw [hempty] at hrow
      cases hrow
    · exact (bind_eq_ok_iff.1 h).choose_spec.1

/-- What the check covers is valid. -/
theorem validConfig_of_covered {nodes : List PipelineNode}
    (hcheck : validateCompositeConfigs svc nodes table.rows = .ok ()) (hcovered : Covered table nodes t) :
    ValidConfig svc t := by
  cases t with
  | leaf n => trivial
  | composite n ub cs conns =>
    by_cases hschema : ub.configSchema = []
    · exact .inl hschema
    · obtain ⟨m, hm, hconfig, b, hb, hname, hsame⟩ := hcovered.resolve_left hschema
      obtain ⟨schemas, hschemas, hcheck⟩ := bind_eq_ok_iff.1 hcheck
      have hnamed : b.name ≠ [] := fun he => table.named (he ▸ List.mem_map_of_mem hb)
      obtain ⟨sch, hcompile, hlookup⟩ :=
        lookup_compiledCompositeSchemas table.unique hschemas hb (hsame ▸ hschema) hnamed
      exact .inr ⟨sch, hsame ▸ hcompile, hconfig ▸ checkConfigs_eq_ok_iff.1 hcheck m hm sch (hname ▸ hlookup)⟩

theorem covered_top {nodes : List PipelineNode} (ht : t.node ∈ nodes)
    (hunfolded : t.Unfolded (resolverFromStored svc table)) : Covered table nodes t := by
  cases hunfolded with
  | leaf _ => trivial
  | @composite n ub ts cs hresolve _ _ =>
    rcases storedResolver_eq_ok hresolve with ⟨-, h⟩ | ⟨-, b, hb, hname, h⟩ <;> cases h
    exact .inr ⟨n, ht, rfl, ub, hb, hname, rfl⟩

/-- Bodies are those of composites, so there is one at the top. -/
theorem composite_top {d : Nat} {level : List Flow.Tree} (hlevel : Level ts d level) (ht : t ∈ level)
    (hcomposite : t.isComposite = true) : ∃ t' ∈ ts, t'.isComposite = true := by
  induction hlevel generalizing t with
  | top => exact ⟨t, ht, hcomposite⟩
  | @body d level t' _ ht' ih =>
    cases t' with
    | leaf n => cases ht
    | composite n ub cs conns => exact ih ht' rfl

/-- The schema library that accepts no more than the check asks for; a schema is its text. -/
noncomputable def leastLib (table : UserBlockTable) (nodes : List PipelineNode) : SchemaLib Bytes where
  compile := .ok
  validate := fun sch config => open Classical in decide (∃ m ∈ nodes, m.config = config ∧
    ∃ b ∈ table.rows, b.name = m.blockType ∧ b.configSchema = sch)

theorem compiled_leastLib (has : Bytes → Bool) (nodes : List PipelineNode) (stored : List UserBlock) :
    ∃ schemas, compiledCompositeSchemas ⟨has, leastLib table nodes⟩ stored = .ok schemas ∧
      ∀ e ∈ schemas, ∃ b ∈ stored, b.name = e.1 ∧ b.configSchema = e.2 := by
  induction stored with
  | nil => exact ⟨[], rfl, by simp⟩
  | cons b rest ih =>
    obtain ⟨schemas, hschemas, hrows⟩ := ih
    have hrest : ∀ e ∈ schemas, ∃ b' ∈ b :: rest, b'.name = e.1 ∧ b'.configSchema = e.2 := by
      intro e he
      obtain ⟨b', hb', heq⟩ := hrows e he
      exact ⟨b', List.mem_cons_of_mem _ hb', heq⟩
    rw [compiledCompositeSchemas, hschemas]
    split_ifs
    · exact ⟨schemas, rfl, hrest⟩
    · exact ⟨(b.name, b.configSchema) :: schemas, rfl,
        List.forall_mem_cons.2 ⟨⟨b, List.mem_cons_self, rfl, rfl⟩, hrest⟩⟩

theorem leastLib_accepts (h : expandStoredComposites svc table def_ = .ok out)
    (hroot : unmarshalRaw def_ = some root) :
    expandStoredComposites ⟨svc.has, leastLib table root.blocks.elems⟩ table def_ = .ok out := by
  obtain ⟨nodes, hnodes, h⟩ := bind_eq_ok_iff.1 h
  refine bind_eq_ok_iff.2 ⟨nodes, hnodes, ?_⟩
  split_ifs at h ⊢
  · exact h
  · exact h
  · refine bind_eq_ok_iff.2 ⟨(), ?_, (bind_eq_ok_iff.1 h).choose_spec.2⟩
    obtain ⟨schemas, hschemas, hrows⟩ :=
      @compiled_leastLib table svc.has root.blocks.elems table.rows
    refine bind_eq_ok_iff.2 ⟨schemas, hschemas, checkConfigs_eq_ok_iff.2 fun n hn sch hsch => ?_⟩
    rw [decodePipelineNodes_eq hnodes hroot] at hn
    obtain ⟨b, hb, hname, hsame⟩ := hrows _ (mem_of_lookup hsch)
    classical exact decide_eq_true ⟨n, hn, rfl, b, hb, hname, hsame⟩

theorem covered_of_leastLib {nodes : List PipelineNode} {has : Bytes → Bool}
    (h : ValidConfig ⟨has, leastLib table nodes⟩ t) : Covered table nodes t := by
  cases t with
  | leaf n => trivial
  | composite n ub cs conns =>
    refine h.imp_right ?_
    rintro ⟨sch, hcompile, hvalid⟩
    cases hcompile
    classical exact of_decide_eq_true hvalid

end Checked

/-- **Schemas are enforced on the nodes of the definition.** For every realm and every definition that
`expandStoredComposites` accepts, the configuration of every composite among its nodes matches the
schema of its block. That configurations match at every depth, whatever the schemas say, holds exactly if a
composite that a body brings in has the schema and the configuration of a node of the definition, or no
schema. -/
theorem expandStoredComposites_validates (svc : Service σ) (table : UserBlockTable) (def_ out : Bytes)
    (h : expandStoredComposites svc table def_ = .ok out) (root : RawDefinition)
    (hroot : unmarshalRaw def_ = some root) (ts : List Flow.Tree)
    (hnodes : ts.map Flow.Tree.node = root.blocks.elems)
    (hts : ∀ t ∈ ts, t.Unfolded (resolverFromStored svc table)) :
    (∀ t ∈ ts, ValidConfig svc t) ∧
    ((∀ (τ : Type) (schemas : SchemaLib τ) (out' : Bytes),
        expandStoredComposites ⟨svc.has, schemas⟩ table def_ = .ok out' →
        ∀ d level, Level ts d level → ∀ t ∈ level, ValidConfig ⟨svc.has, schemas⟩ t) ↔
      ∀ d level, Level ts (d + 1) level → ∀ t ∈ level, Covered table root.blocks.elems t) := by
  have hnode : ∀ t ∈ ts, t.node ∈ root.blocks.elems := fun t ht => hnodes ▸ List.mem_map_of_mem ht
  have hcovered : ∀ t ∈ ts, Covered table root.blocks.elems t := fun t ht => covered_top (hnode t ht) (hts t ht)
  -- what is covered is valid for every library that accepts the definition
  have hvalid : ∀ (τ : Type) (schemas : SchemaLib τ) (out' : Bytes),
      expandStoredComposites ⟨svc.has, schemas⟩ table def_ = .ok out' → ∀ d level, Level ts d level →
      ∀ t ∈ level, Covered table root.blocks.elems t → ValidConfig ⟨svc.has, schemas⟩ t := by
    intro τ schemas out' h d level hlevel t ht hcovered
    cases t with
    | leaf n => trivial
    | composite n ub cs conns =>
      obtain ⟨t', ht', hcomposite⟩ := composite_top hlevel ht rfl
      exact validConfig_of_covered (checked_of_composite h hroot (hnode t' ht') (hts t' ht') hcomposite) hcovered
  refine ⟨fun t ht => hvalid σ svc.schemas out h 0 ts .top t ht (hcovered t ht), ?_, ?_⟩
  · intro hall d level hlevel t ht
    exact covered_of_leastLib (hall _ _ out (leastLib_accepts h hroot) (d + 1) level hlevel t ht)
  · intro hbelow τ schemas out' h d level hlevel t ht
    refine hvalid τ schemas out' h d level hlevel t ht ?_
    cases d with
    | zero =>
      cases hlevel
      exact hcovered t ht
    | succ d => exact hbelow d level hlevel t ht

/-- A service with one schema. -/
def serviceWith (validate : Config → Bool) : Service Unit where
  has := fun t => t == utf8 "filter"
  schemas := ⟨fun _ => .ok (), fun _ => validate⟩

/-- A block with a schema, and one that uses it without a configuration. -/
def innerRow : UserBlock :=
  ⟨utf8 "In", utf8 "producer", oneNode "filter", utf8 "\x7b\"required\":[\"key\"]\x7d"⟩

def outerRow : UserBlock := ⟨utf8 "Out", utf8 "producer", oneNode "In", []⟩

theorem nestedTable_unique : ([innerRow, outerRow].map (·.name)).Nodup := by decide

theorem nestedTable_named : [] ∉ [innerRow, outerRow].map (·.name) := by decide

def nestedTable : UserBlockTable := ⟨[innerRow, outerRow], nestedTable_unique, nestedTable_named⟩

def innerTree : Flow.Tree :=
  .composite ⟨utf8 "x", utf8 "In", []⟩ innerRow [.leaf ⟨utf8 "x", utf8 "filter", []⟩] []

def outerTree : Flow.Tree := .composite ⟨utf8 "x", utf8 "Out", []⟩ outerRow [innerTree] []

theorem innerTree_unfolded (validate : Config → Bool) :
    innerTree.Unfolded (resolverFromStored (serviceWith validate) nestedTable) := by
  have hsrc : substituteConfig innerRow.source [] = .ok
      (utf8 "\x7b\"blocks\":[\x7b\"block_type\":\"filter\",\"name\":\"x\"\x7d]\x7d") := by decide +kernel
  refine .composite rfl (compositeBody_single hsrc rfl (by decide)) fun t ht => ?_
  rw [List.mem_singleton.1 ht]
  exact .leaf rfl

theorem outerTree_unfolded (validate : Config → Bool) :
    outerTree.Unfolded (resolverFromStored (serviceWith validate) nestedTable) := by
  have hsrc : substituteConfig outerRow.source [] = .ok
      (utf8 "\x7b\"blocks\":[\x7b\"block_type\":\"In\",\"name\":\"x\"\x7d]\x7d") := by decide +kernel
  refine .composite rfl (compositeBody_single hsrc rfl (by decide)) fun t ht => ?_
  rw [List.mem_singleton.1 ht]
  exact innerTree_unfolded validate

theorem expandStoredComposites_validates_inner :
    (expandStoredComposites (serviceWith List.isEmpty) nestedTable (oneNode "In")).toOption.isSome = true ∧
    ∀ d level, Level [innerTree] d level → ∀ t ∈ level, ValidConfig (serviceWith List.isEmpty) t := by
  have hsome : (expandStoredComposites (serviceWith List.isEmpty) nestedTable
      (oneNode "In")).toOption.isSome = true := by decide +kernel
  obtain ⟨out, hout⟩ := Option.isSome_iff_exists.1 hsome
  have hroot : unmarshalRaw (oneNode "In") = some ⟨.ofList [innerTree.node], .nil⟩ := rfl
  refine ⟨hsome, ?_⟩
  refine (expandStoredComposites_validates _ nestedTable (oneNode "In") out
    (toOption_eq_some_iff.1 hout) _ hroot [innerTree] rfl ?_).2.2 ?_ _ _ out (toOption_eq_some_iff.1 hout)
  · intro t ht
    rw [List.mem_singleton.1 ht]
    exact innerTree_unfolded _
  · -- below the node there is its body, and nothing below that
    intro d level hlevel
    have hbelow : level = innerTree.children ∨ level = [] := by
      generalize hd : d + 1 = d' at hlevel
      induction hlevel generalizing d with
      | top => cases hd
      | @body d'' level t hlevel ht ih =>
        cases d'' with
        | zero =>
          cases hlevel
          rw [List.mem_singleton.1 ht]
          exact Or.inl rfl
        | succ d'' =>
          rcases ih d'' rfl with rfl | rfl
          · rw [List.mem_singleton.1 ht]
            exact Or.inr rfl
          · cases ht
    rcases hbelow with rfl | rfl
    · intro t ht
      rw [List.mem_singleton.1 ht]
      trivial
    · exact fun _ ht => absurd ht List.not_mem_nil

/-- The schema demands a key. -/
def hasKey (config : Config) : Bool := (config.lookup (utf8 "key")).isSome

/-- The definition that uses `Out` is accepted, though the node of type `In` in its body has a
configuration without the key. -/
theorem nested_config_unchecked :
    (∃ out, expandStoredComposites (serviceWith hasKey) nestedTable (oneNode "Out") = .ok out) ∧
    unmarshalRaw (oneNode "Out") = some ⟨.ofList [outerTree.node], .nil⟩ ∧
    outerTree.Unfolded (resolverFromStored (serviceWith hasKey) nestedTable) ∧
    Level [outerTree] 1 [innerTree] ∧ ¬ValidConfig (serviceWith hasKey) innerTree := by
  have hsome : (expandStoredComposites (serviceWith hasKey) nestedTable
      (oneNode "Out")).toOption.isSome = true := by decide +kernel
  obtain ⟨out, hout⟩ := Option.isSome_iff_exists.1 hsome
  refine ⟨⟨out, toOption_eq_some_iff.1 hout⟩, rfl, outerTree_unfolded hasKey,
    .body .top (List.mem_singleton_self _), ?_⟩
  rintro (hnone | ⟨sch, -, hvalid⟩)
  · revert hnone
    decide
  · cases hvalid

end Astrate.FlowApi
