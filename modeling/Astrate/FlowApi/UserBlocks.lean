import Astrate.Flow.Composite
import Astrate.GoLib.Acyclic
import Astrate.GoLib.Schedule

/-!
# User blocks

`internal/flowapi/userblocks.go` over `internal/store/userblocks.go`: the composites of one realm, and the
calls that create and update them. A source is accepted if it expands against the blocks that are stored
at the time of the call, which for an update includes the old version of the block itself.

The references of a block are the types in its source. `step_acyclic_iff` says when a call keeps them
acyclic: a creation always does, since nothing refers to a block that is not there yet; an update does
if no type of the new source leads back to the block.
-/

set_option autoImplicit false

namespace Astrate.FlowApi

open Astrate.GoLib Astrate.Flow

/-- The schema library: schemas are compiled from their text and applied to configurations. -/
structure SchemaLib (σ : Type) where
  compile : Bytes → Except FmtError σ
  validate : σ → Config → Bool

/-- What a service is made with: the types of its block registry, and the schema library. -/
structure Service (σ : Type) where
  has : Bytes → Bool
  schemas : SchemaLib σ

/-- The errors of calls. -/
inductive ApiError where
  /-- An error that wraps `ErrValidation`. -/
  | validation (cause : FmtError)
  | alreadyExists (name : Bytes)
  | notFound (name : Bytes)
  /-- `flow.ErrFlowExists` -/
  | flowExists (instanceID : Bytes)
  | graph (cause : FmtError)
  | drain (instanceID : Bytes)
  /-- Any other error of the store. -/
  | store
  deriving DecidableEq

/-- The rows of a realm. The name is a key, and no row is inserted without one. -/
structure UserBlockTable where
  rows : List UserBlock
  unique : (rows.map (·.name)).Nodup
  named : [] ∉ rows.map (·.name)
  deriving DecidableEq

namespace UserBlockTable

def empty : UserBlockTable := ⟨[], List.nodup_nil, List.not_mem_nil⟩

def names (table : UserBlockTable) : List Bytes := table.rows.map (·.name)

/-- The block of a name. -/
def find (table : UserBlockTable) (name : Bytes) : Option UserBlock :=
  table.rows.find? fun b => b.name == name

def insert (table : UserBlockTable) (b : UserBlock) (hnew : b.name ∉ table.names) (hname : b.name ≠ []) :
    UserBlockTable where
  rows := b :: table.rows
  unique := List.nodup_cons.2 ⟨hnew, table.unique⟩
  named := fun h => (List.mem_cons.1 h).elim (fun he => hname he.symm) table.named

/-- The row of an update. -/
def replaceIn (b row : UserBlock) : UserBlock := if row.name == b.name then b else row

theorem name_replaceIn (b row : UserBlock) : (replaceIn b row).name = row.name := by
  rw [replaceIn]
  split_ifs with h
  · exact (beq_iff_eq.1 h).symm
  · rfl

theorem names_replaceIn (b : UserBlock) (rows : List UserBlock) :
    (rows.map (replaceIn b)).map (·.name) = rows.map (·.name) := by
  rw [List.map_map]
  exact List.map_congr_left fun row _ => name_replaceIn b row

def replace (table : UserBlockTable) (b : UserBlock) : UserBlockTable where
  rows := table.rows.map (replaceIn b)
  unique := by
    rw [names_replaceIn]
    exact table.unique
  named := by
    rw [names_replaceIn]
    exact table.named

theorem names_replace (table : UserBlockTable) (b : UserBlock) : (table.replace b).names = table.names :=
  names_replaceIn b table.rows

theorem find_eq_some {table : UserBlockTable} {name : Bytes} {b : UserBlock} :
    table.find name = some b ↔ b ∈ table.rows ∧ b.name = name := by
  rw [find]
  constructor
  · intro h
    exact ⟨List.mem_of_find?_eq_some h, by simpa using List.find?_some h⟩
  · rintro ⟨hb, rfl⟩
    cases h : table.rows.find? fun b' => b'.name == b.name with
    | none => exact absurd (beq_self_eq_true _) (List.find?_eq_none.1 h b hb)
    | some b' =>
      have hname : b'.name = b.name := by simpa using List.find?_some h
      rw [List.inj_on_of_nodup_map table.unique (List.mem_of_find?_eq_some h) hb hname]

theorem mem_names {table : UserBlockTable} {name : Bytes} :
    name ∈ table.names ↔ ∃ b ∈ table.rows, b.name = name := List.mem_map

end UserBlockTable

variable {σ : Type}

/-! ## The calls -/

/-- A resolver over stored blocks: built-in types pass through, and a type that is neither built in nor
stored is an error. -/
def storedResolver (missing : String) (svc : Service σ) (table : UserBlockTable) : Resolver := fun name =>
  if svc.has name then .ok none
  else
    match table.find name with
    | some b => .ok (some b)
    | none => errorf missing [.str name]

/-- The resolver for sources of user blocks. -/
def userBlockResolver (svc : Service σ) (table : UserBlockTable) : Resolver :=
  storedResolver "references composite %q which does not exist yet" svc table

/-- The resolver for pipelines. -/
def resolverFromStored (svc : Service σ) (table : UserBlockTable) : Resolver :=
  storedResolver "unknown composite %q" svc table

variable {svc : Service σ} {table : UserBlockTable}

theorem storedResolver_eq_ok {missing : String} {t : Bytes} {found : Option UserBlock}
    (h : storedResolver missing svc table t = .ok found) :
    svc.has t = true ∧ found = none ∨ svc.has t = false ∧ ∃ b ∈ table.rows, b.name = t ∧ found = some b := by
  rw [storedResolver] at h
  cases hhas : svc.has t with
  | true =>
    rw [hhas] at h
    cases h
    exact .inl ⟨rfl, rfl⟩
  | false =>
    rw [hhas] at h
    cases hfind : table.find t with
    | none =>
      rw [hfind] at h
      cases h
    | some b =>
      rw [hfind] at h
      cases h
      obtain ⟨hb, hname⟩ := UserBlockTable.find_eq_some.1 hfind
      exact .inr ⟨rfl, b, hb, hname, rfl⟩

def validateConfigSchema (svc : Service σ) (schema : Bytes) : Except ApiError Unit :=
  if schema.isEmpty then .ok ()
  else ((svc.schemas.compile schema).map fun _ => ()).mapError .validation

/-- `validateUserBlockBody`. -/
def validateUserBlockBody (svc : Service σ) (table : UserBlockTable) (blockType source schema : Bytes) :
    Except ApiError Unit := do
  if !(blockType == utf8 "producer" || blockType == utf8 "consumer" ||
      blockType == utf8 "producer_consumer") then
    .error (.validation ⟨"block_type must be producer, consumer or producer_consumer", []⟩)
  validateConfigSchema svc schema
  match expandComposites source (userBlockResolver svc table) with
  | .error e => .error (.validation e)
  | .ok _ => .ok ()

/-- `CreateUserBlock` in a realm that exists. -/
def createUserBlock (svc : Service σ) (table : UserBlockTable) (name blockType source schema : Bytes) :
    Except ApiError UserBlockTable :=
  if hname : name.isEmpty then .error (.validation ⟨"user block name is required", []⟩)
  else if svc.has name then
    .error (.validation ⟨"block type %q collides with a built-in block", [.str name]⟩)
  else
    match validateUserBlockBody svc table blockType source schema with
    | .error e => .error e
    | .ok _ =>
      if hnew : table.names.contains name then .error (.alreadyExists name)
      else
        .ok (table.insert ⟨name, blockType, source, schema⟩ (fun h => hnew (List.contains_iff_mem.2 h))
          fun h => hname (List.isEmpty_iff.2 h))

/-- `UpdateUserBlock` in a realm that exists. -/
def updateUserBlock (svc : Service σ) (table : UserBlockTable) (name blockType source schema : Bytes) :
    Except ApiError UserBlockTable :=
  if svc.has name then .error (.validation ⟨"built-in blocks cannot be modified", []⟩)
  else
    match validateUserBlockBody svc table blockType source schema with
    | .error e => .error e
    | .ok _ =>
      if table.names.contains name then .ok (table.replace ⟨name, blockType, source, schema⟩)
      else .error (.notFound name)

/-- A call with its arguments. -/
inductive BlockCall where
  | create (name blockType source schema : Bytes)
  | update (name blockType source schema : Bytes)

/-- A call that succeeds. -/
def step (svc : Service σ) (table : UserBlockTable) : BlockCall → Option UserBlockTable
  | .create name blockType source schema =>
    (createUserBlock svc table name blockType source schema).toOption
  | .update name blockType source schema =>
    (updateUserBlock svc table name blockType source schema).toOption

/-! ## References -/

/-- The types in a source. -/
def sourceTypes (source : Bytes) : List Bytes :=
  match unmarshalRaw source with
  | none => []
  | some raw => raw.blocks.elems.map (·.blockType)

/-- The stored block `a` has the stored block `b` as a type in its source. -/
def Refers (table : UserBlockTable) (a b : Bytes) : Prop :=
  ∃ row ∈ table.rows, row.name = a ∧ b ∈ sourceTypes row.source ∧ b ∈ table.names

/-- Every type in a stored source is built in or stored, and no stored block has a built-in name. -/
structure Closed (svc : Service σ) (table : UserBlockTable) : Prop where
  types : ∀ row ∈ table.rows, ∀ t ∈ sourceTypes row.source, svc.has t = true ∨ t ∈ table.names
  custom : ∀ name ∈ table.names, svc.has name = false

theorem closed_empty (svc : Service σ) : Closed svc .empty :=
  ⟨fun _ h => absurd h List.not_mem_nil, fun _ h => absurd h List.not_mem_nil⟩

/-- The types of a source that expands are built in or stored. -/
theorem sourceTypes_of_expand {source out : Bytes}
    (h : expandComposites source (userBlockResolver svc table) = .ok out) :
    ∀ t ∈ sourceTypes source, svc.has t = true ∨ t ∈ table.names := by
  obtain ⟨root, ts, hroot, hnodes, hts, -⟩ := expandComposites_ok h
  intro t ht
  rw [sourceTypes, hroot] at ht
  dsimp only at ht
  rw [← hnodes, List.map_map, List.mem_map] at ht
  obtain ⟨tree, htree, rfl⟩ := ht
  have hresolved : ∃ found, userBlockResolver svc table tree.node.blockType = .ok found := by
    cases hts tree htree with
    | leaf hresolve => exact ⟨_, hresolve⟩
    | composite hresolve _ _ => exact ⟨_, hresolve⟩
  obtain ⟨found, hresolve⟩ := hresolved
  rcases storedResolver_eq_ok hresolve with ⟨hhas, -⟩ | ⟨-, b, hb, hname, -⟩
  · exact Or.inl hhas
  · exact Or.inr (UserBlockTable.mem_names.2 ⟨b, hb, hname⟩)

theorem validateUserBlockBody_ok
    {blockType source schema : Bytes} (h : validateUserBlockBody svc table blockType source schema = .ok ()) :
    ∃ out, expandComposites source (userBlockResolver svc table) = .ok out := by
  rw [validateUserBlockBody] at h
  split_ifs at h
  · cases h
  · obtain ⟨_, -, h⟩ := bind_eq_ok_iff.1 h
    cases hexpand : expandComposites source (userBlockResolver svc table) with
    | error e =>
      rw [hexpand] at h
      cases h
    | ok out => exact ⟨out, rfl⟩

/-- What a call that succeeds does. -/
inductive Goes (svc : Service σ) (table : UserBlockTable) : BlockCall → UserBlockTable → Prop
  | create {name blockType source schema out : Bytes} (hname : name ≠ []) (hhas : svc.has name = false)
      (hnew : name ∉ table.names) (hexpand : expandComposites source (userBlockResolver svc table) = .ok out) :
      Goes svc table (.create name blockType source schema)
        (table.insert ⟨name, blockType, source, schema⟩ hnew hname)
  | update {name blockType source schema out : Bytes} (hold : name ∈ table.names)
      (hexpand : expandComposites source (userBlockResolver svc table) = .ok out) :
      Goes svc table (.update name blockType source schema) (table.replace ⟨name, blockType, source, schema⟩)

variable {table' : UserBlockTable} {call : BlockCall}

theorem goes_of_step (h : step svc table call = some table') : Goes svc table call table' := by
  cases call with
  | create name blockType source schema =>
    rw [step, toOption_eq_some_iff, createUserBlock] at h
    cases hvalid : validateUserBlockBody svc table blockType source schema with
    | error e =>
      rw [hvalid] at h
      split_ifs at h
    | ok u =>
      rw [hvalid] at h
      obtain ⟨out, hexpand⟩ := validateUserBlockBody_ok hvalid
      split_ifs at h with hname hhas hnew
      cases h
      exact .create (fun he => hname (List.isEmpty_iff.2 he)) (by simpa using hhas)
        (fun hmem => hnew (List.contains_iff_mem.2 hmem)) hexpand
  | update name blockType source schema =>
    rw [step, toOption_eq_some_iff, updateUserBlock] at h
    cases hvalid : validateUserBlockBody svc table blockType source schema with
    | error e =>
      rw [hvalid] at h
      split_ifs at h
    | ok u =>
      rw [hvalid] at h
      obtain ⟨out, hexpand⟩ := validateUserBlockBody_ok hvalid
      split_ifs at h with hhas hold
      cases h
      exact .update (List.contains_iff_mem.1 hold) hexpand

theorem Closed.step
    (hclosed : Closed svc table) (h : step svc table call = some table') : Closed svc table' := by
  cases goes_of_step h with
  | @create name blockType source schema out hname hhas hnew hexpand =>
    have hgrow : ∀ t ∈ table.names, t ∈ (table.insert ⟨name, blockType, source, schema⟩ hnew hname).names :=
      fun t ht => List.mem_cons_of_mem name ht
    refine ⟨fun row hrow t ht => ?_, fun n hn => ?_⟩
    · rcases List.mem_cons.1 hrow with rfl | hrow
      · exact (sourceTypes_of_expand hexpand t ht).imp id (hgrow t)
      · exact (hclosed.types row hrow t ht).imp id (hgrow t)
    · rcases List.mem_cons.1 hn with rfl | hn
      · exact hhas
      · exact hclosed.custom n hn
  | @update name blockType source schema out hold hexpand =>
    refine ⟨fun row' hrow' t ht => ?_, fun n hn => ?_⟩
    · rw [UserBlockTable.names_replace]
      obtain ⟨row, hrow, rfl⟩ := List.mem_map.1 hrow'
      rw [UserBlockTable.replaceIn] at ht
      split_ifs at ht
      · exact sourceTypes_of_expand hexpand t ht
      · exact hclosed.types row hrow t ht
    · rw [UserBlockTable.names_replace] at hn
      exact hclosed.custom n hn

/-- The new source of an update does not lead back to the block. -/
def NoWayBack (table : UserBlockTable) : BlockCall → Prop
  | .create _ _ _ _ => True
  | .update name _ source _ =>
    ∀ t ∈ sourceTypes source, ¬Relation.ReflTransGen (Refers table) t name

/-- A call changes the references of one block. -/
theorem step_acyclic_iff (hclosed : Closed svc table) (hacyclic : Acyclic (Refers table))
    (h : step svc table call = some table') : Acyclic (Refers table') ↔ NoWayBack table call := by
  cases goes_of_step h with
  | @create name blockType source schema out hname hhas hnew hexpand =>
    -- nothing refers to a name that is not stored
    have hfresh : ∀ t, (svc.has t = true ∨ t ∈ table.names) → t ≠ name := by
      rintro t (ht | ht) rfl
      · rw [hhas] at ht
        cases ht
      · exact hnew ht
    have hoff : ∀ a b, a ≠ name →
        (Refers (table.insert ⟨name, blockType, source, schema⟩ hnew hname) a b ↔ Refers table a b) := by
      intro a b ha
      constructor
      · rintro ⟨row, hrow, rfl, hb, hstored⟩
        rcases List.mem_cons.1 hrow with rfl | hrow
        · exact absurd rfl ha
        · have hne := hfresh b (hclosed.types row hrow b hb)
          exact ⟨row, hrow, rfl, hb, (List.mem_cons.1 hstored).resolve_left hne⟩
      · rintro ⟨row, hrow, rfl, hb, hstored⟩
        exact ⟨row, List.mem_cons_of_mem _ hrow, rfl, hb, List.mem_cons_of_mem name hstored⟩
    rw [acyclic_redirect_iff hoff hacyclic]
    refine iff_of_true ?_ trivial
    rintro b ⟨row, hrow, he, hb, -⟩ hback
    obtain rfl | hrow := List.mem_cons.1 hrow
    · -- a path to the name ends with a reference to it
      rcases hback.cases_tail with rfl | ⟨c, -, hlast⟩
      · exact hfresh name (sourceTypes_of_expand hexpand name hb) rfl
      · obtain ⟨_, _, _, _, hstored⟩ := hlast
        exact hnew hstored
    · exact hnew (UserBlockTable.mem_names.2 ⟨row, hrow, he⟩)
  | @update name blockType source schema out hold hexpand =>
    have hoff : ∀ a b, a ≠ name →
        (Refers (table.replace ⟨name, blockType, source, schema⟩) a b ↔ Refers table a b) := by
      intro a b ha
      rw [Refers, UserBlockTable.names_replace]
      constructor
      · rintro ⟨row', hrow', rfl, hb, hstored⟩
        obtain ⟨row, hrow, rfl⟩ := List.mem_map.1 hrow'
        rw [UserBlockTable.name_replaceIn] at ha ⊢
        rw [UserBlockTable.replaceIn, if_neg (by simpa using ha)] at hb
        exact ⟨row, hrow, rfl, hb, hstored⟩
      · rintro ⟨row, hrow, rfl, hb, hstored⟩
        refine ⟨row, List.mem_map.2 ⟨row, hrow, ?_⟩, rfl, hb, hstored⟩
        rw [UserBlockTable.replaceIn, if_neg (by simpa using ha)]
    have hnew : ∀ b, Refers (table.replace ⟨name, blockType, source, schema⟩) name b ↔
        b ∈ sourceTypes source ∧ b ∈ table.names := by
      intro b
      rw [Refers, UserBlockTable.names_replace]
      constructor
      · rintro ⟨row, hrow, hname, hb, hstored⟩
        obtain ⟨row, -, rfl⟩ := List.mem_map.1 hrow
        rw [UserBlockTable.name_replaceIn] at hname
        rw [UserBlockTable.replaceIn, if_pos (by simpa using hname)] at hb
        exact ⟨hb, hstored⟩
      · rintro ⟨hb, hstored⟩
        obtain ⟨row, hrow, hname⟩ := UserBlockTable.mem_names.1 hold
        refine ⟨_, List.mem_map_of_mem hrow, ?_, ?_, hstored⟩
        · rw [UserBlockTable.name_replaceIn, hname]
        · rw [UserBlockTable.replaceIn, if_pos (by simpa using hname)]
          exact hb
    rw [acyclic_redirect_iff hoff hacyclic, NoWayBack]
    constructor
    · intro hnone t ht hback
      -- a type from which the block is reached is stored
      have hstored : t ∈ table.names := by
        rcases hback.cases_head with rfl | ⟨c, ⟨row, hrow, he, -, -⟩, -⟩
        · exact hold
        · exact UserBlockTable.mem_names.2 ⟨row, hrow, he⟩
      exact hnone t ((hnew t).2 ⟨ht, hstored⟩) hback
    · exact fun hnone b hb => hnone b ((hnew b).1 hb).1

/-! ## Runs -/

/-- Whatever the configuration, the types of the body of a block are types of its source. -/
def LiteralBodies (table : UserBlockTable) : Prop :=
  ∀ row ∈ table.rows, ∀ config body, compositeBody row config = .ok body →
    ∀ n ∈ body.1, n.blockType ∈ sourceTypes row.source

theorem storedResolver_no_cycle {missing : String} (hmissing : missing ≠ "flow: composite cycle detected at %q")
    (hacyclic : Acyclic (Refers table)) (hliteral : LiteralBodies table) (def_ x : Bytes) :
    expandComposites def_ (storedResolver missing svc table) ≠ .error (cycleError x) := by
  have hfound : ∀ t ub, storedResolver missing svc table t = .ok (some ub) →
      ub ∈ table.rows ∧ ub.name = t := by
    intro t ub h
    rcases storedResolver_eq_ok h with ⟨-, h⟩ | ⟨-, b, hb, hname, h⟩
    · cases h
    · cases h
      exact ⟨hb, hname⟩
  refine expandComposites_ne_cycleError ?_ ?_ ?_ hacyclic def_ x
  · exact fun t ub h => (hfound t ub h).2
  · intro t y h
    rw [storedResolver] at h
    split at h
    · cases h
    · split at h
      · cases h
      · exact errorf_ne_cycleError hmissing h
  · intro t ub config body h hbody n hn ub' h'
    obtain ⟨hrow, hname⟩ := hfound t ub h
    exact ⟨ub, hrow, hname, hliteral ub hrow config body hbody n hn,
      UserBlockTable.mem_names.2 ⟨ub', hfound _ ub' h'⟩⟩

/-- **When stored composites stay well-founded.** After every sequence of successful calls that starts in
a realm without user blocks: the references of the stored blocks were acyclic all along exactly if no
update had a source that leads back to its block. While they are, and the types of bodies are those
written in the sources, neither a user block nor a pipeline fails with a composite cycle. -/
theorem stored_acyclic_iff (svc : Service σ) (calls : List BlockCall) (table : UserBlockTable)
    (hrun : exec (step svc) .empty calls = some table) :
    (Always (step svc) (fun t => Acyclic (Refers t)) .empty calls ↔
      Throughout (step svc) NoWayBack .empty calls) ∧
    (Acyclic (Refers table) → LiteralBodies table → ∀ def_ x,
      expandComposites def_ (userBlockResolver svc table) ≠ .error (cycleError x) ∧
      expandComposites def_ (resolverFromStored svc table) ≠ .error (cycleError x)) := by
  constructor
  · refine always_iff_throughout (fun s a _ s' hs h => hs.step h)
      (fun s a _ s' hs hacyclic h => step_acyclic_iff hs hacyclic h) (closed_empty svc) ?_ hrun
    -- without blocks nothing refers to anything
    intro a hcycle
    obtain ⟨b, ⟨row, hrow, -⟩, -⟩ := Relation.TransGen.head'_iff.1 hcycle
    exact absurd hrow List.not_mem_nil
  · intro hacyclic hliteral def_ x
    exact ⟨storedResolver_no_cycle (by decide) hacyclic hliteral def_ x,
      storedResolver_no_cycle (by decide) hacyclic hliteral def_ x⟩

def onlyFilter : Service Unit where
  has := fun t => t == utf8 "filter"
  schemas := ⟨fun _ => errorf "config_schema is not valid JSON: %v" [.err], fun _ _ => true⟩

/-- A definition with one node `x`. -/
def oneNode (blockType : String) : Bytes :=
  utf8 ("\x7b\"blocks\":[\x7b\"name\":\"x\",\"block_type\":\"" ++ blockType ++ "\"\x7d]\x7d")

/-- The block `A`, made of a filter, and after an update made of itself. -/
def rowA (blockType : String) : UserBlock := ⟨utf8 "A", utf8 "producer", oneNode blockType, []⟩

theorem rowA_named (blockType : String) : [] ≠ (rowA blockType).name := by
  change [] ≠ utf8 "A"
  decide

def tableA (blockType : String) : UserBlockTable where
  rows := [rowA blockType]
  unique := List.nodup_singleton _
  named := fun h => rowA_named blockType (List.mem_singleton.1 h)

def createA : BlockCall := .create (utf8 "A") (utf8 "producer") (oneNode "filter") []

def updateA : BlockCall := .update (utf8 "A") (utf8 "producer") (oneNode "A") []

theorem exec_createA : exec (step onlyFilter) .empty [createA] = some (tableA "filter") := by
  decide +kernel

/-- Nothing in the source is replaced by the configuration, so every body has the types of the source. -/
theorem literal_row {row : UserBlock} (n : PipelineNode) (hplain : plainDefinition row.source = true)
    (hbody : compositeBody row [] = .ok ([n], [])) (hn : n.blockType ∈ sourceTypes row.source) :
    ∀ config body, compositeBody row config = .ok body → ∀ n ∈ body.1, n.blockType ∈ sourceTypes row.source := by
  intro config body hconfig
  rw [compositeBody, substituteConfig_plain hplain config [], ← compositeBody, hbody] at hconfig
  cases hconfig
  exact List.forall_mem_singleton.2 hn

/-- The block `A`, and the block `B` made of it. -/
def tableAB : UserBlockTable where
  rows := [⟨utf8 "B", utf8 "producer", oneNode "A", []⟩, rowA "filter"]
  unique := by decide
  named := by decide

theorem literalBodies_tableAB : LiteralBodies tableAB := by
  have hB : substituteConfig (oneNode "A") [] = .ok
      (utf8 "\x7b\"blocks\":[\x7b\"block_type\":\"A\",\"name\":\"x\"\x7d]\x7d") := by decide +kernel
  have hA : substituteConfig (oneNode "filter") [] = .ok
      (utf8 "\x7b\"blocks\":[\x7b\"block_type\":\"filter\",\"name\":\"x\"\x7d]\x7d") := by decide +kernel
  refine List.forall_mem_cons.2 ⟨?_, List.forall_mem_singleton.2 ?_⟩
  · exact literal_row ⟨utf8 "x", utf8 "A", []⟩ (by decide +kernel) (compositeBody_single hB rfl (by decide))
      (by decide +kernel)
  · exact literal_row ⟨utf8 "x", utf8 "filter", []⟩ (by decide +kernel) (compositeBody_single hA rfl (by decide))
      (by decide +kernel)

/-- `A` is created, `B` is made of it, and `A` is updated to a source that does not lead back. -/
theorem stored_acyclic_update :
    let calls := [createA, .create (utf8 "B") (utf8 "producer") (oneNode "A") [],
      .update (utf8 "A") (utf8 "producer") (oneNode "filter") []]
    Always (step onlyFilter) (fun t => Acyclic (Refers t)) .empty calls ∧
    ∀ def_ x, expandComposites def_ (resolverFromStored onlyFilter tableAB) ≠ .error (cycleError x) := by
  intro calls
  have hrun : exec (step onlyFilter) .empty calls = some tableAB := by decide +kernel
  obtain ⟨hiff, hnone⟩ := stored_acyclic_iff onlyFilter calls _ hrun
  have hstep₁ : step onlyFilter .empty createA = some (tableA "filter") := by decide +kernel
  have hstep₂ : step onlyFilter (tableA "filter") (.create (utf8 "B") (utf8 "producer") (oneNode "A") []) =
      some tableAB := by decide +kernel
  have hstep₃ : step onlyFilter tableAB (.update (utf8 "A") (utf8 "producer") (oneNode "filter") []) =
      some tableAB := by decide +kernel
  -- a filter is not stored, and refers to nothing
  have hback : NoWayBack tableAB (.update (utf8 "A") (utf8 "producer") (oneNode "filter") []) := by
    rw [NoWayBack, show sourceTypes (oneNode "filter") = [utf8 "filter"] by decide +kernel]
    refine List.forall_mem_singleton.2 fun hback => ?_
    rcases hback.cases_head with h | ⟨_, ⟨row, hrow, hname, -⟩, -⟩
    · exact absurd h (by decide)
    · exact absurd (hname ▸ List.mem_map_of_mem hrow : utf8 "filter" ∈ tableAB.names) (by decide)
  have halways := hiff.2 ((throughout_cons hstep₁).2 ⟨trivial, (throughout_cons hstep₂).2 ⟨trivial,
    (throughout_cons hstep₃).2 ⟨hback, trivial⟩⟩⟩)
  exact ⟨halways, fun def_ x => (hnone (halways.last hrun) literalBodies_tableAB def_ x).2⟩

/-- A block is updated to use itself: its old version is stored, so the source expands. The definition
of a pipeline that uses the block expanded before and has a composite cycle after. -/
theorem update_closes_cycle :
    exec (step onlyFilter) .empty [createA] = some (tableA "filter") ∧
    exec (step onlyFilter) .empty [createA, updateA] = some (tableA "A") ∧
    (∃ out, expandComposites (oneNode "A") (resolverFromStored onlyFilter (tableA "filter")) = .ok out) ∧
    expandComposites (oneNode "A") (resolverFromStored onlyFilter (tableA "A")) =
      .error (cycleError (utf8 "A")) ∧ Refers (tableA "A") (utf8 "A") (utf8 "A") := by
  have hbefore : (expandComposites (oneNode "A")
      (resolverFromStored onlyFilter (tableA "filter"))).toOption.isSome = true := by decide +kernel
  obtain ⟨out, hout⟩ := Option.isSome_iff_exists.1 hbefore
  refine ⟨exec_createA, by decide +kernel, ⟨out, toOption_eq_some_iff.1 hout⟩, by decide +kernel, ?_⟩
  exact ⟨rowA "A", List.mem_singleton_self _, rfl, by decide +kernel, List.mem_singleton_self _⟩

end Astrate.FlowApi
