import Astrate.Flow.Factory
import Astrate.FlowApi.Composites

/-!
# Starting flows

`resolveAndBuild`, `startFlowInstance` and `RestartFlowInstance` of `internal/flowapi/service.go`, as one
call sees them: what the store and the manager answer is given (`StartEnv`, `RestartEnv`). A call gives
back the blocks it has constructed and those it has stopped, the statuses it has written, and the graph
of the flow it has started.

`failed_start_releases_iff` says which calls that fail have released the blocks they constructed.
-/

set_option autoImplicit false

namespace Astrate.FlowApi

open Astrate.GoLib Astrate.Flow
open Astrate.GoLib.Json (Slice StructField decodeMap decodeSlice decodeStruct scanDocument)
open Astrate.InterfaceSchema (stringField)

variable {σ : Type}

/-- The dependencies of blocks that belong to the flow. -/
structure Deps where
  realm : Bytes
  flowName : Bytes

/-- An error of a read of the store. -/
inductive ReadError where
  | notFound
  | other
  deriving DecidableEq

/-- What the store and the manager answer during a start: the definition of the pipeline, the user blocks
when types are checked and when composites are expanded, and whether the instance is registered when
`StartFlow` looks. -/
structure StartEnv where
  pipeline : Except ReadError Bytes
  typeRows : Option UserBlockTable
  expandRows : Option UserBlockTable
  registered : Bool

/-! ## Types -/

/-- `%v` of a slice of strings. -/
def formatStrings (ss : List Bytes) : Bytes := utf8 "[" ++ (utf8 " ").intercalate ss ++ utf8 "]"

/-- `unknownBlockTypeErr`. -/
def unknownBlockTypeErr (blockType blockName : Bytes) (builtins : List Bytes) (stored : List UserBlock) :
    ApiError :=
  if stored.isEmpty then
    .validation ⟨"unknown block_type %q on block %q (known: %v)",
      [.str blockType, .str blockName, .str (formatStrings builtins)]⟩
  else
    .validation ⟨"unknown block_type %q on block %q (known: %v) (stored composites: %v)",
      [.str blockType, .str blockName, .str (formatStrings builtins),
        .str (formatStrings (stored.map (·.name)))]⟩

/-- The nodes of a definition with their names and types only. -/
def typeShapeFields : List (StructField (Slice PipelineNode)) :=
  [⟨utf8 "blocks", decodeSlice (decodeStruct
    [stringField "name" (·.name) fun n v => { n with name := v },
      stringField "block_type" (·.blockType) fun n v => { n with blockType := v }] false) {}⟩]

/-- The loop of `checkBlockTypes`; the stored blocks are read for the first type that is not built in. -/
def checkTypes (reg : Registry Deps) (rows : Option UserBlockTable) : List PipelineNode → Except ApiError Unit
  | [] => .ok ()
  | n :: ns =>
    if n.blockType.isEmpty then
      .error (.validation ⟨"block %q has empty block_type", [.str n.name]⟩)
    else if reg.has n.blockType then checkTypes reg rows ns
    else
      match rows with
      | none => .error .store
      | some table =>
        if (table.find n.blockType).isSome then checkTypes reg rows ns
        else .error (unknownBlockTypeErr n.blockType n.name reg.types table.rows)

/-- `checkBlockTypes`. -/
def checkBlockTypes (reg : Registry Deps) (rows : Option UserBlockTable) (definition : Bytes) :
    Except ApiError Unit :=
  match (scanDocument definition).bind (decodeStruct typeShapeFields false .nil) with
  | none => .error (.validation ⟨"%v", [.err]⟩)
  | some nodes => checkTypes reg rows nodes.elems

/-! ## Building -/

/-- `expandStoredComposites` with the read of the stored blocks, which is made if there is a type that is
not built in. -/
def expandWithRows (svc : Service σ) (rows : Option UserBlockTable) (def_ : Bytes) : Except ApiError Bytes :=
  match rows with
  | some table => expandStoredComposites svc table def_
  | none => do
      let nodes ← decodePipelineNodes def_
      if nodes.all fun n => svc.has n.blockType then .ok def_ else .error .store

/-- The definition that is instantiated. -/
def resolvePipeline (reg : Registry Deps) (schemas : SchemaLib σ) (env : StartEnv) (pipelineName : Bytes)
    (config : Config) : Except ApiError Pipeline := do
  let stored ← match env.pipeline with
    | .ok definition => .ok definition
    | .error .notFound => .error (.validation ⟨"pipeline %q not found", [.str pipelineName]⟩)
    | .error .other => .error .store
  let def_ ← (substituteConfig stored config).mapError .validation
  checkBlockTypes reg env.typeRows def_
  let expanded ← expandWithRows ⟨reg.has, schemas⟩ env.expandRows def_
  (parseDefinition pipelineName pipelineName expanded).mapError .validation

def resolveAndBuild (reg : Registry Deps) (schemas : SchemaLib σ) (env : StartEnv)
    (realm name pipelineName : Bytes) (config : Config) : Build ApiError (List Block) :=
  match resolvePipeline reg schemas env pipelineName config with
  | .error e => ⟨[], [], .error e⟩
  | .ok p =>
    let b := instantiate reg p ⟨realm, name⟩
    ⟨b.constructed, b.stopped, b.result.mapError .validation⟩

/-- `Manager.StartFlow` -/
def startFlow (registered : Bool) (id : Bytes) (blocks : List Block) : Except ApiError BlockGraph :=
  if registered then .error (.flowExists id) else (newBlockGraph (blocks.map some)).mapError .graph

/-- A status written by `UpdateFlowRuntime`. -/
inductive Mark where
  | creating
  | running
  | failed (cause : ApiError)

/-- A start that has returned. -/
structure Started where
  build : Build ApiError Unit
  marks : List Mark
  graph : Option BlockGraph

/-- The failed mark, which an instance that exists does not get. -/
def markStartFailed : ApiError → List Mark
  | .flowExists _ => []
  | e => [.failed e]

/-- What `startFlowInstance` and `RestartFlowInstance` do with what they have built; `readBack` is what
the call returns once the flow is running. -/
def startBuilt (b : Build ApiError (List Block)) (start : List Block → Except ApiError BlockGraph)
    (readBack : Except ApiError Unit) : Started :=
  match b.result with
  | .error e => ⟨⟨b.constructed, b.stopped, .error e⟩, [.failed e], none⟩
  | .ok blks =>
    match start blks with
    | .error e => ⟨⟨b.constructed, b.stopped, .error e⟩, .creating :: markStartFailed e, none⟩
    | .ok graph => ⟨⟨b.constructed, b.stopped, readBack⟩, [.creating, .running], some graph⟩

def buildAndStart (reg : Registry Deps) (schemas : SchemaLib σ) (env : StartEnv)
    (realm name pipelineName : Bytes) (config : Config) (readBack : Except ApiError Unit) : Started :=
  startBuilt (resolveAndBuild reg schemas env realm name pipelineName config)
    (startFlow env.registered (instanceID realm name)) readBack

/-- A row that cannot be read back does not make the start fail. -/
def startFlowInstance (reg : Registry Deps) (schemas : SchemaLib σ) (env : StartEnv)
    (realm name pipelineName : Bytes) (config : Config) : Started :=
  buildAndStart reg schemas env realm name pipelineName config (.ok ())

/-- The columns of a flow that a restart reads. -/
structure FlowRow where
  pipelineName : Bytes
  config : Bytes

/-- What a restart gets to see: the row, whether draining the old flow failed, and the row again. -/
structure RestartEnv extends StartEnv where
  row : Except ReadError FlowRow
  drainFailed : Bool
  rowAgain : Except ReadError Unit

/-- An error of the store. -/
def readError (name : Bytes) : ReadError → ApiError
  | .notFound => .notFound name
  | .other => .store

/-- The failure before any block is constructed. -/
def notBuilt (e : ApiError) (marks : List Mark) : Started := ⟨⟨[], [], .error e⟩, marks, none⟩

/-- `RestartFlowInstance`. -/
def restartFlowInstance (reg : Registry Deps) (schemas : SchemaLib σ) (env : RestartEnv)
    (realm name : Bytes) : Started :=
  match env.row with
  | .error e => notBuilt (readError name e) []
  | .ok row =>
    if env.drainFailed then notBuilt (.drain (instanceID realm name)) []
    else
      match (scanDocument row.config).bind (decodeMap []) with
      | none =>
        notBuilt (.validation ⟨"invalid stored config: %v", [.err]⟩)
          [.failed (.validation ⟨"invalid stored config: %v", [.err]⟩)]
      | some config =>
        buildAndStart reg schemas env.toStartEnv realm name row.pipelineName config
          (env.rowAgain.mapError (readError name))

/-! ## What is left behind -/

/-- The graph is refused only if there are no blocks. -/
theorem startFlow_error {registered : Bool} {id : Bytes} {blks : List Block} {e : ApiError}
    (h : startFlow registered id blks = .error e) : registered = true ∨ blks = [] := by
  rw [startFlow] at h
  split_ifs at h with hregistered
  · exact Or.inl hregistered
  · right
    by_contra hne
    rw [newBlockGraph_map_some hne] at h
    cases h

/-- In topological order no empty or unregistered type stands behind a block that has to be stopped, and where
blocks are made of all nodes and there is one, the flow can start (`free`). -/
def Releasable (reg : Registry Deps) (deps : Deps) (p : Pipeline) (free : Prop) : Prop :=
  ¬ reg.Strands p deps [] p.buildOrder ∧ (reg.HoldsStopper p deps [] p.buildOrder → free)

theorem startBuilt_noLeak (b : Build ApiError (List Block)) (start : List Block → Except ApiError BlockGraph)
    (readBack : Except ApiError Unit) : (startBuilt b start readBack).build.NoLeak ↔ b.NoLeak := by
  rw [startBuilt]
  cases b.result with
  | error e => rfl
  | ok blks =>
    dsimp only
    cases start blks <;> rfl

theorem buildAndStart_noLeak_iff (reg : Registry Deps) (schemas : SchemaLib σ) (env : StartEnv)
    (realm name pipelineName : Bytes) (config : Config) {readBack : Except ApiError Unit} {e : ApiError}
    (he : (buildAndStart reg schemas env realm name pipelineName config readBack).build.result = .error e) :
    (buildAndStart reg schemas env realm name pipelineName config readBack).build.NoLeak ↔
      ∀ p, resolvePipeline reg schemas env pipelineName config = .ok p →
        Releasable reg ⟨realm, name⟩ p (env.registered = false ∧ readBack = .ok ()) := by
  rw [buildAndStart] at he ⊢
  rw [startBuilt_noLeak]
  cases hresolve : resolvePipeline reg schemas env pipelineName config with
  | error e' =>
    rw [resolveAndBuild, hresolve]
    exact iff_of_true (noLeak_of_nothing e') fun p hp => by cases hp
  | ok p =>
    rw [resolveAndBuild, hresolve] at he ⊢
    simp only [Except.ok.injEq, forall_eq', Releasable]
    change (instantiate reg p ⟨realm, name⟩).NoLeak ↔ _
    rw [startBuilt] at he
    cases hresult : (instantiate reg p ⟨realm, name⟩).result with
    | error e' =>
      obtain ⟨hleak, hholds⟩ := instantiate_noLeak_iff hresult
      simpa [hholds] using hleak
    | ok blks =>
      obtain ⟨hstopped, hbuilt, hstrands, hholds⟩ := instantiate_built hresult
      rw [noStopper_iff_of_none_stopped hstopped, hholds]
      simp only [hstrands, not_false_eq_true, true_and]
      refine forall_congr' fun hstopper => iff_of_false id ?_
      -- the name is taken, or the flow runs and its row cannot be read
      rintro ⟨hfree, hread⟩
      simp only [hresult, Except.mapError] at he
      cases hstart : startFlow env.registered (instanceID realm name) blks with
      | ok graph =>
        rw [hstart, hread] at he
        cases he
      | error e' =>
        rcases startFlow_error hstart with hregistered | hnil
        · rw [hfree] at hregistered
          cases hregistered
        · exact hholds.1 (fun x hx => by rw [hbuilt, hnil] at hx; cases hx) hstopper

/-- **Which failed starts release their blocks.** For every pipeline, configuration and registry, and
whatever the store and the manager answer: a call of `Instantiate`, of `startFlowInstance` or of
`RestartFlowInstance` that returns an error has called `Stop` on every block it constructed that has it,
exactly if no empty or unregistered type stands behind a block that has to be stopped, and, where all
blocks are made and there is such a block, the name is free and a restart can read its row back. -/
theorem failed_start_releases_iff (reg : Registry Deps) (schemas : SchemaLib σ) (p : Pipeline) (deps : Deps)
    (env : StartEnv) (renv : RestartEnv) (realm name pipelineName : Bytes) (config : Config) :
    (∀ e, (instantiate reg p deps).result = .error e →
      ((instantiate reg p deps).NoLeak ↔ ¬ reg.Strands p deps [] p.buildOrder)) ∧
    (∀ e, (startFlowInstance reg schemas env realm name pipelineName config).build.result = .error e →
      ((startFlowInstance reg schemas env realm name pipelineName config).build.NoLeak ↔
        ∀ p, resolvePipeline reg schemas env pipelineName config = .ok p →
          Releasable reg ⟨realm, name⟩ p (env.registered = false))) ∧
    ∀ e, (restartFlowInstance reg schemas renv realm name).build.result = .error e →
      ((restartFlowInstance reg schemas renv realm name).build.NoLeak ↔
        ∀ row config p, renv.row = .ok row → renv.drainFailed = false →
          (scanDocument row.config).bind (decodeMap []) = some config →
          resolvePipeline reg schemas renv.toStartEnv row.pipelineName config = .ok p →
          Releasable reg ⟨realm, name⟩ p (renv.registered = false ∧ renv.rowAgain = .ok ())) := by
  refine ⟨fun e he => (instantiate_noLeak_iff he).1, fun e he => ?_, fun e he => ?_⟩
  · rw [startFlowInstance] at he ⊢
    simpa using buildAndStart_noLeak_iff reg schemas env realm name pipelineName config he
  · -- before the pipeline is resolved nothing is constructed
    rw [restartFlowInstance] at he ⊢
    cases hrow : renv.row with
    | error e' => exact iff_of_true (noLeak_of_nothing _) fun row config p h => by cases h
    | ok row =>
      rw [hrow] at he
      dsimp only at he ⊢
      split_ifs at he ⊢ with hdrain
      · exact iff_of_true (noLeak_of_nothing _) fun row' config p _ h => by simp [hdrain] at h
      · cases hconfig : (scanDocument row.config).bind (decodeMap []) with
        | none =>
          refine iff_of_true (noLeak_of_nothing _) fun row' config p h _ hc => ?_
          cases h
          rw [hconfig] at hc
          cases hc
        | some config =>
          rw [hconfig] at he
          have hread : renv.rowAgain.mapError (readError name) = .ok () ↔ renv.rowAgain = .ok () :=
            mapError_eq_ok_iff
          rw [buildAndStart_noLeak_iff reg schemas renv.toStartEnv realm name row.pipelineName config he, hread]
          refine ⟨fun h row' config' p hrow' _ hconfig' => ?_,
            fun h p => h row config p rfl (by simpa using hdrain) hconfig⟩
          cases hrow'
          cases hconfig.symm.trans hconfig'
          exact h p

/-- A container, which has to be stopped. -/
def containers : Registry Deps where
  ctors := [(utf8 "container", fun name _ _ => .ok (some ⟨0, name, false, true⟩))]

/-- A container that is connected to a block of a type that nobody has registered. -/
def halfKnown : Pipeline where
  id := utf8 "p"
  blocks := [⟨utf8 "a", utf8 "container", []⟩, ⟨utf8 "b", utf8 "nosuch", []⟩]
  connections := [⟨utf8 "a", [], utf8 "b", []⟩]

/-- The pipeline of one container, started while the instance is registered. -/
def registeredEnv : StartEnv where
  pipeline := .ok (oneNode "container")
  typeRows := some .empty
  expandRows := some .empty
  registered := true

/-- `Instantiate` fails over the second block, and the container runs on. So it does if the instance
exists already when the flow is started. -/
theorem failed_start_leaks :
    (instantiate containers halfKnown ⟨utf8 "r", utf8 "f"⟩).result =
      errorf "flow: unknown block type: %q (block %q)" [.str (utf8 "nosuch"), .str (utf8 "b")] ∧
    (instantiate containers halfKnown ⟨utf8 "r", utf8 "f"⟩).constructed = [⟨0, utf8 "a", false, true⟩] ∧
    (instantiate containers halfKnown ⟨utf8 "r", utf8 "f"⟩).stopped = [] ∧
    (startFlowInstance containers onlyFilter.schemas registeredEnv (utf8 "r") (utf8 "f") (utf8 "p")
      []).build.result = .error (.flowExists (utf8 "r/f")) ∧
    (startFlowInstance containers onlyFilter.schemas registeredEnv (utf8 "r") (utf8 "f") (utf8 "p")
      []).build.constructed = [⟨0, utf8 "x", false, true⟩] ∧
    (startFlowInstance containers onlyFilter.schemas registeredEnv (utf8 "r") (utf8 "f") (utf8 "p")
      []).build.stopped = [] := by
  refine ⟨by decide +kernel, by decide +kernel, by decide +kernel, by decide +kernel, by decide +kernel,
    by decide +kernel⟩

end Astrate.FlowApi
