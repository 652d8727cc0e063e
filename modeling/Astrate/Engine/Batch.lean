import Astrate.Engine.Ops
import Astrate.Engine.Topics
import Astrate.GoLib.Proc

/-!
# The micro-batch

`batcher` of `internal/engine/batch.go`: `commit` tries to persist a slice of operations, `flushOps`
drives the attempts, with parking on transient failures, a split into single operations when the
database refuses a batch for good, and abandonment at shutdown.

The store answers every call as it likes: it is a function `persist` of the call and of a state `σ`,
about which nothing is assumed. How each parking of the shard ends is read from a list; a run that has
used it up is still parked. Everything that can be observed from outside is logged as an `Event`.
-/

set_option autoImplicit false

namespace Astrate.Engine

open Astrate.GoLib
open Astrate.Store (IndividualRow ObjectRow DatastreamBatch Property PropertyKey)

/-! ## The store as the batcher sees it -/

/-- An error of the store: an error of the database with its SQLSTATE, a missing row, or anything
else. -/
inductive StoreError where
  | pg (code : Bytes)
  | notFound
  | other
  deriving DecidableEq, Repr

/-- Rejections that retrying cannot fix: SQLSTATE classes 23 and 22. -/
def isPermanentCommitError : StoreError → Bool
  | .pg code => (utf8 "23").isPrefixOf code || (utf8 "22").isPrefixOf code
  | _ => false

/-- The datastream rows of an attempt, each with the message it comes from. -/
structure TaggedBatch where
  individual : List (Nat × IndividualRow) := []
  objects : List (Nat × ObjectRow) := []
  deriving DecidableEq

/-- The rows alone, which are all the store is given. -/
def TaggedBatch.rows (ds : TaggedBatch) : DatastreamBatch :=
  ⟨ds.individual.map Prod.snd, ds.objects.map Prod.snd⟩

/-- A persisting call of the store, with the messages its rows come from. -/
inductive StoreCall where
  | upsertProperty (id : Nat) (p : Property)
  | unsetProperty (id : Nat) (key : PropertyKey)
  | appendDatastreams (ds : TaggedBatch)
  deriving DecidableEq

/-- What a message without data was consumed after. -/
inductive Consumption where
  /-- There is no handler for its kind. -/
  | unhandled
  /-- Its handler does not call the store. -/
  | idle
  /-- A call that its handler makes of the store has returned for good. -/
  | replied (reply : Except StoreError Unit)

/-- The topics whose handlers call the store: introspection, and the control messages that are known. -/
def callsStore : TopicKind × Bytes → Bool
  | (.introspection, _) => true
  | (.control, subpath) => subpath = utf8 "emptyCache" || subpath = utf8 "producer/properties"
  | _ => false

/-- A handler that calls the store waits for success, or for an error that retrying cannot fix. -/
def Consumption.Due (topic : TopicKind × Bytes) : Consumption → Prop
  | .unhandled => True
  | .idle => callsStore topic = false
  | .replied reply => ∀ err, reply = .error err → isPermanentCommitError err = true

/-- What can be seen of a shard. Messages are numbered in the order they are received. -/
inductive Event where
  /-- A message arrived. -/
  | received (id : Nat) (m : InboundMessage)
  /-- A data message passed validation and its operation joined the batch. -/
  | queued (op : PersistOp)
  /-- An attempt to commit the operations of these messages starts. -/
  | attempt (ids : List Nat)
  /-- A call of the store has returned. -/
  | returned (call : StoreCall) (reply : Except StoreError Unit)
  /-- A message was rejected. -/
  | rejected (id : Nat) (reason : String) (detail : List FmtError)
  /-- The operation of a message has no row. -/
  | unconverted (id : Nat) (err : FmtError)
  /-- A message that carries no data was consumed. -/
  | consumed (id : Nat) (kind : TopicKind) (how : Consumption)
  /-- The acknowledgment of a message was released. -/
  | acked (id : Nat)
  /-- A message was given up at shutdown. -/
  | abandoned (id : Nat)
  /-- The observers were given these committed operations. -/
  | observed (ops : List PersistOp)

/-- How a parking of the shard ends: the backoff has elapsed, or the engine quits (or its context is
cancelled). -/
inductive Park where
  | elapsed
  | quit
  deriving DecidableEq, Repr

/-- The state one pending operation leaves for the next publish on its path. -/
structure PrevSnap where
  «exists» : Bool
  json : Bytes
  deriving DecidableEq

/-- The state of a shard, its batcher included. -/
structure Shard (σ : Type) where
  env : σ
  parks : List Park
  ops : List PersistOp := []
  pendingPrev : PropertyKey → Option PrevSnap := fun _ => none
  armed : Bool := false
  received : Nat := 0

/-- What the batcher needs of its engine: the store, and whether `afterCommit` is set. -/
structure BatchPort (σ : Type) where
  persist : StoreCall → σ → Except StoreError Unit × σ
  afterCommit : Bool := true

section

variable {σ : Type} (port : BatchPort σ)

/-- Call the store. -/
def callStore (call : StoreCall) : Proc Event (Shard σ) (Except StoreError Unit) := fun s =>
  let r := port.persist call s.env
  ⟨[.returned call r.1], { s with env := r.2 }, some r.1⟩

/-! ## Committing -/

/-- Consume an operation whose conversion failed. -/
def markBroken (op : PersistOp) (err : FmtError) : Proc Event (Shard σ) PersistOp := do
  Proc.emit (.unconverted op.ack err)
  Proc.emit (.acked op.ack)
  pure { op with broken := true }

/-- A property statement inside an attempt: a failure ends the attempt, with the operations as they
are. -/
def statement (call : StoreCall) (ops : List PersistOp)
    (rest : Proc Event (Shard σ) (Except StoreError TaggedBatch × List PersistOp)) :
    Proc Event (Shard σ) (Except StoreError TaggedBatch × List PersistOp) := do
  let reply ← callStore port call
  match reply with
  | .error err => pure (.error err, ops)
  | .ok () => rest

/-- The loop of `commit`: property statements are executed in passing, datastream rows are collected
in `ds`. The operations are returned with their marks. -/
def commitLoop : List PersistOp → TaggedBatch →
    Proc Event (Shard σ) (Except StoreError TaggedBatch × List PersistOp)
  | [], ds => pure (.ok ds, [])
  | op :: ops, ds =>
    if op.broken then do
      let r ← commitLoop ops ds
      pure (r.1, op :: r.2)
    else
      match op.row with
      | .error err => do
          let op ← markBroken op err
          let r ← commitLoop ops ds
          pure (r.1, op :: r.2)
      | .ok (.property p) =>
        statement port (.upsertProperty op.ack p) (op :: ops) do
          let r ← commitLoop ops ds
          pure (r.1, op :: r.2)
      | .ok (.unset key) =>
        statement port (.unsetProperty op.ack key) (op :: ops) do
          let r ← commitLoop ops ds
          pure (r.1, op :: r.2)
      | .ok (.individual row) => do
          let r ← commitLoop ops { ds with individual := ds.individual ++ [(op.ack, row)] }
          pure (r.1, op :: r.2)
      | .ok (.object row) => do
          let r ← commitLoop ops { ds with objects := ds.objects ++ [(op.ack, row)] }
          pure (r.1, op :: r.2)

/-- The end of `commit`: the datastream rows go in one transaction. -/
def commitRows (ds : TaggedBatch) : Proc Event (Shard σ) (Except StoreError Unit) :=
  if !ds.individual.isEmpty || !ds.objects.isEmpty then callStore port (.appendDatastreams ds)
  else pure (.ok ())

/-- One attempt. -/
def commit (ops : List PersistOp) :
    Proc Event (Shard σ) (Except StoreError Unit × List PersistOp) := do
  Proc.emit (.attempt (ops.map (·.ack)))
  let r ← commitLoop port ops {}
  match r.1 with
  | .error err => pure (.error err, r.2)
  | .ok ds => do
      let reply ← commitRows port ds
      pure (reply, r.2)

/-! ## Finalizing -/

/-- The operations that still have to be persisted. -/
def live (ops : List PersistOp) : List PersistOp := ops.filter fun op => !op.broken

/-- The loop of `finalize`. The source compacts the slice in place; what it writes never overtakes
what it has still to read. -/
def finalizeLoop : List PersistOp → List PersistOp → Proc Event (Shard σ) (List PersistOp)
  | [], acc => pure acc
  | op :: ops, acc =>
    if op.broken then finalizeLoop ops acc
    else do
      Proc.emit (.acked op.ack)
      finalizeLoop ops (acc ++ [op])

/-- Release the acknowledgments of a committed slice and tell the observers. -/
def finalize (ops : List PersistOp) : Proc Event (Shard σ) Unit := do
  let committed ← finalizeLoop ops []
  if port.afterCommit && !committed.isEmpty then Proc.emit (.observed committed) else pure ()

/-! ## Flushing -/

/-- Give up what is not persisted, without an acknowledgment. -/
def abandon (ops : List PersistOp) : Proc Event (Shard σ) Unit :=
  Proc.forEach (fun op => Proc.emit (.abandoned op.ack)) (live ops)

/-- Consume an operation the database refuses for good. -/
def dropRefused : List PersistOp → Proc Event (Shard σ) Unit
  | [] => pure ()
  | op :: _ => Proc.emit (.acked op.ack)

/-- One pass of the loop of `flushOps`: `refused` is what is done with a slice the database refuses for
good, `failed` with one that could not be committed now. -/
def attemptFlush (refused failed : List PersistOp → Proc Event (Shard σ) Unit)
    (ops : List PersistOp) : Proc Event (Shard σ) Unit := do
  let r ← commit port ops
  match r.1 with
  | .ok () => finalize port r.2
  | .error err => if isPermanentCommitError err then refused r.2 else failed r.2

/-- The loop of `flushOps`. The list says how the parkings to come will end. -/
def retryLoop (refused : List PersistOp → Proc Event (Shard σ) Unit) :
    List Park → List PersistOp → Proc Event (Shard σ) Unit
  | [], ops => attemptFlush port refused (fun _ => Proc.blocked) ops
  | .elapsed :: parks, ops =>
    attemptFlush port refused (fun ops => do
      Proc.modify fun s => { s with parks := parks }
      retryLoop refused parks ops) ops
  | .quit :: parks, ops =>
    attemptFlush port refused (fun ops => do
      Proc.modify fun s => { s with parks := parks }
      abandon ops) ops

/-- `flushOps` for a single operation. -/
def flushOne (op : PersistOp) : Proc Event (Shard σ) Unit := do
  let s ← Proc.get
  retryLoop port dropRefused s.parks [op]

/-- What `flushOps` does with a refused slice: single operations are dropped, others are committed one
by one. -/
def splitRefused (ops : List PersistOp) : Proc Event (Shard σ) Unit :=
  if ops.length > 1 then Proc.forEach (flushOne port) ops else dropRefused ops

/-- `flushOps`. -/
def flushOps (ops : List PersistOp) : Proc Event (Shard σ) Unit := do
  let s ← Proc.get
  retryLoop port (splitRefused port) s.parks ops

/-- `flush`. -/
def flush : Proc Event (Shard σ) Unit := do
  let s ← Proc.get
  if s.ops.isEmpty then pure ()
  else do
    flushOps port s.ops
    Proc.modify fun s => { s with ops := [], pendingPrev := fun _ => none }

end

end Astrate.Engine
