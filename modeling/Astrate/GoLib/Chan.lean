import Mathlib.Logic.Function.Basic
import Mathlib.Tactic.Common

/-!
# Channels

A buffered channel: a queue with a capacity that may be closed. A send on a closed channel panics, a
send on a full one blocks; what was sent before the channel was closed can still be received.
-/

set_option autoImplicit false

namespace Astrate.GoLib

/-- A channel with a buffer. -/
structure Chan (α : Type) where
  cap : Nat
  queue : List α := []
  closed : Bool := false
  deriving DecidableEq

/-- What becomes of `ch <- x`. -/
inductive SendResult (α : Type) where
  | panics
  | blocks
  | sent (ch : Chan α)

namespace Chan

variable {α : Type}

/-- `ch <- x`. -/
def send (ch : Chan α) (x : α) : SendResult α :=
  if ch.closed then .panics
  else if ch.queue.length < ch.cap then .sent { ch with queue := ch.queue ++ [x] }
  else .blocks

/-- A value that is received, and the rest. -/
def recv (ch : Chan α) : Option (α × Chan α) :=
  match ch.queue with
  | [] => none
  | x :: queue => some (x, { ch with queue := queue })

/-- `close(ch)`, which panics on a closed channel. -/
def close (ch : Chan α) : Option (Chan α) :=
  if ch.closed then none else some { ch with closed := true }

/-- A receive tells that the channel is closed once it is empty. -/
def drained (ch : Chan α) : Bool := ch.closed && ch.queue.isEmpty

variable {ch ch' : Chan α} {x : α}

theorem send_eq_sent (h : ch.send x = .sent ch') :
    ch.closed = false ∧ ch' = { ch with queue := ch.queue ++ [x] } := by
  rw [send] at h
  split_ifs at h with hclosed
  cases h
  exact ⟨by simpa using hclosed, rfl⟩

theorem send_eq_panics (h : ch.send x = .panics) : ch.closed = true := by
  rw [send] at h
  split_ifs at h with hclosed
  exact hclosed

theorem recv_eq_some (h : ch.recv = some (x, ch')) : ch.queue = x :: ch'.queue ∧ ch'.closed = ch.closed := by
  rw [recv] at h
  split at h
  · cases h
  · next y queue hqueue =>
    cases h
    exact ⟨hqueue, rfl⟩

end Chan

end Astrate.GoLib
