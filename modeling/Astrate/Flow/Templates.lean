import Mathlib.Data.List.Infix
import Astrate.GoLib.Bytes
import Astrate.GoLib.Map

/-!
# Key templates

`expandTemplate` of `internal/flow/blocks/transform.go` and `expandSplitKey` of `splitmap.go`. Both put
the texts of a message into the template one kind of placeholder after the other, and the loop over the
metadata starts again at the front after each of them: what has been put in is scanned as well. The result
is the substitution for all templates with certain placeholders exactly if the texts that are put in for them
can begin nothing that is scanned for (`Harmless`).
-/

set_option autoImplicit false

namespace Astrate.Flow

open Astrate.GoLib

/-- `strings.Index`, with the parts before and behind the first occurrence. -/
def cutText (sub : Bytes) : Bytes → Option (Bytes × Bytes)
  | [] => none
  | c :: s =>
    if sub.isPrefixOf (c :: s) then some ([], (c :: s).drop sub.length)
    else (cutText sub s).map fun p => (c :: p.1, p.2)

def metadataStart : Bytes := utf8 "\x7bmetadata."

/-- A text, or a name in braces. -/
inductive Piece where
  | text (s : Bytes)
  | hole (name : Bytes)

namespace Piece

/-- A brace opens a hole, or closes it. -/
def Plain : Piece → Prop
  | text s => 123 ∉ s
  | hole name => 123 ∉ name ∧ 125 ∉ name

/-- How a piece is written. -/
def render : Piece → Bytes
  | text s => s
  | hole name => 123 :: name ++ [125]

end Piece

/-- The template that is written in these pieces. -/
def template (ps : List Piece) : Bytes := ps.flatMap Piece.render

/-- No occurrence of the pattern begins in the text, whatever follows it. -/
def Harmless (pat s : Bytes) : Prop := ∀ y ∈ s.tails, y ≠ [] → ¬y <+: pat ∧ ¬pat <+: y

instance (pat s : Bytes) : Decidable (Harmless pat s) := List.decidableBAll _ _

/-- The pieces in which the pattern is not found. -/
def Piece.Safe (pat : Bytes) : Piece → Prop
  | text s => Harmless pat s
  | hole name => 123 ∉ name ∧ 125 ∉ name

variable {ps : List Piece} {s t pat : Bytes}

def Piece.metadataName : Piece → Option Bytes
  | .text _ => none
  | .hole name => cutPrefix (utf8 "metadata.") name

/-- The first hole for metadata is found, or there is none. -/
def MetadataCut (ps : List Piece) : Prop :=
  ((∀ p ∈ ps, p.metadataName = none) ∧ cutText metadataStart (template ps) = none) ∨
    ∃ before name after, ps = before ++ .hole (utf8 "metadata." ++ name) :: after ∧
      cutText metadataStart (template ps) = some (template before, name ++ 125 :: template after)

/-- A piece that is passed over stands before the cut. -/
theorem MetadataCut.cons {p : Piece} (h : MetadataCut ps) (hname : p.metadataName = none)
    (hcut : cutText metadataStart (template (p :: ps)) =
      (cutText metadataStart (template ps)).map fun q => (p.render ++ q.1, q.2)) :
    MetadataCut (p :: ps) := by
  rcases h with ⟨hnone, h⟩ | ⟨before, name, after, rfl, h⟩
  · exact .inl ⟨List.forall_mem_cons.2 ⟨hname, hnone⟩, by rw [hcut, h]; rfl⟩
  · exact .inr ⟨p :: before, name, after, rfl, by rw [hcut, h]; rfl⟩

end Astrate.Flow
