import Astrate.InterfaceSchema.Compile
import Mathlib.Data.List.Infix

/-!
# Nodes read by a match

`Match` tries the literal child and then the placeholder child at every level. The trie is a tree, so the
nodes below the two are different: however often the search turns back, it reads no node twice, and the
nodes of a compiled trie are no more than the levels of its endpoints and the root (`matchPath_visits`).
-/

set_option autoImplicit false

namespace Astrate.InterfaceSchema

open Astrate.GoLib

section Nodes

variable {α : Type}

/-- The node under a sequence of level shapes. -/
def TrieNode.descend : List (Option Bytes) → TrieNode α → Option (TrieNode α)
  | [], n => some n
  | sh :: shs, n => (n.child sh).bind (descend shs)

/-- The nodes read below a level, by the shapes that lead to them from `n`. -/
def visitsBelow (visits : TrieNode α → List (List (Option Bytes))) (n : TrieNode α) (sh : Option Bytes) :
    List (List (Option Bytes)) :=
  ((n.child sh).elim [] visits).map (sh :: ·)

/-- The nodes a call of `matchNode` reads, in order: its own, then those below the shapes it tries. -/
def matchNodeVisits : Nat → TrieNode α → Bytes → List (List (Option Bytes))
  | 0, _, _ => []
  | fuel + 1, n, rest =>
    let cut := cutByte slash rest
    let seg := (cut.map Prod.fst).getD rest
    let descend := fun child : TrieNode α => cut.elim child.mapping fun p => matchNode fuel child p.2
    let tried :=
      if seg = [] then []
      else if ((n.children.lookup seg).bind descend).isSome then [some seg]
      else if placeholderValueOK seg then [some seg, none]
      else [some seg]
    [] :: tried.flatMap (visitsBelow (fun child => cut.elim [[]] fun p => matchNodeVisits fuel child p.2) n)

/-- The nodes `Match` reads. -/
def EndpointTrie.matchVisits (t : EndpointTrie α) (path : Bytes) : List (List (Option Bytes)) :=
  if path.length < 2 ∨ path.head? ≠ some slash then [] else matchNodeVisits path.length t.root path.tail

/-- Nodes of the trie, none of them twice. -/
structure DistinctNodes (n : TrieNode α) (visits : List (List (Option Bytes))) : Prop where
  nodup : visits.Nodup
  nodes : ∀ shs ∈ visits, (n.descend shs).isSome = true

variable {n : TrieNode α} {visits : TrieNode α → List (List (Option Bytes))}

theorem mem_visitsBelow {sh : Option Bytes} {shs : List (Option Bytes)} :
    shs ∈ visitsBelow visits n sh ↔ ∃ c, n.child sh = some c ∧ ∃ shs' ∈ visits c, sh :: shs' = shs := by
  unfold visitsBelow
  cases n.child sh <;> simp

/-- Below different shapes there are different nodes. -/
theorem distinctNodes_cons (h : ∀ c, DistinctNodes c (visits c)) {shapes : List (Option Bytes)}
    (hshapes : shapes.Nodup) : DistinctNodes n ([] :: shapes.flatMap (visitsBelow visits n)) where
  nodup := by
    refine List.nodup_cons.2 ⟨?_, List.nodup_flatMap.2 ⟨?_, hshapes.imp ?_⟩⟩
    · intro hnil
      obtain ⟨sh, -, hmem⟩ := List.mem_flatMap.1 hnil
      obtain ⟨c, -, shs, -, heq⟩ := mem_visitsBelow.1 hmem
      cases heq
    · intro sh _
      apply List.Nodup.map List.cons_injective
      cases n.child sh with
      | none => exact List.nodup_nil
      | some c => exact (h c).nodup
    · intro sh sh' hne shs hshs hshs'
      obtain ⟨-, -, shs₁, -, rfl⟩ := mem_visitsBelow.1 hshs
      obtain ⟨-, -, shs₂, -, heq⟩ := mem_visitsBelow.1 hshs'
      exact hne (List.cons.inj heq).1.symm
  nodes := by
    refine List.forall_mem_cons.2 ⟨rfl, fun shs hshs => ?_⟩
    obtain ⟨sh, -, hmem⟩ := List.mem_flatMap.1 hshs
    obtain ⟨c, hc, shs', hshs', rfl⟩ := mem_visitsBelow.1 hmem
    rw [TrieNode.descend, hc]
    exact (h c).nodes shs' hshs'

/-- The search reads distinct nodes, by induction on the levels left. -/
theorem distinctNodes_matchNodeVisits (fuel : Nat) :
    ∀ (n : TrieNode α) (rest : Bytes), DistinctNodes n (matchNodeVisits fuel n rest) := by
  induction fuel with
  | zero => exact fun n rest => ⟨List.nodup_nil, nofun⟩
  | succ fuel ih =>
    intro n rest
    apply distinctNodes_cons
    · intro c
      cases cutByte slash rest with
      | none => exact ⟨List.nodup_singleton _, by simp [TrieNode.descend]⟩
      | some p => exact ih c p.2
    · split_ifs <;> simp

/-- An insertion adds nodes on the way of its endpoint only. -/
theorem TrieNode.descend_insert {endpoint : Bytes} {m : α} {segs : List EndpointSegment} :
    ∀ {n n' : TrieNode α}, insert endpoint m segs n = .ok n' → ∀ shs, (n'.descend shs).isSome = true →
      (n.descend shs).isSome = true ∨ shs <+: segs.map EndpointSegment.shape := by
  induction segs with
  | nil =>
    intro n n' h shs hshs
    obtain ⟨-, rfl⟩ := (insert_nil_ok_iff endpoint m n n').1 h
    cases shs with
    | nil => exact .inl rfl
    | cons sh shs => cases sh <;> exact .inl hshs
  | cons seg segs ih =>
    intro n n' h shs hshs
    obtain ⟨-, c, hc, rfl⟩ := (insert_cons_ok_iff endpoint m seg segs n n').1 h
    cases shs with
    | nil => exact .inl rfl
    | cons sh shs =>
      rw [descend, child_set] at hshs
      split_ifs at hshs with hsh
      · subst hsh
        rcases ih hc shs hshs with hold | hnew
        · cases hchild : n.child seg.shape with
          | some d =>
            rw [hchild] at hold
            exact .inl (by rw [descend, hchild]; exact hold)
          | none =>
            -- the child is new, and nothing is below it yet
            rw [hchild] at hold
            cases shs with
            | nil => exact .inr (by simp)
            | cons sh' shs => cases sh' <;> cases hold
        · exact .inr (List.cons_prefix_cons.2 ⟨rfl, hnew⟩)
      · exact .inl hshs

end Nodes

variable {ids : Option EndpointIDResolver} {name : Bytes} {ms : List Mapping}

/-- The loop of `Compile` adds nodes on the way of the endpoints only. -/
theorem compileLoop_nodes : ∀ {i : Nat} {t t' : EndpointTrie MappingPtr}
    {leaves leaves' : Option (List (Bytes × MappingPtr))},
    compileLoop ids name i ms t leaves = .ok (t', leaves') → ∀ shs, (t'.root.descend shs).isSome = true →
      (t.root.descend shs).isSome = true ∨ ∃ m ∈ ms, shs <+: m.levels.map EndpointSegment.shape := by
  induction ms with
  | nil =>
    intro i t t' leaves leaves' h shs hshs
    cases h
    exact .inl hshs
  | cons m ms ih =>
    intro i t t' leaves leaves' h shs hshs
    obtain ⟨-, t₁, leaves₁, hadd, -, h⟩ := compileLoop_cons_eq_ok_iff.1 h
    rcases ih h shs hshs with hold | ⟨m', hm', hprefix⟩
    · cases hsegs : splitEndpoint m.endpoint with
      | error err =>
        rw [EndpointTrie.add, hsegs] at hadd
        cases hadd
      | ok segs =>
        rw [add_eq_ok_iff hsegs] at hadd
        refine (TrieNode.descend_insert hadd shs hold).imp_right fun hnew => ?_
        exact ⟨m, List.mem_cons_self, by rwa [Mapping.levels_eq hsegs]⟩
    · exact .inr ⟨m', List.mem_cons_of_mem _ hm', hprefix⟩

/-- One match reads every node of a compiled trie at most once, so it reads at most as many nodes as the
endpoints have levels, and the root. -/
theorem matchPath_visits {iface : Interface} {ci : CompiledInterface} (h : compile iface ids = .ok ci)
    (path : Bytes) :
    (ci.trie.matchVisits path).Nodup ∧
      (∀ shs ∈ ci.trie.matchVisits path, (ci.trie.root.descend shs).isSome = true) ∧
      (ci.trie.matchVisits path).length ≤ (iface.mappings.map fun m => m.levels.length).sum + 1 := by
  obtain ⟨-, -, trie, leaves, hloop, rfl⟩ := compile_eq_ok_iff.1 h
  have hvisits : DistinctNodes trie.root (trie.matchVisits path) := by
    unfold EndpointTrie.matchVisits
    split_ifs
    · exact ⟨List.nodup_nil, nofun⟩
    · exact distinctNodes_matchNodeVisits _ _ _
  refine ⟨hvisits.nodup, hvisits.nodes, ?_⟩
  have hsub : trie.matchVisits path ⊆
      [] :: iface.mappings.flatMap fun m => (m.levels.map EndpointSegment.shape).inits.tail := by
    intro shs hshs
    rcases compileLoop_nodes hloop shs (hvisits.nodes shs hshs) with hnew | ⟨m, hm, hprefix⟩
    · cases shs with
      | nil => exact List.mem_cons_self
      | cons sh shs => cases sh <;> cases hnew
    · cases shs with
      | nil => exact List.mem_cons_self
      | cons sh shs =>
        refine List.mem_cons_of_mem _ (List.mem_flatMap.2 ⟨m, hm, ?_⟩)
        have hinits := (List.mem_inits _ _).2 hprefix
        cases hlevels : m.levels.map EndpointSegment.shape with
        | nil =>
          rw [hlevels] at hprefix
          cases List.prefix_nil.1 hprefix
        | cons a as =>
          rw [hlevels] at hinits
          exact (List.mem_cons.1 hinits).resolve_left (List.cons_ne_nil _ _)
  refine (List.subperm_of_subset hvisits.nodup hsub).length_le.trans ?_
  simp [List.length_flatMap]

theorem matchPath_visits_sensor : ∃ ci, compile sensorInterface none = .ok ci ∧
    (ci.trie.matchVisits (utf8 "/4/value")).length ≤ 5 := by
  obtain ⟨ci, hci⟩ : ∃ ci, compile sensorInterface none = .ok ci := ⟨_, rfl⟩
  exact ⟨ci, hci, (matchPath_visits hci (utf8 "/4/value")).2.2⟩

end Astrate.InterfaceSchema
