import Astrate.GoLib.Map
import Astrate.InterfaceSchema.Endpoint

/-!
# Endpoint trie

`pkg/interfaceschema/trie.go`: insertion of endpoint patterns into a trie of levels and resolution
of a concrete path, preferring literal children and backtracking into the placeholder child.

The trie is read in two ways that do not depend on its layout. `entry` is the mapping stored under a
sequence of level shapes, and `paramNameAt` the placeholder name declared below one. `entry_insert`
and `paramNameAt_insert` say what an insertion changes, and `insert_ok_iff` when it is accepted.
`matchLevels_sound` and `matchLevels_complete` relate the backtracking search to the entries: a hit is
an entry whose levels match the path, and a path matched by some entry is a hit.
-/

set_option autoImplicit false

namespace Astrate.InterfaceSchema

open Astrate.GoLib

/-- Maximum length of a concrete level matched by a placeholder. -/
def maxPlaceholderValueLen : Nat := 256

/-- One level of the trie. A node may be a leaf (`mapping`) and an interior node at once. -/
structure TrieNode (α : Type) where
  children : List (Bytes × TrieNode α)
  param : Option (TrieNode α)
  paramName : Bytes
  mapping : Option α

namespace TrieNode

variable {α : Type}

/-- A node without children and mapping. -/
def empty : TrieNode α := ⟨[], none, [], none⟩

/-- The loop of `Add` over the levels, with the final check of the reached node. -/
def insert (endpoint : Bytes) (m : α) : List EndpointSegment → TrieNode α →
    Except FmtError (TrieNode α)
  | [], n =>
    match n.mapping with
    | some _ => errorf "interfaceschema: Add(%q): duplicate endpoint" [.str endpoint]
    | none => .ok { n with mapping := some m }
  | seg :: segs, n =>
    if seg.param then
      match n.param with
      | none => do
          let child ← insert endpoint m segs empty
          .ok { n with param := some child, paramName := seg.literal }
      | some p =>
        if n.paramName ≠ seg.literal then
          errorf "interfaceschema: Add(%q): conflicting placeholder %%\x7b%s\x7d already declared as %%\x7b%s\x7d"
            [.str endpoint, .str seg.literal, .str n.paramName]
        else do
          let child ← insert endpoint m segs p
          .ok { n with param := some child }
    else do
      let child ← insert endpoint m segs ((n.children.lookup seg.literal).getD empty)
      .ok { n with children := mapSet n.children seg.literal child }

end TrieNode

/-- The charset and length rule for a concrete level consumed by a placeholder. -/
def placeholderValueOK (seg : Bytes) : Bool :=
  !decide (seg.length > maxPlaceholderValueLen) && !seg.contains 43 && !seg.contains 35

/-- Match of `rest`, the remaining path with its leading `/` stripped. Each call strips a level, so
`fuel` above the length of `rest` is never used up. -/
def matchNode {α : Type} : Nat → TrieNode α → Bytes → Option α
  | 0, _, _ => none
  | fuel + 1, n, rest =>
    let cut := cutByte slash rest
    let seg := (cut.map Prod.fst).getD rest
    let descend := fun child : TrieNode α =>
      match cut with
      | none => child.mapping
      | some p => matchNode fuel child p.2
    if seg = [] then none
    else
      match (n.children.lookup seg).bind descend with
      | some m => some m
      | none => if placeholderValueOK seg then n.param.bind descend else none

/-- An endpoint trie; `α` is what it stores for an endpoint. -/
structure EndpointTrie (α : Type) where
  root : TrieNode α

namespace EndpointTrie

variable {α : Type}

/-- `NewEndpointTrie`. -/
def new : EndpointTrie α := ⟨.empty⟩

/-- Insertion of one endpoint pattern. -/
def add (t : EndpointTrie α) (endpoint : Bytes) (m : Option α) : Except FmtError (EndpointTrie α) :=
  match m with
  | none => errorf "interfaceschema: Add(%q): nil mapping" [.str endpoint]
  | some m => do
      let segs ← (splitEndpoint endpoint).mapError fun e => ⟨"interfaceschema: " ++ e.format, e.args⟩
      let root ← t.root.insert endpoint m segs
      .ok ⟨root⟩

/-- Resolution of a concrete path. -/
def matchPath (t : EndpointTrie α) (path : Bytes) : Option α :=
  if path.length < 2 ∨ path.head? ≠ some slash then none
  else matchNode path.length t.root path.tail

end EndpointTrie

/-! ## Reading a trie by level shapes -/

namespace TrieNode

variable {α : Type}

/-- The node below a level shape. -/
def child (n : TrieNode α) : Option Bytes → Option (TrieNode α)
  | none => n.param
  | some lit => n.children.lookup lit

/-- The mapping stored under a sequence of level shapes. -/
def entry : List (Option Bytes) → TrieNode α → Option α
  | [], n => n.mapping
  | sh :: shs, n => (n.child sh).bind (entry shs)

/-- The placeholder name declared directly below a sequence of level shapes. -/
def paramNameAt : List (Option Bytes) → TrieNode α → Option Bytes
  | [], n => n.param.map fun _ => n.paramName
  | sh :: shs, n => (n.child sh).bind (paramNameAt shs)

@[simp] theorem entry_empty (shs : List (Option Bytes)) : entry shs (empty : TrieNode α) = none := by
  cases shs <;> simp [entry, empty, child]
  rename_i sh _
  cases sh <;> simp

@[simp] theorem paramNameAt_empty (shs : List (Option Bytes)) :
    paramNameAt shs (empty : TrieNode α) = none := by
  cases shs <;> simp [paramNameAt, empty, child]
  rename_i sh _
  cases sh <;> simp

end TrieNode

/-- The placeholder name an endpoint declares directly below a sequence of level shapes. -/
def placeholderAt : List (Option Bytes) → List EndpointSegment → Option Bytes
  | [], seg :: _ => if seg.param then some seg.literal else none
  | sh :: shs, seg :: segs => if seg.shape = sh then placeholderAt shs segs else none
  | _, [] => none

@[simp] theorem placeholderAt_nil (shs : List (Option Bytes)) : placeholderAt shs [] = none := by
  cases shs <;> rfl

namespace TrieNode

variable {α : Type}

/-- One level of an insertion: the child for the level is replaced by its insertion of the remaining
levels, and a placeholder name already declared there has to be the same. -/
theorem insert_cons_ok_iff (endpoint : Bytes) (m : α) (seg : EndpointSegment)
    (segs : List EndpointSegment) (n n' : TrieNode α) :
    insert endpoint m (seg :: segs) n = .ok n' ↔
      (∀ name, placeholderAt [] (seg :: segs) = some name → ∀ name', paramNameAt [] n = some name' →
        name' = name) ∧
      ∃ c, insert endpoint m segs ((n.child seg.shape).getD empty) = .ok c ∧
        n' = if seg.param then { n with param := some c, paramName := seg.literal }
          else { n with children := mapSet n.children seg.literal c } := by
  obtain ⟨children, param, paramName, mapping⟩ := n
  obtain ⟨lit, isParam⟩ := seg
  cases isParam with
  | false =>
    simp only [insert, placeholderAt, EndpointSegment.shape, child, bind_eq_ok_iff,
      Except.ok.injEq, Bool.false_eq_true, if_false, eq_comm (a := n')]
    exact (and_iff_right (by simp)).symm
  | true =>
    cases param with
    | none =>
      simp only [insert, placeholderAt, EndpointSegment.shape, child, paramNameAt,
        bind_eq_ok_iff, Except.ok.injEq, if_true, eq_comm (a := n')]
      exact (and_iff_right (by simp)).symm
    | some p =>
      simp only [insert, placeholderAt, EndpointSegment.shape, child, paramNameAt, if_true, Option.getD_some]
      by_cases hname : paramName = lit
      · subst hname
        simp only [ne_eq, not_true_eq_false, if_false, bind_eq_ok_iff, Except.ok.injEq, eq_comm (a := n')]
        exact (and_iff_right (by simp)).symm
      · simp [hname]

theorem insert_nil_ok_iff (endpoint : Bytes) (m : α) (n n' : TrieNode α) :
    insert endpoint m [] n = .ok n' ↔ n.mapping = none ∧ n' = { n with mapping := some m } := by
  unfold insert
  cases n.mapping <;> simp [eq_comm (a := n')]

/-- The node below a level after an insertion through `seg`. -/
theorem child_set (n : TrieNode α) (seg : EndpointSegment) (c : TrieNode α) (sh : Option Bytes) :
    (if seg.param then { n with param := some c, paramName := seg.literal }
      else { n with children := mapSet n.children seg.literal c }).child sh =
      if seg.shape = sh then some c else n.child sh := by
  obtain ⟨lit, isParam⟩ := seg
  cases isParam with
  | true => cases sh <;> simp [child, EndpointSegment.shape]
  | false =>
    cases sh with
    | none => simp [child, EndpointSegment.shape]
    | some l =>
      simp only [child, EndpointSegment.shape, lookup_mapSet, Bool.false_eq_true, if_false,
        Option.some.injEq, beq_iff_eq, eq_comm (a := lit)]

/-- Reading below a level commutes with the default for a missing child. -/
theorem bind_entry_getD (o : Option (TrieNode α)) (shs : List (Option Bytes)) :
    entry shs (o.getD empty) = o.bind (entry shs) := by
  cases o <;> simp

theorem bind_paramNameAt_getD (o : Option (TrieNode α)) (shs : List (Option Bytes)) :
    paramNameAt shs (o.getD empty) = o.bind (paramNameAt shs) := by
  cases o <;> simp

/-- An insertion adds exactly the entry of its endpoint. -/
theorem entry_insert (endpoint : Bytes) (m : α) :
    ∀ (segs : List EndpointSegment) (n n' : TrieNode α),
      insert endpoint m segs n = .ok n' → ∀ shs, entry shs n' =
        if shs = segs.map EndpointSegment.shape then some m else entry shs n := by
  intro segs
  induction segs with
  | nil =>
    intro n n' h shs
    obtain ⟨hm, rfl⟩ := (insert_nil_ok_iff endpoint m n n').1 h
    cases shs with
    | nil => simp [entry]
    | cons sh shs => cases sh <;> simp [entry, child]
  | cons seg segs ih =>
    intro n n' h shs
    obtain ⟨-, c, hc, rfl⟩ := (insert_cons_ok_iff endpoint m seg segs n n').1 h
    cases shs with
    | nil => cases hp : seg.param <;> simp [entry]
    | cons sh shs =>
      simp only [entry, child_set, List.map_cons, List.cons.injEq]
      by_cases hsh : seg.shape = sh
      · subst hsh
        simp only [if_true, Option.bind_some, true_and]
        rw [ih _ _ hc shs, bind_entry_getD]
      · rw [if_neg hsh, if_neg fun h => hsh h.1.symm]

/-- An insertion adds exactly the placeholder names of its endpoint. -/
theorem paramNameAt_insert (endpoint : Bytes) (m : α) :
    ∀ (segs : List EndpointSegment) (n n' : TrieNode α),
      insert endpoint m segs n = .ok n' → ∀ shs, paramNameAt shs n' =
        (placeholderAt shs segs).or (paramNameAt shs n) := by
  intro segs
  induction segs with
  | nil =>
    intro n n' h shs
    obtain ⟨hm, rfl⟩ := (insert_nil_ok_iff endpoint m n n').1 h
    cases shs with
    | nil => simp [paramNameAt]
    | cons sh shs => cases sh <;> simp [paramNameAt, child]
  | cons seg segs ih =>
    intro n n' h shs
    obtain ⟨-, c, hc, rfl⟩ := (insert_cons_ok_iff endpoint m seg segs n n').1 h
    cases shs with
    | nil => cases hp : seg.param <;> simp [paramNameAt, placeholderAt, hp]
    | cons sh shs =>
      simp only [paramNameAt, child_set, placeholderAt]
      by_cases hsh : seg.shape = sh
      · subst hsh
        simp only [if_true, Option.bind_some]
        rw [ih _ _ hc shs, bind_paramNameAt_getD]
      · simp [hsh]

/-- An insertion is accepted exactly when its endpoint is not stored yet and none of its placeholders
has another name in the trie. -/
theorem insert_ok_iff (endpoint : Bytes) (m : α) :
    ∀ (segs : List EndpointSegment) (n : TrieNode α),
      (∃ n', insert endpoint m segs n = .ok n') ↔
        entry (segs.map EndpointSegment.shape) n = none ∧
        ∀ shs name, placeholderAt shs segs = some name → ∀ name', paramNameAt shs n = some name' →
          name' = name := by
  intro segs
  induction segs with
  | nil =>
    intro n
    simp [insert_nil_ok_iff, entry]
  | cons seg segs ih =>
    intro n
    simp only [insert_cons_ok_iff]
    have key := ih ((n.child seg.shape).getD empty)
    simp only [bind_entry_getD, bind_paramNameAt_getD] at key
    constructor
    · rintro ⟨n', hroot, c, hc, -⟩
      obtain ⟨hentry, hnames⟩ := key.1 ⟨c, hc⟩
      refine ⟨hentry, ?_⟩
      intro shs name hname
      cases shs with
      | nil => exact hroot name hname
      | cons sh shs =>
        simp only [placeholderAt] at hname
        split_ifs at hname with hsh
        subst hsh
        exact hnames shs name hname
    · rintro ⟨hentry, hnames⟩
      obtain ⟨c, hc⟩ := key.2 ⟨hentry, fun shs name hname =>
        hnames (seg.shape :: shs) name (by simpa [placeholderAt] using hname)⟩
      exact ⟨_, fun name hname => hnames [] name hname, c, hc, rfl⟩

end TrieNode

/-! ## Resolution of a path -/

/-- A concrete level is matched by a level shape: the same text, or a text a placeholder may stand
for. -/
def levelMatches (seg : Bytes) : Option Bytes → Prop
  | some lit => seg = lit
  | none => placeholderValueOK seg = true

/-- A path is matched by level shapes: it is `/`-rooted and its parts between separators are not
empty and match the shapes one by one. -/
def pathMatches (path : Bytes) (shs : List (Option Bytes)) : Prop :=
  ∃ rest, path = slash :: rest ∧
    List.Forall₂ (fun seg sh => seg ≠ [] ∧ levelMatches seg sh) (rest.splitOn slash) shs

/-- The search over the levels of a path already split. The source prefers literal children; with
`literalFirst` false the placeholder child is tried first. -/
def matchLevels {α : Type} (literalFirst : Bool) : List Bytes → TrieNode α → Option α
  | [], n => n.mapping
  | seg :: segs, n =>
    if seg = [] then none
    else
      let viaLiteral := (n.child (some seg)).bind (matchLevels literalFirst segs)
      let viaParam :=
        if placeholderValueOK seg then (n.child none).bind (matchLevels literalFirst segs)
        else none
      if literalFirst then viaLiteral.or viaParam else viaParam.or viaLiteral

/-- Cutting off one level at a time is the search over the split path. -/
theorem matchNode_eq_matchLevels {α : Type} :
    ∀ (fuel : Nat) (n : TrieNode α) (rest : Bytes), rest.length < fuel →
      matchNode fuel n rest = matchLevels true (rest.splitOn slash) n := by
  intro fuel
  induction fuel with
  | zero => intro n rest h; omega
  | succ fuel ih =>
    intro n rest hlt
    cases hcut : cutByte slash rest with
    | none =>
      rw [splitOn_of_cutByte_none hcut]
      simp only [matchNode, hcut, Option.map_none, Option.getD_none, matchLevels, TrieNode.child, if_true]
      cases (n.children.lookup rest).bind fun child => child.mapping <;> rfl
    | some p =>
      obtain ⟨seg, tail⟩ := p
      have hlt' := cutByte_length_lt hcut
      have hdesc : (fun child : TrieNode α => matchNode fuel child tail) =
          matchLevels true (tail.splitOn slash) := by
        funext child
        exact ih child tail (by omega)
      rw [splitOn_of_cutByte_some hcut]
      simp only [matchNode, hcut, Option.map_some, Option.getD_some, matchLevels,
        TrieNode.child, hdesc, if_true]
      cases (n.children.lookup seg).bind (matchLevels true (tail.splitOn slash)) <;> rfl

/-- A hit below a level came through the literal child or through the placeholder child. -/
theorem matchLevels_cons_eq_some {α : Type} {literalFirst : Bool} {m : α} {seg : Bytes}
    {segs : List Bytes} {n : TrieNode α} (h : matchLevels literalFirst (seg :: segs) n = some m) :
    seg ≠ [] ∧ ∃ sh child, levelMatches seg sh ∧ n.child sh = some child ∧
      matchLevels literalFirst segs child = some m := by
  simp only [matchLevels] at h
  split_ifs at h with hnil hfirst hph hph
  · refine ⟨hnil, ?_⟩
    rw [Option.or_eq_some_iff] at h
    rcases h with h | ⟨-, h⟩
    · obtain ⟨child, hchild, h⟩ := Option.bind_eq_some_iff.1 h
      exact ⟨some seg, child, rfl, hchild, h⟩
    · obtain ⟨child, hchild, h⟩ := Option.bind_eq_some_iff.1 h
      exact ⟨none, child, hph, hchild, h⟩
  · refine ⟨hnil, ?_⟩
    rw [Option.or_none] at h
    obtain ⟨child, hchild, h⟩ := Option.bind_eq_some_iff.1 h
    exact ⟨some seg, child, rfl, hchild, h⟩
  · refine ⟨hnil, ?_⟩
    rw [Option.or_eq_some_iff] at h
    rcases h with h | ⟨-, h⟩
    · obtain ⟨child, hchild, h⟩ := Option.bind_eq_some_iff.1 h
      exact ⟨none, child, hph, hchild, h⟩
    · obtain ⟨child, hchild, h⟩ := Option.bind_eq_some_iff.1 h
      exact ⟨some seg, child, rfl, hchild, h⟩
  · refine ⟨hnil, ?_⟩
    obtain ⟨child, hchild, h⟩ := Option.bind_eq_some_iff.1 h
    exact ⟨some seg, child, rfl, hchild, h⟩

/-- A hit of the search is an entry whose shapes match. -/
theorem matchLevels_sound {α : Type} {literalFirst : Bool} {m : α} :
    ∀ (segs : List Bytes) (n : TrieNode α), matchLevels literalFirst segs n = some m →
      ∃ shs, n.entry shs = some m ∧ List.Forall₂ (fun seg sh => seg ≠ [] ∧ levelMatches seg sh) segs shs := by
  intro segs
  induction segs with
  | nil => intro n h; exact ⟨[], h, .nil⟩
  | cons seg segs ih =>
    intro n h
    obtain ⟨hnil, sh, child, hmatch, hchild, hsub⟩ := matchLevels_cons_eq_some h
    obtain ⟨shs, hentry, hall⟩ := ih child hsub
    exact ⟨sh :: shs, by simp [TrieNode.entry, hchild, hentry], .cons ⟨hnil, hmatch⟩ hall⟩

/-- A path matched by some entry is a hit: backtracking reaches the other branch whenever the
preferred one has none. -/
theorem matchLevels_complete {α : Type} (literalFirst : Bool) {m : α} :
    ∀ (segs : List Bytes) (shs : List (Option Bytes)) (n : TrieNode α),
      n.entry shs = some m →
        List.Forall₂ (fun seg sh => seg ≠ [] ∧ levelMatches seg sh) segs shs →
          (matchLevels literalFirst segs n).isSome := by
  intro segs
  induction segs with
  | nil =>
    intro shs n h hall
    rw [List.forall₂_nil_left_iff] at hall
    subst hall
    simp only [TrieNode.entry] at h
    simp [matchLevels, h]
  | cons seg segs ih =>
    intro shs n h hall
    obtain ⟨sh, shs', ⟨hnil, hmatch⟩, htail, rfl⟩ := List.forall₂_cons_left_iff.1 hall
    obtain ⟨child, hchild, hentry⟩ := Option.bind_eq_some_iff.1 h
    have hsub : (matchLevels literalFirst segs child).isSome := ih shs' child hentry htail
    cases sh with
    | some lit =>
      subst hmatch
      cases literalFirst <;> simp [matchLevels, hnil, hchild, hsub]
    | none =>
      simp only [levelMatches] at hmatch
      cases literalFirst <;> simp [matchLevels, hnil, hmatch, hchild, hsub]

namespace EndpointTrie

variable {α : Type}

/-- `Match` is the search over the levels of a `/`-rooted path. -/
theorem matchPath_cons (t : EndpointTrie α) (rest : Bytes) :
    t.matchPath (slash :: rest) = matchLevels true (rest.splitOn slash) t.root := by
  cases rest with
  | nil => simp [matchPath, matchLevels]
  | cons c cs =>
    have hlen : ¬ ((slash :: c :: cs).length < 2 ∨ (slash :: c :: cs).head? ≠ some slash) := by
      simp
    exact matchNode_eq_matchLevels _ _ _ (by simp)

theorem matchPath_eq_none_of_head (t : EndpointTrie α) {path : Bytes}
    (h : path.head? ≠ some slash) : t.matchPath path = none := by
  simp [matchPath, h]

end EndpointTrie

end Astrate.InterfaceSchema
