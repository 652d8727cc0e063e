import Astrate.InterfaceSchema.Parse
import Astrate.InterfaceSchema.Trie

/-!
# Compiled interfaces

`Compile` of `pkg/interfaceschema/compile.go` turns a parsed definition into its endpoint trie and,
for object aggregation, the table of its last levels.

`Represents` ties the trie under construction to the endpoints added so far; one `add` keeps it
(`Represents.add`) and is accepted exactly when the new endpoint conflicts with none of them
(`Represents.add_ok_iff`). From the two, `compile_ok_iff` says which accepted definitions compile
and `compile_represents` what the trie of a compiled definition holds. `matchPath_eq_some_iff` is the
meaning of a match in terms of the declared endpoints alone.
-/

set_option autoImplicit false

namespace Astrate.InterfaceSchema

open Astrate.GoLib

/-! ## The compiler -/

/-- The hot-path form of one endpoint mapping. -/
structure CompiledMapping where
  endpointID : Int := 0
  valueType : ValueType
  reliability : Nat
  retention : Retention
  expiry : Int
  explicitTimestamp : Bool
  allowUnset : Bool
  dbRetentionTTL : Int
  required : Bool
  encrypted : Bool
  deriving DecidableEq, Repr

/-- A pointer to a compiled mapping: the allocation of the loop pass `index` and what it points
to. -/
structure MappingPtr where
  index : Nat
  mapping : CompiledMapping
  deriving DecidableEq, Repr

/-- `time.Second`, in nanoseconds. -/
def second : Int := 1000000000

/-- The result of a computation in 64-bit integers. -/
def wrapInt64 (x : Int) : Int := x.bmod (2 ^ 64)

/-- The compiled form of one mapping, its endpoint identifier apart. -/
def compileMapping (m : Mapping) : CompiledMapping where
  valueType := m.type
  reliability := m.reliability.qos
  retention := m.retention
  expiry := wrapInt64 (m.expiry * second)
  explicitTimestamp := m.explicitTimestamp
  allowUnset := m.allowUnset
  dbRetentionTTL := wrapInt64 (m.databaseRetentionTTL * second)
  required := m.required
  encrypted := m.encrypted

/-- `EndpointIDResolver`: the storage identifiers of an interface and of its endpoints. -/
structure EndpointIDResolver where
  resolveInterface : Bytes → Int → Except FmtError Int
  resolveEndpoint : Bytes → Except FmtError Int

/-- The hot-path form of a definition. `objectLeaves` is `none` for individual aggregation. -/
structure CompiledInterface where
  id : Int
  name : Bytes
  major : Int
  minor : Int
  type : InterfaceType
  ownership : Ownership
  aggregation : Aggregation
  trie : EndpointTrie MappingPtr
  objectLeaves : Option (List (Bytes × MappingPtr))

/-- The last level of an endpoint, which has to be a literal. -/
def lastLiteralSegment (endpoint : Bytes) : Except FmtError Bytes := do
  let segs ← (splitEndpoint endpoint).mapError fun e => ⟨"interfaceschema: " ++ e.format, e.args⟩
  match segs.getLast? with
  | none => .ok []
  | some last =>
    if last.param then
      errorf "interfaceschema: object-aggregated mapping %q must end in a literal segment"
        [.str endpoint]
    else .ok last.literal

/-- The entry of one mapping in the table of last levels. -/
def addLeaf (ifaceName : Bytes) (m : Mapping) (p : MappingPtr)
    (leaves : Option (List (Bytes × MappingPtr))) : Except FmtError (Option (List (Bytes × MappingPtr))) :=
  match leaves with
  | none => .ok none
  | some l => do
      let leaf ← lastLiteralSegment m.endpoint
      if (l.lookup leaf).isSome then
        errorf "interfaceschema: duplicate object leaf %q in %s" [.str leaf, .str ifaceName]
      else .ok (some (mapSet l leaf p))

/-- The endpoint identifier of one mapping; zero without a resolver. -/
def resolveEndpoint (ids : Option EndpointIDResolver) (endpoint : Bytes) : Except FmtError Int :=
  match ids with
  | none => .ok 0
  | some r =>
    (r.resolveEndpoint endpoint).mapError fun e =>
      ⟨"interfaceschema: resolving endpoint %q: " ++ e.format, .str endpoint :: e.args⟩

/-- The compiled form of one mapping; `0` stands for an identifier that does not resolve. -/
def compiledWith (ids : Option EndpointIDResolver) (m : Mapping) : CompiledMapping :=
  { compileMapping m with endpointID := (resolveEndpoint ids m.endpoint).toOption.getD 0 }

/-- The loop over the mappings. -/
def compileLoop (ids : Option EndpointIDResolver) (ifaceName : Bytes) :
    Nat → List Mapping → EndpointTrie MappingPtr → Option (List (Bytes × MappingPtr)) →
      Except FmtError (EndpointTrie MappingPtr × Option (List (Bytes × MappingPtr)))
  | _, [], trie, leaves => .ok (trie, leaves)
  | i, m :: ms, trie, leaves => do
      let id ← resolveEndpoint ids m.endpoint
      let p : MappingPtr := ⟨i, { compileMapping m with endpointID := id }⟩
      let trie ← trie.add m.endpoint (some p)
      let leaves ← addLeaf ifaceName m p leaves
      compileLoop ids ifaceName (i + 1) ms trie leaves

/-- The interface identifier; zero without a resolver. -/
def resolveInterface (ids : Option EndpointIDResolver) (name : Bytes) (major : Int) : Except FmtError Int :=
  match ids with
  | none => .ok 0
  | some r =>
    (r.resolveInterface name major).mapError fun e =>
      ⟨"interfaceschema: resolving interface %s v%d: " ++ e.format, .str name :: .int major :: e.args⟩

/-- `Compile`. -/
def compile (iface : Interface) (ids : Option EndpointIDResolver) :
    Except FmtError CompiledInterface := do
  let id ← resolveInterface ids iface.name iface.major
  let leaves := if iface.aggregation = .object then some [] else none
  let (trie, objectLeaves) ← compileLoop ids iface.name 0 iface.mappings EndpointTrie.new leaves
  .ok { id, name := iface.name, major := iface.major, minor := iface.minor, type := iface.type,
        ownership := iface.ownership, aggregation := iface.aggregation, trie, objectLeaves }

/-! ## The trie under construction -/

theorem placeholderAt_eq_some_iff {shs : List (Option Bytes)} {segs : List EndpointSegment} {name : Bytes} :
    placeholderAt shs segs = some name ↔
      ∃ pre seg post, segs = pre ++ seg :: post ∧ pre.map EndpointSegment.shape = shs ∧
        seg.param = true ∧ seg.literal = name := by
  induction shs generalizing segs with
  | nil =>
    cases segs with
    | nil => simp
    | cons seg segs =>
      simp only [placeholderAt, Option.ite_none_right_eq_some, Option.some.injEq, List.map_eq_nil_iff]
      constructor
      · rintro ⟨hp, hl⟩
        exact ⟨[], seg, segs, rfl, rfl, hp, hl⟩
      · rintro ⟨pre, seg', post, heq, rfl, hp, hl⟩
        obtain ⟨rfl, -⟩ := heq
        exact ⟨hp, hl⟩
  | cons sh shs ih =>
    cases segs with
    | nil => simp
    | cons seg segs =>
      simp only [placeholderAt, Option.ite_none_right_eq_some, ih]
      constructor
      · rintro ⟨hsh, pre, seg', post, rfl, hpre, hp, hl⟩
        exact ⟨seg :: pre, seg', post, rfl, by simp [hsh, hpre], hp, hl⟩
      · rintro ⟨pre, seg', post, heq, hpre, hp, hl⟩
        cases pre with
        | nil => simp at hpre
        | cons s pre =>
          simp only [List.map_cons, List.cons.injEq] at hpre
          obtain ⟨rfl, rfl⟩ := heq
          exact ⟨hpre.1, pre, seg', post, rfl, hpre.2, hp, hl⟩

/-- Two endpoints agree, placeholder names apart, up to a level at which both have a placeholder and
the names differ. -/
def PlaceholderClash (a b : List EndpointSegment) : Prop :=
  ∃ pre x as pre' y bs, a = pre ++ x :: as ∧ b = pre' ++ y :: bs ∧
    pre.map EndpointSegment.shape = pre'.map EndpointSegment.shape ∧
    x.param = true ∧ y.param = true ∧ x.literal ≠ y.literal

variable {a b : List EndpointSegment}

theorem placeholderClash_iff :
    PlaceholderClash a b ↔ ∃ shs x y, placeholderAt shs a = some x ∧ placeholderAt shs b = some y ∧ x ≠ y := by
  constructor
  · rintro ⟨pre, x, as, pre', y, bs, rfl, rfl, hpre, hx, hy, hne⟩
    exact ⟨pre.map EndpointSegment.shape, x.literal, y.literal,
      placeholderAt_eq_some_iff.2 ⟨pre, x, as, rfl, rfl, hx, rfl⟩,
      placeholderAt_eq_some_iff.2 ⟨pre', y, bs, rfl, hpre.symm, hy, rfl⟩, hne⟩
  · rintro ⟨shs, x, y, hx, hy, hne⟩
    obtain ⟨pre, x, as, rfl, rfl, hxp, rfl⟩ := placeholderAt_eq_some_iff.1 hx
    obtain ⟨pre', y, bs, rfl, hpre, hyp, rfl⟩ := placeholderAt_eq_some_iff.1 hy
    exact ⟨pre, x, as, pre', y, bs, rfl, rfl, hpre.symm, hxp, hyp, hne⟩

/-- Two endpoints that cannot be in one trie: they have the same shapes, or their placeholder names
clash. -/
def TrieConflict (a b : List EndpointSegment) : Prop :=
  a.map EndpointSegment.shape = b.map EndpointSegment.shape ∨ PlaceholderClash a b

section Representation

variable {α : Type}

/-- A trie holds exactly the given endpoints. -/
structure Represents (t : EndpointTrie α) (ps : List (List EndpointSegment × α)) : Prop where
  entry : ∀ shs p, t.root.entry shs = some p ↔
    ∃ segs, (segs, p) ∈ ps ∧ segs.map EndpointSegment.shape = shs
  names : ∀ shs name, t.root.paramNameAt shs = some name ↔
    ∃ segs p, (segs, p) ∈ ps ∧ placeholderAt shs segs = some name

theorem represents_new : Represents (EndpointTrie.new : EndpointTrie α) [] :=
  ⟨by simp [EndpointTrie.new], by simp [EndpointTrie.new]⟩

variable {t t' : EndpointTrie α} {ps : List (List EndpointSegment × α)} {endpoint : Bytes}
  {segs : List EndpointSegment} {p : α}

theorem add_eq_ok_iff (hsegs : splitEndpoint endpoint = .ok segs) :
    t.add endpoint (some p) = .ok t' ↔ t.root.insert endpoint p segs = .ok t'.root := by
  simp only [EndpointTrie.add, hsegs, Except.mapError, bind_eq_ok_iff, Except.ok.injEq, exists_eq_left']
  constructor
  · rintro ⟨root, hroot, rfl⟩
    exact hroot
  · intro h
    exact ⟨t'.root, h, rfl⟩

/-- Adding an endpoint to a trie that holds `ps` is accepted exactly when it conflicts with none of
them. -/
theorem Represents.add_ok_iff (h : Represents t ps) (hsegs : splitEndpoint endpoint = .ok segs) :
    (∃ t', t.add endpoint (some p) = .ok t') ↔ ∀ q ∈ ps, ¬ TrieConflict q.1 segs := by
  have hadd : (∃ t', t.add endpoint (some p) = .ok t') ↔
      ∃ root, t.root.insert endpoint p segs = .ok root := by
    simp only [add_eq_ok_iff hsegs]
    exact ⟨fun ⟨t', ht'⟩ => ⟨t'.root, ht'⟩, fun ⟨root, hroot⟩ => ⟨⟨root⟩, hroot⟩⟩
  rw [hadd, TrieNode.insert_ok_iff]
  constructor
  · rintro ⟨hentry, hnames⟩ ⟨segs', p'⟩ hq (hshape | hclash)
    · rw [(h.entry _ p').2 ⟨segs', hq, hshape⟩] at hentry
      cases hentry
    · obtain ⟨shs, x, y, hx, hy, hne⟩ := placeholderClash_iff.1 hclash
      exact hne (hnames shs y hy x ((h.names shs x).2 ⟨segs', p', hq, hx⟩))
  · intro hall
    constructor
    · cases hentry : t.root.entry (segs.map EndpointSegment.shape) with
      | none => rfl
      | some p' =>
        obtain ⟨segs', hq, hshape⟩ := (h.entry _ p').1 hentry
        exact absurd (Or.inl hshape) (hall _ hq)
    · intro shs y hy x hx
      obtain ⟨segs', p', hq, hx'⟩ := (h.names shs x).1 hx
      by_contra hne
      exact hall _ hq (Or.inr (placeholderClash_iff.2 ⟨shs, x, y, hx', hy, hne⟩))

/-- Adding an endpoint to a trie that holds `ps` gives a trie that holds it as well. -/
theorem Represents.add (h : Represents t ps) (hsegs : splitEndpoint endpoint = .ok segs)
    (hadd : t.add endpoint (some p) = .ok t') : Represents t' (ps ++ [(segs, p)]) := by
  have hno := (h.add_ok_iff hsegs).1 ⟨t', hadd⟩
  rw [add_eq_ok_iff hsegs] at hadd
  constructor
  · intro shs q
    rw [TrieNode.entry_insert endpoint p segs _ _ hadd shs]
    split_ifs with hshs
    · subst hshs
      simp only [Option.some.injEq, List.mem_append, List.mem_singleton, Prod.mk.injEq]
      constructor
      · rintro rfl
        exact ⟨segs, Or.inr ⟨rfl, rfl⟩, rfl⟩
      · rintro ⟨segs', hq | ⟨-, rfl⟩, hshape⟩
        · exact absurd (Or.inl hshape) (hno _ hq)
        · rfl
    · rw [h.entry]
      simp only [List.mem_append, List.mem_singleton, Prod.mk.injEq]
      constructor
      · rintro ⟨segs', hq, hshape⟩
        exact ⟨segs', Or.inl hq, hshape⟩
      · rintro ⟨segs', hq | ⟨rfl, -⟩, hshape⟩
        · exact ⟨segs', hq, hshape⟩
        · exact absurd hshape.symm hshs
  · intro shs name
    rw [TrieNode.paramNameAt_insert endpoint p segs _ _ hadd shs, Option.or_eq_some_iff, h.names]
    simp only [List.mem_append, List.mem_singleton, Prod.mk.injEq]
    constructor
    · rintro (hname | ⟨-, segs', p', hq, hname⟩)
      · exact ⟨segs, p, Or.inr ⟨rfl, rfl⟩, hname⟩
      · exact ⟨segs', p', Or.inl hq, hname⟩
    · rintro ⟨segs', p', hq | ⟨rfl, -⟩, hname⟩
      · cases hnew : placeholderAt shs segs with
        | none => exact Or.inr ⟨rfl, segs', p', hq, hname⟩
        | some y =>
          by_contra hne
          have hxy : name ≠ y := fun heq => hne (Or.inl (by rw [heq]))
          exact hno _ hq (Or.inr (placeholderClash_iff.2 ⟨shs, name, y, hname, hnew, hxy⟩))
      · exact Or.inl hname

end Representation

/-! ## The loop -/

/-- The last level of a mapping, the key of an object document. -/
def Mapping.leaf (m : Mapping) : Bytes := (m.levels.getLast?.map (·.literal)).getD []

/-- The last level of a mapping is a literal. -/
def Mapping.EndsInLiteral (m : Mapping) : Prop :=
  (m.levels.getLast?.map (·.param)).getD false = false

/-- The pointer allocated for each mapping by the loop passes from `i` on. -/
def pointers (ids : Option EndpointIDResolver) (i : Nat) (ms : List Mapping) : List (Mapping × MappingPtr) :=
  (ms.zipIdx i).map fun e => (e.1, ⟨e.2, compiledWith ids e.1⟩)

theorem pointers_cons (ids : Option EndpointIDResolver) (i : Nat) (m : Mapping) (ms : List Mapping) :
    pointers ids i (m :: ms) = (m, ⟨i, compiledWith ids m⟩) :: pointers ids (i + 1) ms := by
  simp [pointers, List.zipIdx_cons]

variable {m : Mapping}

theorem mem_pointers_iff {ids : Option EndpointIDResolver} {i : Nat} {ms : List Mapping} {p : MappingPtr} :
    (m, p) ∈ pointers ids i ms ↔ ∃ k, ms[k]? = some m ∧ p = ⟨i + k, compiledWith ids m⟩ := by
  induction ms generalizing i with
  | nil => simp [pointers]
  | cons a ms ih =>
    rw [pointers_cons, List.mem_cons, ih]
    constructor
    · rintro (h | ⟨k, hk, rfl⟩)
      · obtain ⟨rfl, rfl⟩ := h
        exact ⟨0, by simp, by simp⟩
      · exact ⟨k + 1, by simpa using hk, by simp; omega⟩
    · rintro ⟨k, hk, rfl⟩
      cases k with
      | zero =>
        simp only [List.getElem?_cons_zero, Option.some.injEq] at hk
        subst hk
        exact Or.inl (by simp)
      | succ k => exact Or.inr ⟨k, by simpa using hk, by simp; omega⟩

theorem addLeaf_some_eq_ok_iff {name : Bytes} {p : MappingPtr}
    {l : List (Bytes × MappingPtr)} {r : Option (List (Bytes × MappingPtr))}
    (hlev : splitEndpoint m.endpoint = .ok m.levels) :
    addLeaf name m p (some l) = .ok r ↔
      m.EndsInLiteral ∧ l.lookup m.leaf = none ∧ r = some (l ++ [(m.leaf, p)]) := by
  obtain ⟨last, hlast⟩ : ∃ last, m.levels.getLast? = some last :=
    Option.isSome_iff_exists.1 (by simpa using splitEndpoint_ne_nil hlev)
  simp only [addLeaf, lastLiteralSegment, hlev, Except.mapError, Mapping.EndsInLiteral,
    Mapping.leaf, hlast, Option.map_some, Option.getD_some, bind_eq_ok_iff, Except.ok.injEq,
    exists_eq_left']
  cases hp : last.param with
  | true => simp
  | false =>
    simp only [Bool.false_eq_true, if_false, Except.ok.injEq, exists_eq_left', true_and]
    cases hl : l.lookup last.literal with
    | some q => simp
    | none => simp [mapSet_of_lookup_eq_none hl, eq_comm]

section Loop

variable {ids : Option EndpointIDResolver} {name : Bytes} {ms : List Mapping}

/-- A pass of the loop. -/
theorem compileLoop_cons_eq_ok_iff {i : Nat} {t : EndpointTrie MappingPtr}
    {leaves : Option (List (Bytes × MappingPtr))}
    {r : EndpointTrie MappingPtr × Option (List (Bytes × MappingPtr))} :
    compileLoop ids name i (m :: ms) t leaves = .ok r ↔
      (∃ id, resolveEndpoint ids m.endpoint = .ok id) ∧
      ∃ t' leaves', t.add m.endpoint (some ⟨i, compiledWith ids m⟩) = .ok t' ∧
        addLeaf name m ⟨i, compiledWith ids m⟩ leaves = .ok leaves' ∧
        compileLoop ids name (i + 1) ms t' leaves' = .ok r := by
  simp only [compileLoop, bind_eq_ok_iff, compiledWith]
  constructor
  · rintro ⟨id, hid, t', ht, leaves', hl, h⟩
    simp only [hid, Except.toOption, Option.getD_some]
    exact ⟨⟨id, rfl⟩, t', leaves', ht, hl, h⟩
  · rintro ⟨⟨id, hid⟩, t', leaves', ht, hl, h⟩
    simp only [hid, Except.toOption, Option.getD_some] at ht hl
    exact ⟨id, hid, t', ht, leaves', hl, h⟩

/-- What the loop leaves behind: the trie holds the endpoints added, and the table of last levels
lists them in declaration order. -/
theorem compileLoop_ok (hlev : ∀ m ∈ ms, splitEndpoint m.endpoint = .ok m.levels) :
    ∀ {i : Nat} {t t' : EndpointTrie MappingPtr} {ps : List (List EndpointSegment × MappingPtr)}
      {leaves leaves' : Option (List (Bytes × MappingPtr))}, Represents t ps →
      compileLoop ids name i ms t leaves = .ok (t', leaves') →
        Represents t' (ps ++ (pointers ids i ms).map fun e => (e.1.levels, e.2)) ∧
        leaves' = leaves.map (· ++ (pointers ids i ms).map fun e => (e.1.leaf, e.2)) := by
  induction ms with
  | nil =>
    intro i t t' ps leaves leaves' hrep h
    obtain ⟨rfl, rfl⟩ := h
    simpa [pointers] using hrep
  | cons m ms ih =>
    intro i t t' ps leaves leaves' hrep h
    rw [List.forall_mem_cons] at hlev
    obtain ⟨-, t1, leaves1, hadd, hleaf, h⟩ := compileLoop_cons_eq_ok_iff.1 h
    obtain ⟨hrep', hleaves⟩ := ih hlev.2 (hrep.add hlev.1 hadd) h
    rw [pointers_cons]
    constructor
    · simpa using hrep'
    · cases leaves with
      | none =>
        simp only [addLeaf, Except.ok.injEq] at hleaf
        subst hleaf
        simpa using hleaves
      | some l =>
        obtain ⟨-, -, rfl⟩ := (addLeaf_some_eq_ok_iff hlev.1).1 hleaf
        simpa using hleaves

theorem resolveEndpoint_none (endpoint : Bytes) :
    ∃ id, resolveEndpoint none endpoint = .ok id := ⟨0, rfl⟩

/-- When the loop without a resolver succeeds: no endpoint conflicts with one added before it, and
with a table of last levels these are distinct literals. -/
theorem compileLoop_ok_iff (hlev : ∀ m ∈ ms, splitEndpoint m.endpoint = .ok m.levels) :
    ∀ {i : Nat} {t : EndpointTrie MappingPtr} {ps : List (List EndpointSegment × MappingPtr)}
      {leaves : Option (List (Bytes × MappingPtr))}, Represents t ps →
      ((∃ r, compileLoop none name i ms t leaves = .ok r) ↔
        ((∀ m ∈ ms, ∀ q ∈ ps, ¬ TrieConflict q.1 m.levels) ∧
          ms.Pairwise fun a b => ¬ TrieConflict a.levels b.levels) ∧
        ∀ l, leaves = some l →
          (∀ m ∈ ms, m.EndsInLiteral ∧ l.lookup m.leaf = none) ∧
          ms.Pairwise fun a b => a.leaf ≠ b.leaf) := by
  induction ms with
  | nil => intro i t ps leaves hrep; simp [compileLoop]
  | cons m ms ih =>
    intro i t ps leaves hrep
    rw [List.forall_mem_cons] at hlev
    simp only [compileLoop_cons_eq_ok_iff, resolveEndpoint_none, true_and, List.forall_mem_cons,
      List.pairwise_cons]
    constructor
    · rintro ⟨r, t', leaves', hadd, hleaf, h⟩
      have hno := (hrep.add_ok_iff hlev.1).1 ⟨t', hadd⟩
      obtain ⟨⟨hold, hpair⟩, hleaves⟩ := (ih hlev.2 (hrep.add hlev.1 hadd)).1 ⟨r, h⟩
      refine ⟨⟨⟨hno, fun m' hm' q hq => hold m' hm' q (List.mem_append_left _ hq)⟩,
        fun m' hm' => hold m' hm' _ (List.mem_append_right _ (List.mem_singleton.2 rfl)),
        hpair⟩, ?_⟩
      rintro l rfl
      obtain ⟨hlit, hnone, rfl⟩ := (addLeaf_some_eq_ok_iff hlev.1).1 hleaf
      obtain ⟨hall, hne⟩ := hleaves _ rfl
      simp only [lookup_concat_eq_none_iff] at hall
      exact ⟨⟨⟨hlit, hnone⟩, fun m' hm' => ⟨(hall m' hm').1, (hall m' hm').2.1⟩⟩,
        fun m' hm' => (hall m' hm').2.2.symm, hne⟩
    · rintro ⟨⟨⟨hno, hold⟩, hhead, hpair⟩, hleaves⟩
      obtain ⟨t', hadd⟩ := (hrep.add_ok_iff (p := ⟨i, compiledWith none m⟩) hlev.1).2 hno
      have hconf : ∀ m' ∈ ms, ∀ q ∈ ps ++ [(m.levels, (⟨i, compiledWith none m⟩ : MappingPtr))],
          ¬ TrieConflict q.1 m'.levels := by
        exact fun m' hm' => forall_mem_concat (hold m' hm') (hhead m' hm')
      have hrec := fun leaves' => (@ih hlev.2 (i + 1) _ _ leaves' (hrep.add hlev.1 hadd)).2
      cases leaves with
      | none =>
        obtain ⟨r, h⟩ := hrec none ⟨⟨hconf, hpair⟩, nofun⟩
        exact ⟨r, t', none, hadd, rfl, h⟩
      | some l =>
        obtain ⟨⟨⟨hlit, hnone⟩, hall⟩, hne, hpair'⟩ := hleaves l rfl
        obtain ⟨r, h⟩ := hrec (some (l ++ [(m.leaf, ⟨i, compiledWith none m⟩)]))
          ⟨⟨hconf, hpair⟩, by
            rintro l' hl'
            rw [Option.some.injEq] at hl'
            subst hl'
            simp only [lookup_concat_eq_none_iff]
            exact ⟨fun m' hm' => ⟨(hall m' hm').1, (hall m' hm').2, (hne m' hm').symm⟩,
              hpair'⟩⟩
        exact ⟨r, t', _, hadd, (addLeaf_some_eq_ok_iff hlev.1).2 ⟨hlit, hnone, rfl⟩, h⟩

end Loop

/-! ## Accepted definitions -/

theorem compile_eq_ok_iff {iface : Interface} {ids : Option EndpointIDResolver} {ci : CompiledInterface} :
    compile iface ids = .ok ci ↔
      ∃ id, resolveInterface ids iface.name iface.major = .ok id ∧
      ∃ trie objectLeaves, compileLoop ids iface.name 0 iface.mappings EndpointTrie.new
          (if iface.aggregation = .object then some [] else none) = .ok (trie, objectLeaves) ∧
        ci = { id, name := iface.name, major := iface.major, minor := iface.minor,
               type := iface.type, ownership := iface.ownership, aggregation := iface.aggregation,
               trie, objectLeaves } := by
  simp only [compile, bind_eq_ok_iff, Except.ok.injEq, Prod.exists, eq_comm (a := ci)]

theorem compile_aggregation {iface : Interface} {ids : Option EndpointIDResolver} {ci : CompiledInterface}
    (h : compile iface ids = .ok ci) : ci.aggregation = iface.aggregation := by
  obtain ⟨_, _, _, _, _, rfl⟩ := compile_eq_ok_iff.1 h
  rfl

/-- Levels with the same shapes overlap. -/
theorem overlapping_of_map_shape_eq
    (h : a.map EndpointSegment.shape = b.map EndpointSegment.shape) : Overlapping a b := by
  induction a generalizing b with
  | nil =>
    cases b with
    | nil => exact .nil
    | cons y ys => simp at h
  | cons x xs ih =>
    cases b with
    | nil => simp at h
    | cons y ys =>
      simp only [List.map_cons, List.cons.injEq] at h
      refine .cons ?_ (ih h.2)
      have hshape := h.1
      unfold EndpointSegment.shape at hshape
      cases hx : x.param with
      | true => exact Or.inl hx
      | false =>
        cases hy : y.param with
        | true => exact Or.inr (Or.inl hy)
        | false =>
          simp only [hx, hy, Bool.false_eq_true, if_false, Option.some.injEq] at hshape
          exact Or.inr (Or.inr hshape)

/-- Two mappings of an object-aggregated definition with the same last level have the same
levels. -/
theorem ObjectShape.levels_eq {first a b : Mapping} (ha : ObjectShape (first, first.levels) (a, a.levels))
    (hb : ObjectShape (first, first.levels) (b, b.levels)) (hane : a.levels ≠ [])
    (hbne : b.levels ≠ []) (hleaf : a.leaf = b.leaf) : a.levels = b.levels := by
  have hpre : a.levels.dropLast = b.levels.dropLast := ha.dropLast_eq.trans hb.dropLast_eq.symm
  have hlast : a.levels.getLast hane = b.levels.getLast hbne := by
    have hal := ha.last_literal
    have hbl := hb.last_literal
    simp only [Mapping.leaf, List.getLast?_eq_some_getLast hane, List.getLast?_eq_some_getLast hbne,
      Option.map_some, Option.getD_some] at hleaf hal hbl
    exact EndpointSegment.ext hleaf (hal.trans hbl.symm)
  rw [← List.dropLast_append_getLast hane, ← List.dropLast_append_getLast hbne, hpre, hlast]

namespace Interface.WellFormed

variable {iface : Interface} {ids : Option EndpointIDResolver} {ci : CompiledInterface}

theorem levels_ne_nil (wf : iface.WellFormed) (hm : m ∈ iface.mappings) : m.levels ≠ [] :=
  splitEndpoint_ne_nil (wf.levels m hm)

/-- The last levels of an object-aggregated definition are distinct literals. -/
theorem distinct_leaves (wf : iface.WellFormed) (hobj : iface.aggregation = .object) :
    (∀ m ∈ iface.mappings, m.EndsInLiteral) ∧ iface.mappings.Pairwise fun a b => a.leaf ≠ b.leaf := by
  obtain ⟨first, hfirst⟩ : ∃ first, iface.mappings.head? = some first :=
    Option.isSome_iff_exists.1 (by simpa using wf.mappings_ne_nil)
  have hshape := wf.object_shape hobj first hfirst
  refine ⟨fun m hm => (hshape m hm).last_literal, ?_⟩
  refine wf.disjoint.imp_of_mem ?_
  intro a b ha hb hdis hleaf
  have heq := (hshape a ha).levels_eq (hshape b hb) (wf.levels_ne_nil ha) (wf.levels_ne_nil hb) hleaf
  exact hdis (overlapping_of_map_shape_eq (by rw [heq]))

/-- An accepted definition compiles exactly when no two of its endpoints disagree on the name of a
placeholder they share. -/
theorem compile_ok_iff (wf : iface.WellFormed) :
    (∃ ci, compile iface none = .ok ci) ↔
      iface.mappings.Pairwise fun a b => ¬ PlaceholderClash a.levels b.levels := by
  have hleaves : ∀ l, (if iface.aggregation = .object then some [] else none) = some l →
      (∀ m ∈ iface.mappings, m.EndsInLiteral ∧ (l : List (Bytes × MappingPtr)).lookup m.leaf = none) ∧
        iface.mappings.Pairwise fun a b => a.leaf ≠ b.leaf := by
    intro l hl
    split_ifs at hl with hobj
    rw [Option.some.injEq] at hl
    subst hl
    obtain ⟨hlit, hne⟩ := wf.distinct_leaves hobj
    exact ⟨fun m hm => ⟨hlit m hm, rfl⟩, hne⟩
  have hcompile : (∃ ci, compile iface none = .ok ci) ↔
      ∃ r, compileLoop none iface.name 0 iface.mappings EndpointTrie.new
        (if iface.aggregation = .object then some [] else none) = .ok r := by
    simp only [compile_eq_ok_iff]
    constructor
    · rintro ⟨-, -, -, trie, leaves, h, -⟩
      exact ⟨(trie, leaves), h⟩
    · rintro ⟨⟨trie, leaves⟩, h⟩
      exact ⟨_, 0, rfl, trie, leaves, h, rfl⟩
  rw [hcompile, compileLoop_ok_iff wf.levels (represents_new (α := MappingPtr))]
  constructor
  · rintro ⟨⟨-, hpair⟩, -⟩
    exact hpair.imp fun h hclash => h (Or.inr hclash)
  · intro hpair
    refine ⟨⟨by simp, ?_⟩, hleaves⟩
    exact (wf.disjoint.and hpair).imp fun h hconf =>
      hconf.elim (fun hshape => h.1 (overlapping_of_map_shape_eq hshape)) h.2

/-- The trie of a compiled definition holds its endpoints. -/
theorem compile_represents (wf : iface.WellFormed) (h : compile iface ids = .ok ci) :
    Represents ci.trie ((pointers ids 0 iface.mappings).map fun e => (e.1.levels, e.2)) := by
  obtain ⟨-, -, trie, leaves, hloop, rfl⟩ := compile_eq_ok_iff.1 h
  have := (compileLoop_ok wf.levels represents_new hloop).1
  rwa [List.nil_append] at this

/-- The table of last levels of a compiled object-aggregated definition. -/
theorem compile_objectLeaves (wf : iface.WellFormed) (h : compile iface ids = .ok ci)
    (hobj : iface.aggregation = .object) :
    ci.objectLeaves = some ((pointers ids 0 iface.mappings).map fun e => (e.1.leaf, e.2)) := by
  obtain ⟨-, -, trie, leaves, hloop, rfl⟩ := compile_eq_ok_iff.1 h
  have := (compileLoop_ok wf.levels represents_new hloop).2
  simpa [hobj] using this

end Interface.WellFormed

/-! ## The meaning of a match -/

/-- A concrete level is accepted by a declared level: it is not empty, and it is the literal, or at
most 256 octets free of the MQTT wildcards where the level is a placeholder. -/
def levelAccepts (level : EndpointSegment) (seg : Bytes) : Prop :=
  seg ≠ [] ∧
    if level.param then seg.length ≤ maxPlaceholderValueLen ∧ 43 ∉ seg ∧ 35 ∉ seg
    else seg = level.literal

/-- A path is accepted by a declared endpoint: it is `/`-rooted and its parts between separators are
accepted by the levels one by one. -/
def endpointAccepts (levels : List EndpointSegment) (path : Bytes) : Prop :=
  ∃ rest, path = slash :: rest ∧
    List.Forall₂ (fun seg level => levelAccepts level seg) (rest.splitOn slash) levels

theorem levelAccepts_iff {level : EndpointSegment} {seg : Bytes} :
    levelAccepts level seg ↔ seg ≠ [] ∧ levelMatches seg level.shape := by
  unfold levelAccepts EndpointSegment.shape
  cases level.param with
  | true => simp [levelMatches, placeholderValueOK, and_assoc]
  | false => simp [levelMatches]

variable {path : Bytes}

theorem endpointAccepts_iff {levels : List EndpointSegment} :
    endpointAccepts levels path ↔ pathMatches path (levels.map EndpointSegment.shape) := by
  simp only [endpointAccepts, pathMatches, List.forall₂_map_right_iff, levelAccepts_iff]

/-- Endpoints that accept a common path overlap. -/
theorem overlapping_of_endpointAccepts
    (ha : endpointAccepts a path) (hb : endpointAccepts b path) : Overlapping a b := by
  obtain ⟨rest, rfl, ha⟩ := ha
  obtain ⟨rest', heq, hb⟩ := hb
  simp only [List.cons.injEq, true_and] at heq
  subst heq
  generalize rest.splitOn slash = parts at ha hb
  induction ha generalizing b with
  | nil =>
    rw [List.forall₂_nil_left_iff] at hb
    subst hb
    exact .nil
  | @cons seg x segs xs hx _ ih =>
    obtain ⟨y, ys, hy, hys, rfl⟩ := List.forall₂_cons_left_iff.1 hb
    refine .cons ?_ (ih hys)
    obtain ⟨-, hx⟩ := hx
    obtain ⟨-, hy⟩ := hy
    cases hxp : x.param with
    | true => exact Or.inl hxp
    | false =>
      cases hyp : y.param with
      | true => exact Or.inr (Or.inl hyp)
      | false =>
        simp only [hxp, Bool.false_eq_true, if_false] at hx
        simp only [hyp, Bool.false_eq_true, if_false] at hy
        exact Or.inr (Or.inr (hx.symm.trans hy))

namespace Interface.WellFormed

variable {iface : Interface} {ids : Option EndpointIDResolver} {ci : CompiledInterface}

/-- At most one declared endpoint accepts a path. -/
theorem accepts_unique (wf : iface.WellFormed) {k k' : Nat} {m' : Mapping}
    (hk : iface.mappings[k]? = some m) (hk' : iface.mappings[k']? = some m')
    (h : endpointAccepts m.levels path) (h' : endpointAccepts m'.levels path) : k = k' := by
  have hpair := List.pairwise_iff_getElem.1 wf.disjoint
  obtain ⟨hlt, rfl⟩ := List.getElem?_eq_some_iff.1 hk
  obtain ⟨hlt', rfl⟩ := List.getElem?_eq_some_iff.1 hk'
  rcases Nat.lt_trichotomy k k' with hkk | rfl | hkk
  · exact absurd (overlapping_of_endpointAccepts h h') (hpair k k' hlt hlt' hkk)
  · rfl
  · exact absurd (overlapping_of_endpointAccepts h' h) (hpair k' k hlt' hlt hkk)

/-- Whatever child is preferred, the search finds the declared endpoint that accepts the path. -/
theorem matchLevels_eq_some_iff (wf : iface.WellFormed) (hc : compile iface ids = .ok ci)
    (literalFirst : Bool) (rest : Bytes) (p : MappingPtr) :
    matchLevels literalFirst (rest.splitOn slash) ci.trie.root = some p ↔
      ∃ k m, iface.mappings[k]? = some m ∧ p = ⟨k, compiledWith ids m⟩ ∧
        endpointAccepts m.levels (slash :: rest) := by
  have hrep := wf.compile_represents hc
  have hsound : ∀ p, matchLevels literalFirst (rest.splitOn slash) ci.trie.root = some p →
      ∃ k m, iface.mappings[k]? = some m ∧ p = ⟨k, compiledWith ids m⟩ ∧
        endpointAccepts m.levels (slash :: rest) := by
    intro p h
    obtain ⟨shs, hentry, hall⟩ := matchLevels_sound _ _ h
    obtain ⟨segs, hmem, rfl⟩ := (hrep.entry _ _).1 hentry
    obtain ⟨⟨m, q⟩, hptr, heq⟩ := List.mem_map.1 hmem
    obtain ⟨rfl, rfl⟩ := heq
    obtain ⟨k, hk, rfl⟩ := mem_pointers_iff.1 hptr
    exact ⟨k, m, hk, by simp, endpointAccepts_iff.2 ⟨rest, rfl, hall⟩⟩
  constructor
  · exact hsound p
  · rintro ⟨k, m, hk, rfl, hacc⟩
    have hptr : (m, (⟨k, compiledWith ids m⟩ : MappingPtr)) ∈ pointers ids 0 iface.mappings :=
      mem_pointers_iff.2 ⟨k, hk, by simp⟩
    have hentry := (hrep.entry (m.levels.map EndpointSegment.shape) ⟨k, compiledWith ids m⟩).2
      ⟨m.levels, List.mem_map.2 ⟨_, hptr, rfl⟩, rfl⟩
    obtain ⟨rest', heq, hall⟩ := endpointAccepts_iff.1 hacc
    simp only [List.cons.injEq, true_and] at heq
    subst heq
    obtain ⟨q, hq⟩ := Option.isSome_iff_exists.1
      (matchLevels_complete literalFirst _ _ _ hentry hall)
    obtain ⟨k', m', hk', rfl, hacc'⟩ := hsound q hq
    obtain rfl := wf.accepts_unique hk hk' hacc hacc'
    rw [hk] at hk'
    cases hk'
    exact hq

/-- A path resolves to the declared endpoint that accepts it. -/
theorem matchPath_eq_some_iff (wf : iface.WellFormed) (hc : compile iface ids = .ok ci)
    (path : Bytes) (p : MappingPtr) :
    ci.trie.matchPath path = some p ↔
      ∃ k m, iface.mappings[k]? = some m ∧ p = ⟨k, compiledWith ids m⟩ ∧ endpointAccepts m.levels path := by
  by_cases hhead : path.head? = some slash
  · obtain ⟨rest, rfl⟩ := List.head?_eq_some_iff.1 hhead
    rw [EndpointTrie.matchPath_cons]
    exact wf.matchLevels_eq_some_iff hc true rest p
  · rw [EndpointTrie.matchPath_eq_none_of_head _ hhead]
    constructor
    · intro h
      cases h
    · rintro ⟨k, m, -, -, rest, rfl, -⟩
      simp at hhead

/-- The mapping a path resolves to, whatever the order of the declarations. -/
theorem matchPath_mapping_eq_some_iff (wf : iface.WellFormed) (hc : compile iface ids = .ok ci)
    (path : Bytes) (cm : CompiledMapping) :
    (ci.trie.matchPath path).map MappingPtr.mapping = some cm ↔
      ∃ m ∈ iface.mappings, cm = compiledWith ids m ∧ endpointAccepts m.levels path := by
  rw [Option.map_eq_some_iff]
  constructor
  · rintro ⟨p, hp, rfl⟩
    obtain ⟨k, m, hk, rfl, hacc⟩ := (wf.matchPath_eq_some_iff hc path p).1 hp
    exact ⟨m, List.mem_of_getElem? hk, rfl, hacc⟩
  · rintro ⟨m, hm, rfl, hacc⟩
    obtain ⟨k, hk⟩ := List.getElem?_of_mem hm
    exact ⟨_, (wf.matchPath_eq_some_iff hc path _).2 ⟨k, m, hk, rfl, hacc⟩, rfl⟩

end Interface.WellFormed

/-- Resolution of a path against a compiled definition. A declared endpoint is the answer exactly
when it accepts the path; no path is accepted by two; there is no other answer; and the answer is the
same with the placeholder child preferred, and with the mappings declared in any other order. -/
theorem matchPath_compiled {data : Bytes} {iface : Interface} {ci : CompiledInterface}
    (hparse : parseInterface data = .ok iface) (hcompile : compile iface none = .ok ci)
    (path : Bytes) :
    (∀ k m, iface.mappings[k]? = some m →
      (ci.trie.matchPath path = some ⟨k, compileMapping m⟩ ↔ endpointAccepts m.levels path)) ∧
    (∀ (k k' : Nat) (m m' : Mapping), iface.mappings[k]? = some m → iface.mappings[k']? = some m' →
      endpointAccepts m.levels path → endpointAccepts m'.levels path → k = k') ∧
    (∀ p, ci.trie.matchPath path = some p →
      ∃ k m, iface.mappings[k]? = some m ∧ p = ⟨k, compileMapping m⟩) ∧
    (∀ rest, path = slash :: rest →
      matchLevels false (rest.splitOn slash) ci.trie.root = ci.trie.matchPath path) ∧
    (∀ data' iface' ci', parseInterface data' = .ok iface' → compile iface' none = .ok ci' →
      iface'.mappings.Perm iface.mappings →
        (ci'.trie.matchPath path).map MappingPtr.mapping =
          (ci.trie.matchPath path).map MappingPtr.mapping) := by
  have wf := parseInterface_wellFormed hparse
  refine ⟨?_, ?_, ?_, ?_, ?_⟩
  · intro k m hk
    rw [wf.matchPath_eq_some_iff hcompile]
    constructor
    · rintro ⟨k', m', hk', heq, hacc⟩
      simp only [MappingPtr.mk.injEq] at heq
      obtain ⟨rfl, -⟩ := heq
      rw [hk] at hk'
      cases hk'
      exact hacc
    · intro hacc
      exact ⟨k, m, hk, rfl, hacc⟩
  · intro k k' m m' hk hk' h h'
    exact wf.accepts_unique hk hk' h h'
  · intro p hp
    obtain ⟨k, m, hk, rfl, -⟩ := (wf.matchPath_eq_some_iff hcompile path p).1 hp
    exact ⟨k, m, hk, rfl⟩
  · rintro rest rfl
    refine Option.ext fun p => ?_
    rw [wf.matchLevels_eq_some_iff hcompile false rest p, EndpointTrie.matchPath_cons,
      wf.matchLevels_eq_some_iff hcompile true rest p]
  · intro data' iface' ci' hparse' hcompile' hperm
    have wf' := parseInterface_wellFormed hparse'
    refine Option.ext fun cm => ?_
    rw [wf'.matchPath_mapping_eq_some_iff hcompile' path cm, wf.matchPath_mapping_eq_some_iff hcompile path cm]
    simp only [hperm.mem_iff]

/-- A device-owned datastream with two endpoints below one placeholder. -/
def sensorDocument : Bytes :=
  Json.marshal true <| InterfaceJSON.toAny
    { interfaceName := some (utf8 "org.example.Sensors"), versionMajor := some 1,
      versionMinor := some 2, type := some .datastream, ownership := some .device,
      mappings := .ofList
        [{ endpoint := some (utf8 "/%\x7bid\x7d/value"), type := some .double },
          { endpoint := some (utf8 "/%\x7bid\x7d/unit"), type := some .string }] }

def sensorMappings : List Mapping :=
  [{ endpoint := utf8 "/%\x7bid\x7d/value", type := .double },
    { endpoint := utf8 "/%\x7bid\x7d/unit", type := .string }]

def sensorInterface : Interface :=
  { name := utf8 "org.example.Sensors", major := 1, minor := 2, type := .datastream,
    ownership := .device, aggregation := .individual, mappings := sensorMappings }

theorem parseInterface_sensor : parseInterface sensorDocument = .ok sensorInterface := by decide +kernel

theorem matchPath_compiled_sensor :
    parseInterface sensorDocument = .ok sensorInterface ∧
      ∃ ci, compile sensorInterface none = .ok ci ∧
        ci.trie.matchPath (utf8 "/4/value") =
          some ⟨0, compileMapping { endpoint := utf8 "/%\x7bid\x7d/value", type := .double }⟩ := by
  obtain ⟨ci, hci⟩ : ∃ ci, compile sensorInterface none = .ok ci := ⟨_, rfl⟩
  refine ⟨parseInterface_sensor, ci, hci, ?_⟩
  refine ((matchPath_compiled parseInterface_sensor hci (utf8 "/4/value")).1 0 _ rfl).2 ?_
  refine ⟨utf8 "4/value", by decide, ?_⟩
  rw [splitOn_of_cutByte_some (a := utf8 "4") (b := utf8 "value") (by decide),
    splitOn_of_cutByte_none (by decide)]
  have hlevels : Mapping.levels { endpoint := utf8 "/%\x7bid\x7d/value", type := .double } =
      [⟨utf8 "id", true⟩, ⟨utf8 "value", false⟩] := by decide
  exact .cons ⟨by decide, by decide⟩ (.cons ⟨by decide, rfl⟩ .nil)

/-- An accepted definition compiles exactly when no two of its endpoints agree up to a level at which
both declare a placeholder, under different names. `ParseInterface` does not look at the names;
`EndpointTrie.Add` does. -/
theorem compile_accepted_iff {data : Bytes} {iface : Interface} (hparse : parseInterface data = .ok iface) :
    (∃ ci, compile iface none = .ok ci) ↔
      iface.mappings.Pairwise fun a b => ¬ PlaceholderClash a.levels b.levels :=
  (parseInterface_wellFormed hparse).compile_ok_iff

theorem compile_accepted_sensor :
    parseInterface sensorDocument = .ok sensorInterface ∧
      sensorInterface.mappings.Pairwise fun a b => ¬ PlaceholderClash a.levels b.levels :=
  ⟨parseInterface_sensor, (compile_accepted_iff parseInterface_sensor).1 ⟨_, rfl⟩⟩

/-- Two endpoints below one placeholder that is named twice. -/
def clashDocument : Bytes :=
  Json.marshal true <| InterfaceJSON.toAny
    { interfaceName := some (utf8 "org.example.Clash"), versionMajor := some 1,
      versionMinor := some 0, type := some .datastream, ownership := some .device,
      mappings := .ofList
        [{ endpoint := some (utf8 "/%\x7ba\x7d/x"), type := some .double },
          { endpoint := some (utf8 "/%\x7bb\x7d/y"), type := some .double }] }

def clashInterface : Interface :=
  { name := utf8 "org.example.Clash", major := 1, minor := 0, type := .datastream,
    ownership := .device, aggregation := .individual,
    mappings :=
      [{ endpoint := utf8 "/%\x7ba\x7d/x", type := .double },
        { endpoint := utf8 "/%\x7bb\x7d/y", type := .double }] }

/-- The definition is accepted and does not compile. -/
theorem compile_clash :
    parseInterface clashDocument = .ok clashInterface ∧
      compile clashInterface none =
        errorf "interfaceschema: Add(%q): conflicting placeholder %%\x7b%s\x7d already declared as %%\x7b%s\x7d"
          [.str (utf8 "/%\x7bb\x7d/y"), .str (utf8 "b"), .str (utf8 "a")] :=
  ⟨by decide +kernel, rfl⟩

end Astrate.InterfaceSchema
