import Astrate.Engine.ServerData
import Astrate.Engine.Upgrade

/-!
# Paths of object-aggregated interfaces

The endpoints of an object-aggregated definition differ in their last level only, which is a literal. So a
path that is followed by one of the leaves is matched or not whichever leaf it is (`matchPath_leaf_iff`).
-/

set_option autoImplicit false

namespace Astrate.InterfaceSchema

open Astrate.GoLib

/-- What stands before the last level of a path is accepted by these levels; there may be none. -/
def prefixAccepts (levels : List EndpointSegment) (path : Bytes) : Prop :=
  levels = [] ∧ path = [] ∨ endpointAccepts levels path

/-- The last level of a path is for the last level of the endpoint. -/
theorem endpointAccepts_concat_iff {levels : List EndpointSegment} {last : EndpointSegment}
    {path leaf : Bytes} (hleaf : slash ∉ leaf) :
    endpointAccepts (levels ++ [last]) (path ++ slash :: leaf) ↔
      prefixAccepts levels path ∧ levelAccepts last leaf := by
  have hsingle : leaf.splitOn slash = [leaf] := List.splitOn_eq_singleton hleaf
  unfold prefixAccepts endpointAccepts
  cases path with
  | nil =>
    simp only [List.nil_append, List.cons.injEq, true_and, exists_eq_left', hsingle, reduceCtorEq, false_and,
      exists_false, or_false, and_true]
    rw [← List.forall₂_reverse_iff, List.reverse_append]
    simp [List.forall₂_cons_right_iff, and_comm]
  | cons c path =>
    simp only [List.cons_append, List.cons.injEq, and_assoc, exists_and_left, exists_eq_left',
      splitOn_append_cons, hsingle, reduceCtorEq, and_false, false_or]
    rw [← List.forall₂_reverse_iff, List.reverse_append, List.reverse_append]
    simp [List.forall₂_reverse_iff, and_comm]

/-- The levels before the last one of the endpoints of an object-aggregated definition. -/
def Interface.objectPrefix (iface : Interface) : List EndpointSegment :=
  (iface.mappings.head?.map fun m => m.levels.dropLast).getD []

namespace Interface.WellFormed

variable {iface : Interface} {ids : Option EndpointIDResolver} {ci : CompiledInterface} {m : Mapping}
  (wf : iface.WellFormed) (hobj : iface.aggregation = .object)

include wf hobj

theorem levels_concat (hm : m ∈ iface.mappings) : m.levels = iface.objectPrefix ++ [⟨m.leaf, false⟩] := by
  obtain ⟨first, hfirst⟩ : ∃ first, iface.mappings.head? = some first :=
    Option.isSome_iff_exists.1 (by simpa using wf.mappings_ne_nil)
  have hshape := wf.object_shape hobj first hfirst m hm
  have hne := wf.levels_ne_nil hm
  have hlast := List.getLast?_eq_some_getLast hne
  have hparam := hshape.last_literal
  simp only [hlast, Option.map_some, Option.getD_some] at hparam
  have hleaf : m.levels.getLast hne = ⟨m.leaf, false⟩ :=
    EndpointSegment.ext (by simp [Mapping.leaf, hlast]) hparam
  rw [Interface.objectPrefix, hfirst, Option.map_some, Option.getD_some, ← hshape.dropLast_eq, ← hleaf,
    List.dropLast_append_getLast]

/-- A path followed by a leaf is matched by the endpoint of the leaf, or not at all. -/
theorem matchPath_leaf_iff (hcompile : compile iface ids = .ok ci) {k : Nat}
    (hk : iface.mappings[k]? = some m) (path : Bytes) (p : MappingPtr) :
    ci.trie.matchPath (path ++ slash :: m.leaf) = some p ↔
      prefixAccepts iface.objectPrefix path ∧ p = ⟨k, compiledWith ids m⟩ := by
  have hm := List.mem_of_getElem? hk
  have hvalid := Engine.validIdentifier_leaf wf hm
  have hfree : slash ∉ m.leaf := not_mem_of_validIdentifier hvalid (by decide) (by decide)
  have haccepts : endpointAccepts m.levels (path ++ slash :: m.leaf) ↔
      prefixAccepts iface.objectPrefix path := by
    rw [wf.levels_concat hobj hm, endpointAccepts_concat_iff hfree]
    exact and_iff_left ⟨ne_nil_of_validIdentifier hvalid, rfl⟩
  rw [wf.matchPath_eq_some_iff hcompile]
  constructor
  · rintro ⟨k', m', hk', rfl, haccepts'⟩
    have hpath := haccepts'
    rw [wf.levels_concat hobj (List.mem_of_getElem? hk'), endpointAccepts_concat_iff hfree] at hpath
    obtain rfl := wf.accepts_unique hk hk' (haccepts.2 hpath.1) haccepts'
    obtain rfl := Option.some.inj (hk.symm.trans hk')
    exact ⟨hpath.1, rfl⟩
  · rintro ⟨hpath, rfl⟩
    exact ⟨k, m, hk, rfl, haccepts.2 hpath⟩

end Interface.WellFormed

end Astrate.InterfaceSchema

namespace Astrate.Engine

open Astrate.GoLib
open Astrate.InterfaceSchema (Interface Mapping MappingPtr CompiledInterface EndpointIDResolver compile
  compileMapping compiledWith parseInterface parseInterface_wellFormed pointers prefixAccepts)
open Astrate.Payload (objectExplicitTimestamp)

variable {data : Bytes} {iface : Interface} {ids : Option EndpointIDResolver} {ci : CompiledInterface}
  (hparse : parseInterface data = .ok iface) (hcompile : compile iface ids = .ok ci)
  (hobj : iface.aggregation = .object)

include hparse hcompile hobj

/-- A path followed by a leaf is matched if it is accepted before it. -/
theorem isSome_matchPath_leaf {k : Nat} {m : Mapping}
    (hk : iface.mappings[k]? = some m) (path : Bytes) :
    (ci.trie.matchPath (path ++ 47 :: m.leaf)).isSome = true ↔ prefixAccepts iface.objectPrefix path := by
  have hmatch := (parseInterface_wellFormed hparse).matchPath_leaf_iff hobj hcompile hk path
  rw [Option.isSome_iff_exists]
  exact ⟨fun ⟨p, hp⟩ => ((hmatch p).1 hp).1, fun hpath => ⟨_, (hmatch _).2 ⟨hpath, rfl⟩⟩⟩

/-- The leaf that is asked for does not matter. -/
theorem objectPathOK_iff (path : Bytes) :
    objectPathOK ci path = true ↔ prefixAccepts iface.objectPrefix path := by
  have wf := parseInterface_wellFormed hparse
  obtain ⟨m, ms, hms⟩ := List.exists_cons_of_ne_nil wf.mappings_ne_nil
  have hk : iface.mappings[0]? = some m := by rw [hms]; rfl
  rw [← isSome_matchPath_leaf hparse hcompile hobj hk, objectPathOK, wf.compile_objectLeaves hcompile hobj,
    Option.getD_some, hms, InterfaceSchema.pointers_cons, List.map_cons]

/-- An aggregation path is empty or a path of its own. -/
theorem objectPath_cases {path : Bytes} (h : objectPathOK ci path = true) :
    iface.objectPrefix = [] ∧ path = [] ∨ iface.objectPrefix ≠ [] ∧ InterfaceSchema.PathText path := by
  have wf := parseInterface_wellFormed hparse
  obtain ⟨m, hm⟩ := List.exists_mem_of_ne_nil _ wf.mappings_ne_nil
  have hwf := InterfaceSchema.splitEndpoint_wellFormed (wf.levels m hm)
  rw [wf.levels_concat hobj hm] at hwf
  refine ((objectPathOK_iff hparse hcompile hobj path).1 h).imp_right fun haccepts => ⟨fun hnil => ?_,
    InterfaceSchema.pathText_of_endpointAccepts (fun level hl => hwf level (List.mem_append_left _ hl)) haccepts⟩
  obtain ⟨rest, -, hparts⟩ := haccepts
  rw [hnil] at hparts
  exact List.splitOn_ne_nil _ _ (List.forall₂_nil_right_iff.1 hparts)

/-- The table of leaves has one entry for each mapping. A path followed by a leaf is matched or not
whichever leaf it is, and by the mapping of the leaf; and what is read off one leaf is the same for all. -/
theorem object_leaves_uniform :
    ∃ leaves : List (Bytes × MappingPtr), ci.objectLeaves = some leaves ∧
      leaves.length = iface.mappings.length ∧ (leaves.map Prod.fst).Nodup ∧
      (∀ (k : Nat) m, iface.mappings[k]? = some m → leaves[k]? = some (m.leaf, ⟨k, compiledWith ids m⟩)) ∧
      ∀ leaf ∈ leaves,
        (∀ leaf' ∈ leaves, ∀ path, (ci.trie.matchPath (path ++ 47 :: leaf.1)).isSome =
          (ci.trie.matchPath (path ++ 47 :: leaf'.1)).isSome) ∧
        (∀ path p, ci.trie.matchPath (path ++ 47 :: leaf.1) = some p → p = leaf.2) ∧
        (∀ path, objectPathOK ci path = (ci.trie.matchPath (path ++ 47 :: leaf.1)).isSome) ∧
        objectExplicitTimestamp (objectLeavesOf ci) = leaf.2.mapping.explicitTimestamp ∧
        ∃ any, anyObjectLeaf ci = some any ∧ any.reliability = leaf.2.mapping.reliability ∧
          any.expiry = leaf.2.mapping.expiry := by
  have wf := parseInterface_wellFormed hparse
  have hleaves := wf.compile_objectLeaves hcompile hobj
  have hentry : ∀ leaf ∈ (pointers ids 0 iface.mappings).map (fun e => (e.1.leaf, e.2)),
      ∃ (k : Nat) (m : Mapping), iface.mappings[k]? = some m ∧ leaf = (m.leaf, ⟨k, compiledWith ids m⟩) := by
    intro leaf hleaf
    obtain ⟨⟨m, q⟩, hq, rfl⟩ := List.mem_map.1 hleaf
    obtain ⟨k, hk, rfl⟩ := InterfaceSchema.mem_pointers_iff.1 hq
    exact ⟨k, m, hk, by rw [Nat.zero_add]⟩
  refine ⟨_, hleaves, by simp [pointers], ?_, fun k m hk => by simp [pointers, hk], fun leaf hleaf => ?_⟩
  · have hnames : ((pointers ids 0 iface.mappings).map (fun e => (e.1.leaf, e.2))).map Prod.fst =
        iface.mappings.map Mapping.leaf := by
      conv_rhs => rw [← List.zipIdx_map_fst 0 iface.mappings]
      simp only [pointers, List.map_map, Function.comp_def]
    rw [hnames]
    exact List.pairwise_map.2 (wf.distinct_leaves hobj).2
  · obtain ⟨k, m, hk, rfl⟩ := hentry leaf hleaf
    refine ⟨fun leaf' hleaf' path => ?_, fun path p hp => ?_, fun path => ?_, ?_⟩
    · obtain ⟨k', m', hk', rfl⟩ := hentry leaf' hleaf'
      rw [Bool.eq_iff_iff, isSome_matchPath_leaf hparse hcompile hobj hk,
        isSome_matchPath_leaf hparse hcompile hobj hk']
    · exact ((wf.matchPath_leaf_iff hobj hcompile hk path p).1 hp).2
    · rw [Bool.eq_iff_iff, isSome_matchPath_leaf hparse hcompile hobj hk, objectPathOK_iff hparse hcompile hobj]
    · obtain ⟨first, ms, hms⟩ := List.exists_cons_of_ne_nil wf.mappings_ne_nil
      have hm := List.mem_of_getElem? hk
      have hsame := (wf.object_shape hobj first (by rw [hms]; rfl) m hm).attributes
      refine ⟨(explicitTimestamp_of_mem wf hcompile hobj hm).symm, compiledWith ids first, ?_, ?_, ?_⟩
      · rw [anyObjectLeaf, hleaves, hms]
        rfl
      · exact congrArg InterfaceSchema.Reliability.qos hsame.1.symm
      · exact congrArg (fun e => InterfaceSchema.wrapInt64 (e * InterfaceSchema.second)) hsame.2.2.1.symm

omit hparse hcompile hobj in
theorem object_leaves_uniform_lamp :
    ∃ ci leaves, compile (lampInterface 1 [levelMapping false]) none = .ok ci ∧
      ci.objectLeaves = some leaves ∧ leaves.length = 2 ∧
      ∀ leaf ∈ leaves, ∀ path, objectPathOK ci path = (ci.trie.matchPath (path ++ 47 :: leaf.1)).isSome := by
  have hparse : parseInterface (lampDocument 1 [levelJSON false]) =
      .ok (lampInterface 1 [levelMapping false]) := by decide +kernel
  obtain ⟨ci, hcompile⟩ : ∃ ci, compile (lampInterface 1 [levelMapping false]) none = .ok ci := ⟨_, rfl⟩
  obtain ⟨leaves, hleaves, hlength, -, -, huniform⟩ := object_leaves_uniform hparse hcompile rfl
  exact ⟨ci, leaves, hcompile, hleaves, hlength, fun leaf hleaf => (huniform leaf hleaf).2.2.1⟩

end Astrate.Engine
