import Astrate.GoLib.Bytes
import Astrate.GoLib.Map

/-!
# Maps read in key order

A Go map whose program only looks keys up, or iterates over the sorted keys: the list of its entries
in ascending order of the keys, so that equal maps are equal values. `lookup_insert` is the law of
assignment, `ofList_sorted` says that a list already in order is its own map, and `traverse` converts
every value, stopping at the first one that fails.
-/

set_option autoImplicit false

namespace Astrate.GoLib

/-- A map as its entries in ascending order of the keys. -/
@[ext] structure SortedMap (κ ν : Type) [LT κ] where
  entries : List (κ × ν)
  sorted : entries.Pairwise fun a b => a.1 < b.1
  deriving DecidableEq

/-! Strings as keys are compared octet by octet. -/

instance Bytes.lawfulBEq : LawfulBEq Bytes := inferInstance

instance Bytes.lawfulOrderLT : Std.LawfulOrderLT Bytes := inferInstance

instance Bytes.isLinearOrder : Std.IsLinearOrder Bytes := inferInstance

namespace SortedMap

section Insert

variable {κ ν : Type} [LE κ] [LT κ] [DecidableLT κ] [BEq κ] [LawfulBEq κ] [Std.LawfulOrderLT κ]
  [Std.IsLinearOrder κ]

/-- An entry put in its place. -/
def insertEntry (k : κ) (v : ν) : List (κ × ν) → List (κ × ν)
  | [] => [(k, v)]
  | e :: es =>
    if k < e.1 then (k, v) :: e :: es
    else if k == e.1 then (k, v) :: es
    else e :: insertEntry k v es

variable {es : List (κ × ν)}

omit [LE κ] [LawfulBEq κ] [Std.LawfulOrderLT κ] [Std.IsLinearOrder κ] in
theorem mem_insertEntry {k : κ} {v : ν} {e : κ × ν} (h : e ∈ insertEntry k v es) : e = (k, v) ∨ e ∈ es := by
  induction es with
  | nil => exact Or.inl (List.mem_singleton.1 h)
  | cons e' es ih =>
    rw [insertEntry] at h
    split_ifs at h with hlt heq
    · exact List.mem_cons.1 h
    · rcases List.mem_cons.1 h with h | h
      · exact Or.inl h
      · exact Or.inr (List.mem_cons_of_mem _ h)
    · rcases List.mem_cons.1 h with rfl | h
      · exact Or.inr List.mem_cons_self
      · exact (ih h).imp id (List.mem_cons_of_mem _)

omit [LE κ] [LawfulBEq κ] [Std.LawfulOrderLT κ] [Std.IsLinearOrder κ] in
theorem insertEntry_ne_nil (k : κ) (v : ν) (es : List (κ × ν)) : insertEntry k v es ≠ [] := by
  cases es with
  | nil => exact List.cons_ne_nil _ _
  | cons e es =>
    rw [insertEntry]
    split_ifs <;> exact List.cons_ne_nil _ _

theorem sorted_insertEntry (k : κ) (v : ν) (h : es.Pairwise fun a b => a.1 < b.1) :
    (insertEntry k v es).Pairwise fun a b => a.1 < b.1 := by
  induction es with
  | nil => exact List.pairwise_singleton _ _
  | cons e es ih =>
    rw [List.pairwise_cons] at h
    rw [insertEntry]
    split_ifs with hlt heq
    · refine List.pairwise_cons.2 ⟨fun a ha => ?_, List.pairwise_cons.2 h⟩
      rcases List.mem_cons.1 ha with rfl | ha
      · exact hlt
      · exact Std.lt_trans hlt (h.1 a ha)
    · have hk : k = e.1 := eq_of_beq heq
      exact List.pairwise_cons.2 ⟨fun a ha => hk ▸ h.1 a ha, h.2⟩
    · have hne : e.1 ≠ k := fun hk => heq (beq_iff_eq.2 hk.symm)
      have hgt : e.1 < k := Std.lt_of_le_of_ne (Std.not_lt.1 hlt) hne
      refine List.pairwise_cons.2 ⟨fun a ha => ?_, ih h.2⟩
      rcases mem_insertEntry ha with rfl | ha
      · exact hgt
      · exact h.1 a ha

/-- The empty map. -/
def empty : SortedMap κ ν := ⟨[], List.Pairwise.nil⟩

/-- The assignment `m[k] = v`. -/
def insert (m : SortedMap κ ν) (k : κ) (v : ν) : SortedMap κ ν :=
  ⟨insertEntry k v m.entries, sorted_insertEntry k v m.sorted⟩

theorem insert_entries_ne_nil (m : SortedMap κ ν) (k : κ) (v : ν) : (m.insert k v).entries ≠ [] :=
  insertEntry_ne_nil k v m.entries

/-- The read `m[k]`. -/
def lookup (m : SortedMap κ ν) (k : κ) : Option ν := m.entries.lookup k

omit [LE κ] [Std.LawfulOrderLT κ] [Std.IsLinearOrder κ] in
theorem lookup_insertEntry (k k' : κ) (v : ν) (es : List (κ × ν)) :
    (insertEntry k v es).lookup k' = if k' == k then some v else es.lookup k' := by
  induction es with
  | nil => rw [insertEntry, lookup_cons_ite]
  | cons e es ih =>
    rw [insertEntry]
    by_cases hlt : k < e.1
    · rw [if_pos hlt, lookup_cons_ite]
    · rw [if_neg hlt]
      by_cases heq : (k == e.1) = true
      · rw [if_pos heq, lookup_cons_ite, lookup_cons_ite, ← eq_of_beq heq]
        split_ifs <;> rfl
      · rw [if_neg heq, lookup_cons_ite, ih, lookup_cons_ite]
        by_cases hk : (k' == k) = true
        · rw [if_pos hk, if_neg (by rw [eq_of_beq hk]; exact heq), if_pos hk]
        · rw [if_neg hk, if_neg hk]

theorem lookup_insert (m : SortedMap κ ν) (k k' : κ) (v : ν) :
    (m.insert k v).lookup k' = if k' == k then some v else m.lookup k' :=
  lookup_insertEntry k k' v m.entries

/-- The map of a sequence of assignments. -/
def ofList (es : List (κ × ν)) : SortedMap κ ν := es.foldl (fun m e => m.insert e.1 e.2) empty

/-- The entries come from the assignments. -/
theorem mem_ofList {e : κ × ν} (h : e ∈ (ofList es).entries) : e ∈ es := by
  have hfold : ∀ (es : List (κ × ν)) (m : SortedMap κ ν),
      e ∈ (es.foldl (fun m e => m.insert e.1 e.2) m).entries → e ∈ m.entries ∨ e ∈ es := by
    intro es
    induction es with
    | nil => exact fun m hm => .inl hm
    | cons e' es ih =>
      intro m hm
      rcases ih _ hm with hm | hm
      · rcases mem_insertEntry hm with rfl | hm
        · exact .inr List.mem_cons_self
        · exact .inl hm
      · exact .inr (List.mem_cons_of_mem _ hm)
  rcases hfold es empty h with h | h
  · cases h
  · exact h

/-- Every assigned key has a value. -/
theorem isSome_lookup_ofList {e : κ × ν} (h : e ∈ es) : ((ofList es).lookup e.1).isSome = true := by
  have hfold : ∀ (es : List (κ × ν)) (m : SortedMap κ ν), (m.lookup e.1).isSome = true ∨ e ∈ es →
      ((es.foldl (fun m e => m.insert e.1 e.2) m).lookup e.1).isSome = true := by
    intro es
    induction es with
    | nil => exact fun m hm => hm.elim id nofun
    | cons e' es ih =>
      intro m hm
      refine ih _ ?_
      rw [lookup_insert]
      split_ifs with hk
      · exact .inl rfl
      · rcases hm with hm | hm
        · exact .inl hm
        · rcases List.mem_cons.1 hm with rfl | hm
          · exact absurd (beq_self_eq_true _) hk
          · exact .inr hm
  exact hfold es empty (.inr h)

/-- A key above all others is added at the end. -/
theorem insertEntry_of_lt {k : κ} {v : ν} (h : ∀ e ∈ es, e.1 < k) : insertEntry k v es = es ++ [(k, v)] := by
  induction es with
  | nil => rfl
  | cons e es ih =>
    rw [List.forall_mem_cons] at h
    have hlt : ¬ k < e.1 := fun hk => Std.lt_irrefl (Std.lt_trans hk h.1)
    have hne : (k == e.1) = false := by
      rw [beq_eq_false_iff_ne]
      rintro rfl
      exact Std.lt_irrefl h.1
    rw [insertEntry, if_neg hlt, hne, ih h.2]
    rfl

/-- Assigning entries that are in order, and above those present, adds them at the end. -/
theorem foldl_insert_entries (es : List (κ × ν)) (m : SortedMap κ ν)
    (h : (m.entries ++ es).Pairwise fun a b => a.1 < b.1) :
    (es.foldl (fun m e => m.insert e.1 e.2) m).entries = m.entries ++ es := by
  induction es generalizing m with
  | nil => simp
  | cons e es ih =>
    have hlast : (m.insert e.1 e.2).entries = m.entries ++ [e] :=
      insertEntry_of_lt fun a ha => (List.pairwise_append.1 h).2.2 a ha e List.mem_cons_self
    rw [List.foldl_cons, ih, hlast]
    · simp
    · rw [hlast]
      simpa using h

/-- A list in order is its own map. -/
theorem ofList_sorted (m : SortedMap κ ν) : ofList m.entries = m := by
  apply SortedMap.ext
  have h := foldl_insert_entries m.entries (empty : SortedMap κ ν) (by simpa [empty] using m.sorted)
  simpa [ofList, empty] using h

end Insert

section Traverse

variable {κ ν μ ε : Type} [LT κ]

/-- Every value converted in order. -/
def traverseEntries (f : κ → ν → Except ε μ) : List (κ × ν) → Except ε (List (κ × μ))
  | [] => .ok []
  | e :: es => do
      let v ← f e.1 e.2
      let vs ← traverseEntries f es
      .ok ((e.1, v) :: vs)

variable {f : κ → ν → Except ε μ}

variable {es : List (κ × ν)} {vs : List (κ × μ)}

omit [LT κ] in
theorem traverseEntries_ok :
    traverseEntries f es = .ok vs ↔ List.Forall₂ (fun e v => v.1 = e.1 ∧ f e.1 e.2 = .ok v.2) es vs := by
  induction es generalizing vs with
  | nil =>
    rw [List.forall₂_nil_left_iff, traverseEntries, Except.ok.injEq]
    exact eq_comm
  | cons e es ih =>
    simp only [traverseEntries, bind_eq_ok_iff, Except.ok.injEq, List.forall₂_cons_left_iff]
    constructor
    · rintro ⟨v, hv, vs', hvs, rfl⟩
      exact ⟨(e.1, v), vs', ⟨rfl, hv⟩, ih.1 hvs, rfl⟩
    · rintro ⟨⟨k, v⟩, vs', ⟨hk, hv⟩, hvs, rfl⟩
      exact ⟨v, hv, vs', ih.2 hvs, by rw [← hk]⟩

omit [LT κ] in
theorem keys_traverseEntries (h : traverseEntries f es = .ok vs) : vs.map Prod.fst = es.map Prod.fst := by
  have h' := traverseEntries_ok.1 h
  clear h
  induction h' with
  | nil => rfl
  | cons hv _ ih => simp [hv.1, ih]

theorem sorted_of_keys (h : es.Pairwise fun a b => a.1 < b.1) (hkeys : vs.map Prod.fst = es.map Prod.fst) :
    vs.Pairwise fun a b => a.1 < b.1 := by
  have hmap : (es.map Prod.fst).Pairwise (· < ·) := List.pairwise_map.2 h
  rw [← hkeys] at hmap
  exact List.pairwise_map.1 hmap

/-- Every value of a map converted, in the order of the keys. -/
def traverse (f : κ → ν → Except ε μ) (m : SortedMap κ ν) : Except ε (SortedMap κ μ) :=
  match h : traverseEntries f m.entries with
  | .error e => .error e
  | .ok vs => .ok ⟨vs, sorted_of_keys m.sorted (keys_traverseEntries h)⟩

theorem traverse_ok {m : SortedMap κ ν} {m' : SortedMap κ μ} :
    m.traverse f = .ok m' ↔ traverseEntries f m.entries = .ok m'.entries := by
  unfold traverse
  split
  · rename_i e he
    simp [he]
  · rename_i vs hvs
    constructor
    · intro h
      rw [Except.ok.injEq] at h
      subst h
      exact hvs
    · intro h
      have hentries := Except.ok.inj (hvs.symm.trans h)
      subst hentries
      rfl

theorem exists_traverse {m : SortedMap κ ν}
    (h : ∀ e ∈ m.entries, ∃ v, f e.1 e.2 = .ok v) : ∃ m', m.traverse f = .ok m' := by
  have hentries : ∀ es : List (κ × ν), (∀ e ∈ es, ∃ v, f e.1 e.2 = .ok v) →
      ∃ vs, traverseEntries f es = .ok vs := by
    intro es hes
    induction es with
    | nil => exact ⟨[], rfl⟩
    | cons e es ih =>
      obtain ⟨v, hv⟩ := hes e List.mem_cons_self
      obtain ⟨vs, hvs⟩ := ih fun e he => hes e (List.mem_cons_of_mem _ he)
      exact ⟨_, bind_eq_ok_iff.2 ⟨v, hv, bind_eq_ok_iff.2 ⟨vs, hvs, rfl⟩⟩⟩
  obtain ⟨vs, hvs⟩ := hentries m.entries h
  exact ⟨⟨vs, sorted_of_keys m.sorted (keys_traverseEntries hvs)⟩, traverse_ok.2 hvs⟩

/-- Every value of a map converted by a function. -/
def map (f : ν → μ) (m : SortedMap κ ν) : SortedMap κ μ :=
  ⟨m.entries.map fun e => (e.1, f e.2), List.pairwise_map.2 m.sorted⟩

theorem lookup_map [BEq κ] (f : ν → μ) (m : SortedMap κ ν) (k : κ) :
    (m.map f).lookup k = (m.lookup k).map f := by
  have hentries : ∀ es : List (κ × ν),
      (es.map fun e => (e.1, f e.2)).lookup k = (es.lookup k).map f := by
    intro es
    induction es with
    | nil => rfl
    | cons e es ih =>
      rw [List.map_cons, lookup_cons_ite, lookup_cons_ite, ih]
      split_ifs <;> rfl
  exact hentries m.entries

end Traverse

end SortedMap

end Astrate.GoLib
