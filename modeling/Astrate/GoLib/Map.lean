import Mathlib.Data.List.Nodup
import Mathlib.Logic.Function.Basic
import Mathlib.Tactic.Common

/-!
# Maps as association lists

A Go map is modelled by the list of its entries. `mapSet` is the assignment `m[k] = v`, `mapDelete` the
removal of a key and `List.lookup` the read `m[k]`; `lookup_mapSet` and `lookup_mapDelete` relate them.

A table with a primary key is a function of the key. `applyWrites` performs writes in order, the last
one to a key wins; repeating some of them beforehand changes nothing (`applyWrites_absorb`).
-/

set_option autoImplicit false

namespace Astrate.GoLib

section Entries

variable {κ ν : Type} [BEq κ] [LawfulBEq κ]

/-- The assignment `m[k] = v`: the entry of `k` is replaced, or added at the end. -/
def mapSet {κ ν : Type} [BEq κ] (m : List (κ × ν)) (k : κ) (v : ν) : List (κ × ν) :=
  match m with
  | [] => [(k, v)]
  | e :: es => if k == e.1 then (k, v) :: es else e :: mapSet es k v

omit [LawfulBEq κ] in
theorem lookup_cons_ite (e : κ × ν) (es : List (κ × ν)) (k : κ) :
    (e :: es).lookup k = if k == e.1 then some e.2 else es.lookup k := by
  obtain ⟨k', v⟩ := e
  cases h : k == k' <;> simp [List.lookup_cons, h]

theorem lookup_mapSet (m : List (κ × ν)) (k k' : κ) (v : ν) :
    (mapSet m k v).lookup k' = if k' == k then some v else m.lookup k' := by
  induction m with
  | nil => simp [mapSet, lookup_cons_ite]
  | cons e es ih =>
    by_cases he : k = e.1
    · subst he
      cases h : k' == e.1 <;> simp [mapSet, lookup_cons_ite, h]
    · have hbeq : (k == e.1) = false := by simpa using he
      simp only [mapSet, hbeq, Bool.false_eq_true, if_false, lookup_cons_ite, ih]
      by_cases h : k' = e.1
      · subst h
        have hne : (e.1 == k) = false := by simpa using Ne.symm he
        simp [hne]
      · have hne : (k' == e.1) = false := by simpa using h
        simp [hne]

variable {m : List (κ × ν)}

variable {k : κ}

variable {v : ν}

omit [LawfulBEq κ] in
theorem mem_mapSet {e : κ × ν} (h : e ∈ mapSet m k v) : e ∈ m ∨ e = (k, v) := by
  induction m with
  | nil => exact Or.inr (List.mem_singleton.1 h)
  | cons e₀ m ih =>
    rw [mapSet] at h
    split_ifs at h
    · rcases List.mem_cons.1 h with h | h
      · exact Or.inr h
      · exact Or.inl (List.mem_cons_of_mem _ h)
    · rcases List.mem_cons.1 h with h | h
      · exact Or.inl (h ▸ List.mem_cons_self)
      · exact (ih h).imp_left (List.mem_cons_of_mem _)

theorem mem_of_lookup (h : m.lookup k = some v) : (k, v) ∈ m := by
  obtain ⟨before, after, rfl, -⟩ := List.lookup_eq_some_iff.1 h
  simp

/-- `delete(m, k)`. -/
def mapDelete {κ ν : Type} [BEq κ] (m : List (κ × ν)) (k : κ) : List (κ × ν) :=
  m.filter fun e => !(e.1 == k)

theorem lookup_mapDelete (m : List (κ × ν)) (k k' : κ) :
    (mapDelete m k).lookup k' = if k' == k then none else m.lookup k' := by
  induction m with
  | nil => simp [mapDelete]
  | cons e es ih =>
    rw [mapDelete] at ih ⊢
    by_cases he : e.1 = k
    · subst he
      rw [List.filter_cons_of_neg (by simp), ih, lookup_cons_ite]
      cases h : k' == e.1 <;> simp
    · rw [List.filter_cons_of_pos (by simpa using he), lookup_cons_ite, ih, lookup_cons_ite]
      by_cases h : k' = e.1
      · subst h
        have hne : (e.1 == k) = false := by simpa using he
        simp [hne]
      · have hne : (k' == e.1) = false := by simpa using h
        simp [hne]

/-- A key is absent after an entry was added exactly when it was absent and is another key. -/
theorem lookup_concat_eq_none_iff {k' : κ} :
    (m ++ [(k, v)]).lookup k' = none ↔ m.lookup k' = none ∧ k' ≠ k := by
  rw [List.lookup_append, Option.or_eq_none_iff, lookup_cons_ite]
  simp

omit [LawfulBEq κ] in
/-- Assigning a new key adds an entry at the end. -/
theorem mapSet_of_lookup_eq_none (h : m.lookup k = none) (v : ν) : mapSet m k v = m ++ [(k, v)] := by
  induction m with
  | nil => rfl
  | cons e es ih =>
    rw [lookup_cons_ite] at h
    cases hk : k == e.1 with
    | true => simp [hk] at h
    | false =>
      simp only [hk, Bool.false_eq_true, if_false] at h
      simp [mapSet, hk, ih h]

/-- Assigning a key that is there leaves the keys as they are. -/
theorem keys_mapSet (h : m.lookup k = some v) (v' : ν) :
    (mapSet m k v').map Prod.fst = m.map Prod.fst := by
  induction m with
  | nil => cases h
  | cons e es ih =>
    rw [lookup_cons_ite] at h
    rw [mapSet]
    split_ifs at h ⊢ with hk
    · rw [List.map_cons, List.map_cons, eq_of_beq hk]
    · rw [List.map_cons, List.map_cons, ih h]

end Entries

/-! ## Writes -/

section Writes

variable {κ β : Type} [DecidableEq κ]

/-- Write the values in order. -/
def applyWrites (f : κ → β) : List (κ × β) → κ → β
  | [] => f
  | w :: ws => applyWrites (Function.update f w.1 w.2) ws

theorem applyWrites_append (f : κ → β) (ws ws' : List (κ × β)) :
    applyWrites f (ws ++ ws') = applyWrites (applyWrites f ws) ws' := by
  induction ws generalizing f with
  | nil => rfl
  | cons w ws ih => exact ih _

variable {ws : List (κ × β)}

variable {f : κ → β}

theorem applyWrites_of_not_mem {k : κ} (h : k ∉ ws.map Prod.fst) : applyWrites f ws k = f k := by
  induction ws generalizing f with
  | nil => rfl
  | cons w ws ih =>
    rw [List.map_cons, List.mem_cons, not_or] at h
    rw [applyWrites, ih h.2, Function.update_of_ne h.1]

/-- Writes make tables equal that agree on the other keys. -/
theorem applyWrites_congr {g : κ → β}
    (h : ∀ k, k ∉ ws.map Prod.fst → f k = g k) : applyWrites f ws = applyWrites g ws := by
  induction ws generalizing f g with
  | nil => exact funext fun k => h k (List.not_mem_nil)
  | cons w ws ih =>
    apply ih
    intro k hk
    by_cases hw : k = w.1
    · subst hw
      rw [Function.update_self, Function.update_self]
    · rw [Function.update_of_ne hw, Function.update_of_ne hw]
      exact h k (by simp [hw, hk])

/-- Writes to keys that are written again leave no trace. -/
theorem applyWrites_absorb {ws' : List (κ × β)} (h : ∀ w ∈ ws', w.1 ∈ ws.map Prod.fst) :
    applyWrites (applyWrites f ws') ws = applyWrites f ws := by
  apply applyWrites_congr
  intro k hk
  apply applyWrites_of_not_mem
  intro hk'
  obtain ⟨w, hw, rfl⟩ := List.mem_map.1 hk'
  exact hk (h w hw)

end Writes

/-! ## Related lists -/

variable {α : Type}

/-- An element of the right list of related lists is related to one of the left. -/
theorem exists_of_forall₂_right {β : Type} {R : α → β → Prop} {as : List α} {bs : List β}
    (h : List.Forall₂ R as bs) {b : β} (hb : b ∈ bs) : ∃ a ∈ as, R a b := by
  induction h with
  | nil => cases hb
  | cons hr _ ih =>
    rcases List.mem_cons.1 hb with rfl | hb
    · exact ⟨_, List.mem_cons_self, hr⟩
    · obtain ⟨a, ha, har⟩ := ih hb
      exact ⟨a, List.mem_cons_of_mem _ ha, har⟩

variable {xs : List α} {i : Nat}

variable {x y : α} {P : α → Prop}

/-- An entry of a list of which one entry was replaced. -/
theorem getElem?_set_cases {j : Nat}
    (h : (xs.set i x)[j]? = some y) : j = i ∧ y = x ∨ j ≠ i ∧ xs[j]? = some y := by
  rw [List.getElem?_set] at h
  split_ifs at h with hij hlt
  · exact Or.inl ⟨hij.symm, (Option.some.inj h).symm⟩
  · exact Or.inr ⟨Ne.symm hij, h⟩

/-- What holds of every entry, and of the one that replaces an entry, holds of every entry afterwards. -/
theorem forall_mem_set (h : ∀ x ∈ xs, P x) (hy : P y) : ∀ x ∈ xs.set i y, P x := by
  intro x hx
  rcases List.mem_or_eq_of_mem_set hx with hx | rfl
  · exact h x hx
  · exact hy

/-- What follows from an entry, and from being the one that replaces an entry, follows afterwards. -/
theorem of_mem_set {Q : Prop} (h : x ∈ xs → Q) (hy : y = x → Q) : x ∈ xs.set i y → Q :=
  fun hx => (List.mem_or_eq_of_mem_set hx).elim h fun heq => hy heq.symm

/-- An entry that has a property is still there, unless it is the one that was replaced. -/
theorem exists_getElem?_set {j : Nat} (hx : xs[i]? = some x)
    (hP : i = j → P x → P y) (h : ∃ z, xs[j]? = some z ∧ P z) : ∃ z, (xs.set i y)[j]? = some z ∧ P z := by
  obtain ⟨z, hz, hPz⟩ := h
  by_cases hij : i = j
  · subst hij
    obtain rfl := Option.some.inj (hx.symm.trans hz)
    exact ⟨y, List.getElem?_set_self (List.getElem?_eq_some_iff.1 hx).1, hP rfl hPz⟩
  · exact ⟨z, (List.getElem?_set_ne hij).trans hz, hPz⟩

theorem getElem?_append_of_some (h : xs[i]? = some x) (ys : List α) : (xs ++ ys)[i]? = some x := by
  rw [List.getElem?_append_left (List.getElem?_eq_some_iff.1 h).1, h]

theorem forall_mem_concat (h : ∀ x ∈ xs, P x) (hy : P y) : ∀ x ∈ xs ++ [y], P x :=
  List.forall_mem_append.2 ⟨h, List.forall_mem_singleton.2 hy⟩

theorem nodup_concat (h : xs.Nodup) (hx : x ∉ xs) : (xs ++ [x]).Nodup :=
  List.concat_eq_append ▸ h.concat hx

/-- An entry of a list to which one was added. -/
theorem getElem?_concat_cases
    (h : (xs ++ [x])[i]? = some y) : xs[i]? = some y ∨ i = xs.length ∧ y = x := by
  rw [List.getElem?_append] at h
  split_ifs at h with hlt
  · exact Or.inl h
  · obtain ⟨hle, hy⟩ := List.getElem?_eq_some_iff.1 h
    rw [List.length_singleton] at hle
    rw [List.getElem_singleton] at hy
    exact Or.inr ⟨by omega, hy.symm⟩

/-- What is the same of the entry that was replaced is the same of the list. -/
theorem map_set_of_eq {β : Type} {f : α → β}
    (hx : xs[i]? = some x) (hf : f y = f x) : (xs.set i y).map f = xs.map f := by
  apply List.ext_getElem?
  intro j
  rw [List.map_set, hf]
  by_cases hij : i = j
  · subst hij
    have hlt := (List.getElem?_eq_some_iff.1 hx).1
    rw [List.getElem?_set_self (by simpa using hlt), List.getElem?_map, hx, Option.map_some]
  · rw [List.getElem?_set_ne hij]

end Astrate.GoLib
