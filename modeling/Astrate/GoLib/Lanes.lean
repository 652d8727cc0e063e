import Mathlib.Data.List.Nodup
import Mathlib.Data.List.Perm.Basic
import Astrate.GoLib.Map

/-!
# Lanes

Entries are put into lanes, each of them a queue, and every lane takes its entries out again. `Fifo`
says that what was put into a lane is what was taken from it, followed by what it still has. From this
follows that nothing is taken twice or out of order (`Fifo.nodup`, `Fifo.filter_initial`), and that
everything has been taken once the lanes are empty (`Fifo.perm`).
-/

set_option autoImplicit false

namespace Astrate.GoLib

section Lanes

variable {α : Type} (lane : α → Nat)

/-- The entries of one lane. -/
def ofLane (i : Nat) (es : List α) : List α := es.filter fun e => lane e == i

/-- Every lane keeps its order. -/
structure Fifo (put taken : List α) (queues : List (List α)) : Prop where
  split : ∀ (i : Nat) q, queues[i]? = some q → ofLane lane i put = ofLane lane i taken ++ q
  placed : ∀ e ∈ put, lane e < queues.length
  known : ∀ e ∈ taken, lane e < queues.length

variable {lane} {put taken : List α} {queues : List (List α)} {i : Nat} {e : α} {q : List α}

theorem mem_ofLane {es : List α} : e ∈ ofLane lane i es ↔ e ∈ es ∧ lane e = i := by
  simp [ofLane]

theorem ofLane_concat_self (es : List α) (e : α) : ofLane lane (lane e) (es ++ [e]) =
    ofLane lane (lane e) es ++ [e] := by
  simp [ofLane]

theorem ofLane_concat_other (es : List α) (h : lane e ≠ i) : ofLane lane i (es ++ [e]) = ofLane lane i es := by
  simp [ofLane, h]

theorem fifo_nil (n : Nat) : Fifo lane [] [] (List.replicate n []) := by
  refine ⟨fun i q hq => ?_, nofun, nofun⟩
  obtain rfl := List.eq_of_mem_replicate (List.mem_of_getElem? hq)
  rfl

section

variable (h : Fifo lane put taken queues)

include h

/-- An entry is put at the end of its lane. -/
theorem Fifo.concat (hq : queues[lane e]? = some q) :
    Fifo lane (put ++ [e]) taken (queues.set (lane e) (q ++ [e])) where
  split := by
    intro j r hr
    rcases getElem?_set_cases hr with ⟨rfl, rfl⟩ | ⟨hne, hr⟩
    · rw [ofLane_concat_self, h.split _ q hq, List.append_assoc]
    · rw [ofLane_concat_other put (Ne.symm hne), h.split j r hr]
  placed := by
    rw [List.length_set]
    exact forall_mem_concat h.placed (List.getElem?_eq_some_iff.1 hq).1
  known := by
    rw [List.length_set]
    exact h.known

/-- The entry at the head of a lane is one of this lane. -/
theorem Fifo.lane_head (hq : queues[i]? = some (e :: q)) : lane e = i := by
  have hmem : e ∈ ofLane lane i put := by
    rw [h.split i _ hq]
    exact List.mem_append_right _ List.mem_cons_self
  exact (mem_ofLane.1 hmem).2

/-- A lane takes the entry at its head. -/
theorem Fifo.take (hq : queues[i]? = some (e :: q)) : Fifo lane put (taken ++ [e]) (queues.set i q) where
  split := by
    intro j r hr
    obtain rfl := h.lane_head hq
    rcases getElem?_set_cases hr with ⟨rfl, rfl⟩ | ⟨hne, hr⟩
    · rw [ofLane_concat_self, h.split _ _ hq, List.append_assoc, List.singleton_append]
    · rw [ofLane_concat_other taken (Ne.symm hne), h.split j r hr]
  placed := by
    rw [List.length_set]
    exact h.placed
  known := by
    rw [List.length_set]
    refine forall_mem_concat h.known ?_
    rw [h.lane_head hq]
    exact (List.getElem?_eq_some_iff.1 hq).1

theorem Fifo.ofLane_initial (hi : i < queues.length) : ofLane lane i taken <+: ofLane lane i put :=
  ⟨_, (h.split i _ (List.getElem?_eq_getElem hi)).symm⟩

theorem Fifo.subset : taken ⊆ put := by
  intro e he
  have hmem := (h.ofLane_initial (h.known e he)).subset (mem_ofLane.2 ⟨he, rfl⟩)
  exact (mem_ofLane.1 hmem).1

/-- Entries that all belong to one lane are taken in the order in which they were put. -/
theorem Fifo.filter_initial (p : α → Bool)
    (hp : ∀ e ∈ put, p e = true → lane e = i) : taken.filter p <+: put.filter p := by
  -- restricted to `p`, both logs are those of lane `i`
  have hlane : ∀ es : List α, es ⊆ put → es.filter p = (ofLane lane i es).filter p := by
    intro es hes
    rw [ofLane, List.filter_filter]
    apply List.filter_congr
    intro e he
    cases hpe : p e with
    | false => rfl
    | true => simp [hp e (hes he) hpe]
  rw [hlane taken h.subset, hlane put (List.Subset.refl put)]
  by_cases hi : i < queues.length
  · exact (h.ofLane_initial hi).filter p
  · -- a lane that does not exist has taken nothing
    have hnone : ofLane lane i taken = [] := by
      apply List.eq_nil_iff_forall_not_mem.2
      intro e he
      obtain ⟨hmem, rfl⟩ := mem_ofLane.1 he
      exact hi (h.known e hmem)
    rw [hnone]
    exact List.nil_prefix

omit h in
theorem nodup_of_ofLane {es : List α} (h : ∀ i, (ofLane lane i es).Nodup) : es.Nodup := by
  induction es with
  | nil => exact List.nodup_nil
  | cons e es ih =>
    have hcons : ofLane lane (lane e) (e :: es) = e :: ofLane lane (lane e) es :=
      List.filter_cons_of_pos (by simp)
    have hself := h (lane e)
    rw [hcons, List.nodup_cons] at hself
    refine List.nodup_cons.2 ⟨fun hmem => hself.1 (mem_ofLane.2 ⟨hmem, rfl⟩), ih fun i => ?_⟩
    exact (h i).sublist ((List.sublist_cons_self e es).filter _)

/-- Nothing is taken twice. -/
theorem Fifo.nodup (hput : put.Nodup) : taken.Nodup := by
  apply nodup_of_ofLane
  intro i
  exact (hput.filter _).sublist (h.filter_initial (fun e => lane e == i) fun e _ he => eq_of_beq he).sublist

/-- When the lanes are empty, everything has been taken. -/
theorem Fifo.perm (hput : put.Nodup) (hempty : ∀ q ∈ queues, q = []) : taken.Perm put := by
  apply (List.perm_ext_iff_of_nodup (h.nodup hput) hput).2
  intro e
  refine ⟨fun he => h.subset he, fun he => ?_⟩
  have hlt := h.placed e he
  have hq := List.getElem?_eq_getElem hlt
  have hmem : e ∈ ofLane lane (lane e) put := mem_ofLane.2 ⟨he, rfl⟩
  rw [h.split (lane e) _ hq, hempty _ (List.getElem_mem hlt), List.append_nil] at hmem
  exact (mem_ofLane.1 hmem).1

end

end Lanes

end Astrate.GoLib
