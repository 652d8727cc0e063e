import Astrate.InterfaceSchema.Compile

/-!
# The alphabets of names and paths

What octets an accepted interface name and a matched path can hold. A name is made of letters, digits,
dots and hyphens, so it has none of the separators of topics, introspections and property lists. A
matched path starts with a slash, has no empty level and no MQTT wildcard, and is free otherwise.
-/

set_option autoImplicit false

namespace Astrate.InterfaceSchema

open Astrate.GoLib

/-! ## Names -/

/-- A letter, a digit, a hyphen or a dot. -/
def nameByte (c : UInt8) : Bool := alnumByte c || c == 45 || c == 46

theorem nameByte_of_alnumByte {c : UInt8} (h : alnumByte c = true) : nameByte c = true := by
  simp [nameByte, h]

theorem nameByte_of_outerLabel {l : Bytes} (h : outerLabel l = true) : ∀ c ∈ l, nameByte c = true := by
  cases l with
  | nil => exact nofun
  | cons b bs =>
    simp only [outerLabel, Bool.and_eq_true, List.all_eq_true] at h
    intro c hc
    apply nameByte_of_alnumByte
    rcases List.mem_cons.1 hc with rfl | hc
    · simp [alnumByte, h.1]
    · exact h.2 c hc

theorem nameByte_of_middleLabel {l : Bytes} (h : middleLabel l = true) : ∀ c ∈ l, nameByte c = true := by
  cases l with
  | nil => exact nofun
  | cons b bs =>
    simp only [middleLabel, Bool.and_eq_true, List.all_eq_true, Bool.or_eq_true, beq_iff_eq] at h
    intro c hc
    rcases List.mem_cons.1 hc with rfl | hc
    · exact nameByte_of_alnumByte h.1
    · rcases h.2 c hc with halnum | rfl
      · exact nameByte_of_alnumByte halnum
      · rfl

theorem nameByte_of_tailLabels {ls : List Bytes} (h : tailLabels ls = true) :
    ∀ l ∈ ls, ∀ c ∈ l, nameByte c = true := by
  induction ls with
  | nil => exact nofun
  | cons l ls ih =>
    cases ls with
    | nil =>
      intro l' hl'
      rw [List.mem_singleton] at hl'
      subst hl'
      exact nameByte_of_outerLabel h
    | cons l' ls =>
      simp only [tailLabels, Bool.and_eq_true] at h
      intro l'' hl''
      rcases List.mem_cons.1 hl'' with rfl | hl''
      · exact nameByte_of_middleLabel h.1
      · exact ih h.2 l'' hl''

/-- The labels and the dots between them are all there is. -/
theorem mem_nameLabels {name : Bytes} {c : UInt8} (h : c ∈ name) : c = 46 ∨ ∃ l ∈ nameLabels name, c ∈ l := by
  induction name with
  | nil => cases h
  | cons b bs ih =>
    rw [nameLabels]
    split_ifs with hdot
    · rcases List.mem_cons.1 h with rfl | h
      · exact .inl hdot
      · rcases ih h with heq | ⟨l, hl, hc⟩
        · exact .inl heq
        · exact .inr ⟨l, List.mem_cons_of_mem _ hl, hc⟩
    · cases hlabels : nameLabels bs with
      | nil =>
        rw [hlabels] at ih
        rcases List.mem_cons.1 h with rfl | h
        · exact .inr ⟨_, List.mem_cons_self, List.mem_cons_self⟩
        · rcases ih h with heq | ⟨l, hl, -⟩
          · exact .inl heq
          · cases hl
      | cons l ls =>
        rw [hlabels] at ih
        rcases List.mem_cons.1 h with rfl | h
        · exact .inr ⟨_, List.mem_cons_self, List.mem_cons_self⟩
        · rcases ih h with heq | ⟨l', hl', hc⟩
          · exact .inl heq
          · rcases List.mem_cons.1 hl' with rfl | hl'
            · exact .inr ⟨_, List.mem_cons_self, List.mem_cons_of_mem _ hc⟩
            · exact .inr ⟨l', List.mem_cons_of_mem _ hl', hc⟩

theorem nameByte_of_interfaceNameOK {name : Bytes} (h : interfaceNameOK name = true) :
    ∀ c ∈ name, nameByte c = true := by
  intro c hc
  rcases mem_nameLabels hc with rfl | ⟨l, hl, hcl⟩
  · rfl
  · unfold interfaceNameOK at h
    cases hlabels : nameLabels name with
    | nil =>
      rw [hlabels] at hl
      cases hl
    | cons first rest =>
      rw [hlabels] at h hl
      rw [Bool.and_eq_true] at h
      rcases List.mem_cons.1 hl with rfl | hl
      · exact nameByte_of_outerLabel h.1 c hcl
      · exact nameByte_of_tailLabels h.2 l hl c hcl

theorem interfaceNameOK_ne_nil {name : Bytes} (h : interfaceNameOK name = true) : name ≠ [] := by
  rintro rfl
  cases h

/-- An octet that no name holds: `/`, `+`, `#`, `:` and `;` are such. -/
theorem not_mem_name {name : Bytes} (h : interfaceNameOK name = true) {c : UInt8}
    (hc : nameByte c = false) : c ∉ name := by
  intro hmem
  rw [nameByte_of_interfaceNameOK h c hmem] at hc
  cases hc

/-! ## Paths -/

/-- The text of a path that some endpoint accepts. -/
structure PathText (path : Bytes) : Prop where
  rooted : ∃ c rest, path = slash :: c :: rest ∧ c ≠ slash
  no_plus : 43 ∉ path
  no_hash : 35 ∉ path

theorem levelAccepts_no_wildcard {level : EndpointSegment} (hwf : level.WellFormed) {seg : Bytes}
    (h : levelAccepts level seg) : 43 ∉ seg ∧ 35 ∉ seg := by
  obtain ⟨-, h⟩ := h
  by_cases hparam : level.param = true
  · rw [if_pos hparam] at h
    exact h.2
  · rw [if_neg hparam] at h
    subst h
    exact ⟨not_mem_of_validIdentifier hwf (by decide) (by decide),
      not_mem_of_validIdentifier hwf (by decide) (by decide)⟩

theorem pathText_of_endpointAccepts {levels : List EndpointSegment}
    (hwf : ∀ level ∈ levels, level.WellFormed) {path : Bytes} (h : endpointAccepts levels path) :
    PathText path := by
  obtain ⟨rest, rfl, hparts⟩ := h
  have hpart : ∀ seg ∈ rest.splitOn slash, seg ≠ [] ∧ 43 ∉ seg ∧ 35 ∉ seg := by
    intro seg hseg
    obtain ⟨level, hlevel, haccepts⟩ := exists_of_forall₂_right hparts.flip hseg
    exact ⟨haccepts.1, levelAccepts_no_wildcard (hwf level hlevel) haccepts⟩
  have hfree : ∀ c : UInt8, c ≠ slash → (∀ seg ∈ rest.splitOn slash, c ∉ seg) →
      c ∉ slash :: rest := by
    intro c hne hsegs hc
    rcases List.mem_cons.1 hc with rfl | hc
    · exact hne rfl
    · obtain ⟨seg, hseg, hc⟩ := (mem_splitOn hne).1 hc
      exact hsegs seg hseg hc
  refine ⟨?_, hfree 43 (by decide) fun seg hseg => (hpart seg hseg).2.1,
    hfree 35 (by decide) fun seg hseg => (hpart seg hseg).2.2⟩
  -- The first level is not empty, so the slash is not followed by another one or by the end.
  cases rest with
  | nil => exact absurd rfl (hpart [] (by simp)).1
  | cons c rest =>
    refine ⟨c, rest, rfl, ?_⟩
    rintro rfl
    have hcut : cutByte slash (slash :: rest) = some ([], rest) := by simp [cutByte]
    have hnil := hpart [] (by rw [splitOn_of_cutByte_some hcut]; exact List.mem_cons_self)
    exact hnil.1 rfl

theorem pathText_of_matchPath {data : Bytes} {iface : Interface} {ids : Option EndpointIDResolver}
    {ci : CompiledInterface} (hparse : parseInterface data = .ok iface)
    (hcompile : compile iface ids = .ok ci) {path : Bytes} {p : MappingPtr}
    (hmatch : ci.trie.matchPath path = some p) : PathText path := by
  have wf := parseInterface_wellFormed hparse
  obtain ⟨k, m, hk, -, haccepts⟩ := (wf.matchPath_eq_some_iff hcompile path p).1 hmatch
  exact pathText_of_endpointAccepts
    (splitEndpoint_wellFormed (wf.levels m (List.mem_of_getElem? hk))) haccepts

end Astrate.InterfaceSchema
