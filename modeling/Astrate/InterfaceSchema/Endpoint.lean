import Astrate.InterfaceSchema.Types

/-!
# Endpoint patterns

`splitEndpoint`, `parseSegment` and `normalizeEndpoint` of `pkg/interfaceschema/parse.go`: an
endpoint pattern is a `/`-rooted sequence of 1 to 64 levels, each a literal identifier or a
whole-level `%{placeholder}`.

The splitter is a hand-written loop that cuts at the next `/` and treats the trailing slash apart.
`splitEndpoint_eq_ok_iff` gives its meaning in terms of `List.splitOn`, and
`splitEndpoint_wellFormed` the shape of every level it returns. The placeholder-erased key of
`normalizeEndpoint` determines the levels up to placeholder names (`normalizeEndpoint_inj`).
-/

set_option autoImplicit false

namespace Astrate.InterfaceSchema

open Astrate.GoLib

/-- The level separator of endpoints and paths. -/
def slash : UInt8 := 47

/-- Maximum number of endpoint levels. -/
def maxEndpointDepth : Nat := 64

/-- One level of an endpoint pattern: a literal name, or a placeholder with its name. -/
@[ext]
structure EndpointSegment where
  literal : Bytes
  param : Bool
  deriving DecidableEq, Repr

/-- An octet of an identifier; digits are refused at the first position. -/
def identByte (first : Bool) (c : UInt8) : Bool :=
  (97 ≤ c && c ≤ 122) || (65 ≤ c && c ≤ 90) || c == 95 || (48 ≤ c && c ≤ 57 && !first)

/-- `[A-Za-z_][A-Za-z0-9_]*`. -/
def validIdentifier : Bytes → Bool
  | [] => false
  | c :: cs => identByte true c && cs.all (identByte false)

/-- Validation of one raw endpoint level. -/
def parseSegment (endpoint raw : Bytes) : Except FmtError EndpointSegment :=
  if raw = [] then errorf "invalid endpoint %q: empty segment" [.str endpoint]
  else if raw.head? = some 37 then
    if raw.length < 4 ∨ raw[1]? ≠ some 123 ∨ raw.getLast? ≠ some 125 then
      errorf "invalid endpoint %q: malformed placeholder %q" [.str endpoint, .str raw]
    else
      let name := (raw.drop 2).dropLast
      if validIdentifier name then .ok ⟨name, true⟩
      else errorf "invalid endpoint %q: invalid placeholder name %q" [.str endpoint, .str name]
  else if validIdentifier raw then .ok ⟨raw, false⟩
  else if raw.any (fun c => c == 37 || c == 123 || c == 125) then
    errorf "invalid endpoint %q: placeholders must span a whole segment" [.str endpoint]
  else errorf "invalid endpoint %q: invalid segment %q" [.str endpoint, .str raw]

/-- Trailing `/`, an empty final level. -/
def endsWithSlash (endpoint : Bytes) : Bool := endpoint.getLast? == some slash

/-- The loop of `splitEndpoint`; `rest` starts after a separator. Each pass takes at least one octet
off `rest`, so `fuel` above its length is never used up. -/
def splitLoop (endpoint : Bytes) : Nat → Bytes → Except FmtError (List EndpointSegment)
  | 0, _ => .ok []
  | fuel + 1, rest => do
      let p := (cutByte slash rest).getD (rest, [])
      let seg ← parseSegment endpoint p.1
      if p.2 = [] ∧ ¬ endsWithSlash endpoint then .ok [seg]
      else if p.2 = [] then errorf "invalid endpoint %q: empty segment" [.str endpoint]
      else do
        let segs ← splitLoop endpoint fuel p.2
        .ok (seg :: segs)

/-- Parsing and validation of an endpoint pattern into its levels. -/
def splitEndpoint (endpoint : Bytes) : Except FmtError (List EndpointSegment) :=
  if endpoint.head? ≠ some slash then
    errorf "invalid endpoint %q: must start with '/'" [.str endpoint]
  else do
    let segs ← splitLoop endpoint endpoint.length endpoint.tail
    if segs.length > maxEndpointDepth then
      errorf "invalid endpoint %q: exceeds %d levels" [.str endpoint, .int maxEndpointDepth]
    else .ok segs

/-- The text of one level with the placeholder name erased. -/
def EndpointSegment.erased (seg : EndpointSegment) : Bytes :=
  if seg.param then utf8 "%\x7b\x7d" else seg.literal

/-- The endpoint with placeholder names erased: the key under which endpoints of two versions are
paired. -/
def normalizeEndpoint (segs : List EndpointSegment) : Bytes :=
  segs.flatMap fun seg => slash :: seg.erased

/-! ## The splitting loop -/

theorem parseSegment_nil (endpoint : Bytes) (seg : EndpointSegment) : parseSegment endpoint [] ≠ .ok seg := by
  simp [parseSegment, errorf]

/-- After a separator, the endpoint ends in `/` exactly when nothing is left or the rest does. -/
theorem endsWithSlash_append (pre rest : Bytes) :
    endsWithSlash (pre ++ slash :: rest) = true ↔ rest = [] ∨ rest.getLast? = some slash := by
  cases rest with
  | nil => simp [endsWithSlash]
  | cons c cs => simp [endsWithSlash, List.getLast?_append]

/-- The loop returns the parsed parts of the rest, split at every separator. -/
theorem splitLoop_eq_ok_iff (endpoint : Bytes) :
    ∀ (fuel : Nat) (pre rest : Bytes) (segs : List EndpointSegment),
      endpoint = pre ++ slash :: rest → rest.length < fuel →
        (splitLoop endpoint fuel rest = .ok segs ↔
          List.Forall₂ (fun raw seg => parseSegment endpoint raw = .ok seg)
            (rest.splitOn slash) segs) := by
  intro fuel
  induction fuel with
  | zero => intro pre rest segs _ hlt; omega
  | succ fuel ih =>
    intro pre rest segs hpre hlt
    cases hcut : cutByte slash rest with
    | none =>
      -- a parsed level is not empty, so an endpoint without further `/` cannot end in one
      have hslash : ∀ seg, parseSegment endpoint rest = .ok seg → ¬ endsWithSlash endpoint := by
        intro seg hseg
        rw [hpre, endsWithSlash_append]
        rintro (rfl | h)
        · exact parseSegment_nil endpoint seg hseg
        · exact (cutByte_eq_none_iff slash rest).1 hcut (List.mem_of_getLast? h)
      simp only [splitLoop, hcut, Option.getD_none, true_and, if_true]
      rw [splitOn_of_cutByte_none hcut, bind_eq_ok_iff, List.forall₂_cons_left_iff]
      constructor
      · rintro ⟨seg, hseg, h⟩
        rw [if_pos (hslash seg hseg), Except.ok.injEq] at h
        exact ⟨seg, [], hseg, .nil, h.symm⟩
      · rintro ⟨seg, segs', hseg, hnil, rfl⟩
        rw [List.forall₂_nil_left_iff] at hnil
        subst hnil
        exact ⟨seg, hseg, by rw [if_pos (hslash seg hseg)]⟩
    | some p =>
      obtain ⟨raw, rest'⟩ := p
      obtain ⟨hrest, -⟩ := (cutByte_eq_some_iff slash rest raw rest').1 hcut
      have hlt' := cutByte_length_lt hcut
      simp only [splitLoop, hcut, Option.getD_some]
      rw [splitOn_of_cutByte_some hcut, bind_eq_ok_iff, List.forall₂_cons_left_iff]
      by_cases hnil : rest' = []
      · -- a trailing separator: the loop reports it, and the empty last part does not parse
        subst hnil
        have hslash : endsWithSlash endpoint = true := by
          rw [hpre, endsWithSlash_append, hrest]
          exact Or.inr (by simp)
        simp [hslash, List.forall₂_cons_left_iff, parseSegment_nil]
      · have hpre' : endpoint = (pre ++ slash :: raw) ++ slash :: rest' := by
          rw [hpre, hrest]
          simp
        have key := fun segs' => ih (pre ++ slash :: raw) rest' segs' hpre' (by omega)
        simp only [hnil, false_and, if_false, bind_eq_ok_iff, key, Except.ok.injEq]
        constructor
        · rintro ⟨seg, hseg, segs', htail, rfl⟩
          exact ⟨seg, segs', hseg, htail, rfl⟩
        · rintro ⟨seg, segs', hseg, htail, rfl⟩
          exact ⟨seg, hseg, segs', htail, rfl⟩

/-- An endpoint is accepted with levels `segs` exactly when it is `/`-rooted, its parts between
separators parse to `segs`, and there are at most 64 of them. -/
theorem splitEndpoint_eq_ok_iff (endpoint : Bytes) (segs : List EndpointSegment) :
    splitEndpoint endpoint = .ok segs ↔
      ∃ rest, endpoint = slash :: rest ∧ segs.length ≤ maxEndpointDepth ∧
        List.Forall₂ (fun raw seg => parseSegment endpoint raw = .ok seg) (rest.splitOn slash) segs := by
  cases endpoint with
  | nil => simp [splitEndpoint]
  | cons c rest =>
    by_cases hc : c = slash
    · subst hc
      have key := fun segs' => splitLoop_eq_ok_iff (slash :: rest) (rest.length + 1) [] rest segs'
        rfl (Nat.lt_succ_self _)
      simp only [splitEndpoint, List.head?_cons, ne_eq, not_true_eq_false, if_false,
        List.length_cons, List.tail_cons, bind_eq_ok_iff, key, List.cons.injEq, true_and,
        exists_eq_left']
      constructor
      · rintro ⟨segs', hall, h⟩
        split_ifs at h with hdepth
        · exact absurd h (errorf_ne_ok _ _ _)
        · rw [Except.ok.injEq] at h
          subst h
          exact ⟨by omega, hall⟩
      · rintro ⟨hdepth, hall⟩
        exact ⟨segs, hall, by rw [if_neg (by omega)]⟩
    · simp [splitEndpoint, hc]

/-! ## Shape of accepted levels -/

/-- The text of a level as declared. -/
def EndpointSegment.text (seg : EndpointSegment) : Bytes :=
  if seg.param then utf8 "%\x7b" ++ seg.literal ++ utf8 "\x7d" else seg.literal

/-- A level carries an identifier, as its literal or as its placeholder name. -/
def EndpointSegment.WellFormed (seg : EndpointSegment) : Prop := validIdentifier seg.literal = true

theorem utf8_open_placeholder : utf8 "%\x7b" = [37, 123] := by decide

theorem utf8_close_placeholder : utf8 "\x7d" = [125] := by decide

/-- An identifier is not empty. -/
theorem ne_nil_of_validIdentifier {s : Bytes} (h : validIdentifier s = true) : s ≠ [] := by
  rintro rfl
  simp [validIdentifier] at h

/-- An octet outside `[A-Za-z0-9_]` does not occur in an identifier. -/
theorem not_mem_of_validIdentifier {s : Bytes} (h : validIdentifier s = true) {c : UInt8}
    (h1 : identByte true c = false) (h2 : identByte false c = false) : c ∉ s := by
  cases s with
  | nil => exact List.not_mem_nil
  | cons x xs =>
    simp only [validIdentifier, Bool.and_eq_true, List.all_eq_true] at h
    intro hc
    rcases List.mem_cons.1 hc with rfl | hc
    · rw [h1] at h
      exact absurd h.1 (by simp)
    · rw [h.2 c hc] at h2
      cases h2

/-- A raw level is accepted exactly when it is the text of the returned level and the level carries
an identifier. -/
theorem parseSegment_eq_ok_iff (endpoint raw : Bytes) (seg : EndpointSegment) :
    parseSegment endpoint raw = .ok seg ↔ raw = seg.text ∧ seg.WellFormed := by
  obtain ⟨literal, param⟩ := seg
  simp only [EndpointSegment.text, EndpointSegment.WellFormed]
  constructor
  · intro h
    unfold parseSegment at h
    by_cases h1 : raw = []
    · simp [h1] at h
    by_cases h2 : raw.head? = some 37
    · by_cases h3 : raw.length < 4 ∨ raw[1]? ≠ some 123 ∨ raw.getLast? ≠ some 125
      · simp [h1, h2, h3] at h
      by_cases h4 : validIdentifier (raw.drop 2).dropLast = true
      · simp only [h1, h2, h3, h4, if_true, if_false, Except.ok.injEq, EndpointSegment.mk.injEq] at h
        obtain ⟨rfl, rfl⟩ := h
        simp only [not_or, not_not, Nat.not_lt] at h3
        obtain ⟨hlen, hopen, hclose⟩ := h3
        refine ⟨?_, h4⟩
        -- the octets `%`, `{` and `}` at the checked positions, the name between them
        match raw, h2, hlen, hopen, hclose with
        | a :: b :: c :: t, ha, _, hb, hl =>
          simp only [List.head?_cons, Option.some.injEq] at ha
          simp only [List.getElem?_cons_succ, List.getElem?_cons_zero, Option.some.injEq] at hb
          subst ha hb
          simp only [List.getLast?_cons_cons] at hl
          have hl' := List.dropLast_append_getLast? 125 hl
          simp only [if_true, utf8_open_placeholder, utf8_close_placeholder, List.drop_succ_cons,
            List.drop_zero, List.cons_append, List.nil_append]
          rw [hl']
      · simp [h1, h2, h3, h4] at h
    · by_cases h5 : validIdentifier raw = true
      · simp only [h1, h2, h5, if_true, if_false, Except.ok.injEq, EndpointSegment.mk.injEq] at h
        obtain ⟨rfl, rfl⟩ := h
        exact ⟨by simp, h5⟩
      · by_cases h6 : raw.any (fun c => c == 37 || c == 123 || c == 125) = true
        · simp only [h1, h2, h5, h6, if_true, if_false] at h
          exact absurd h (errorf_ne_ok _ _ _)
        · simp only [h1, h2, h5, h6, if_false] at h
          exact absurd h (errorf_ne_ok _ _ _)
  · rintro ⟨rfl, hwf⟩
    cases param with
    | true =>
      obtain ⟨c, cs, rfl⟩ := List.exists_cons_of_ne_nil (ne_nil_of_validIdentifier hwf)
      have hlast : (37 :: 123 :: c :: (cs ++ [125]) : Bytes).getLast? = some 125 := by
        have : (37 :: 123 :: c :: (cs ++ [125]) : Bytes) = (37 :: 123 :: c :: cs) ++ [125] := by
          simp
        rw [this, List.getLast?_concat]
      have hname : (c :: (cs ++ [125]) : Bytes).dropLast = c :: cs := by
        have : (c :: (cs ++ [125]) : Bytes) = (c :: cs) ++ [125] := by simp
        rw [this, List.dropLast_concat]
      simp [parseSegment, utf8_open_placeholder, utf8_close_placeholder, hlast, hname, hwf]
    | false =>
      have h2 : literal.head? ≠ some 37 := by
        intro h
        exact not_mem_of_validIdentifier hwf (by decide) (by decide) (List.mem_of_head? h)
      simp [parseSegment, ne_nil_of_validIdentifier hwf, h2, hwf]

/-- Exact acceptance condition of endpoints: the declared levels, each after a `/`. -/
theorem splitEndpoint_ok_iff_text (endpoint : Bytes) (segs : List EndpointSegment) :
    splitEndpoint endpoint = .ok segs ↔
      ∃ rest, endpoint = slash :: rest ∧ segs.length ≤ maxEndpointDepth ∧
        rest.splitOn slash = segs.map EndpointSegment.text ∧ ∀ seg ∈ segs, seg.WellFormed := by
  rw [splitEndpoint_eq_ok_iff]
  have hiff : ∀ raws : List Bytes,
      List.Forall₂ (fun raw seg => parseSegment endpoint raw = .ok seg) raws segs ↔
        raws = segs.map EndpointSegment.text ∧ ∀ seg ∈ segs, seg.WellFormed := by
    intro raws
    simp only [parseSegment_eq_ok_iff]
    induction segs generalizing raws with
    | nil => simp
    | cons seg segs ih =>
      simp only [List.forall₂_cons_right_iff, ih, List.map_cons, List.forall_mem_cons]
      constructor
      · rintro ⟨raw, raws', ⟨rfl, hwf⟩, ⟨rfl, hall⟩, rfl⟩
        exact ⟨rfl, hwf, hall⟩
      · rintro ⟨rfl, hwf, hall⟩
        exact ⟨_, _, ⟨rfl, hwf⟩, ⟨rfl, hall⟩, rfl⟩
  simp only [hiff]

theorem splitEndpoint_wellFormed {endpoint : Bytes} {segs : List EndpointSegment}
    (h : splitEndpoint endpoint = .ok segs) : ∀ seg ∈ segs, seg.WellFormed := by
  obtain ⟨-, -, -, -, hwf⟩ := (splitEndpoint_ok_iff_text endpoint segs).1 h
  exact hwf

/-- An accepted endpoint has at least one level. -/
theorem splitEndpoint_ne_nil {endpoint : Bytes} {segs : List EndpointSegment}
    (h : splitEndpoint endpoint = .ok segs) : segs ≠ [] := by
  obtain ⟨rest, -, -, hsplit, -⟩ := (splitEndpoint_ok_iff_text endpoint segs).1 h
  rintro rfl
  exact List.splitOn_ne_nil slash rest hsplit

/-! ## Placeholder-erased keys -/

/-- What a level matches: a literal, or anything a placeholder may stand for. Placeholder names are
not part of it. -/
def EndpointSegment.shape (seg : EndpointSegment) : Option Bytes :=
  if seg.param then none else some seg.literal

/-- No octet of an erased level is the separator. -/
theorem slash_not_mem_erased {seg : EndpointSegment} (h : seg.WellFormed) : slash ∉ seg.erased := by
  unfold EndpointSegment.erased
  split
  · decide
  · exact not_mem_of_validIdentifier h (by decide) (by decide)

/-- Erased texts agree exactly on levels of the same shape: an identifier never reads `%{}`. -/
theorem erased_eq_iff {a b : EndpointSegment} (ha : a.WellFormed) (hb : b.WellFormed) :
    a.erased = b.erased ↔ a.shape = b.shape := by
  have hpct : ∀ {seg : EndpointSegment}, seg.WellFormed → seg.literal ≠ utf8 "%\x7b\x7d" := by
    intro seg hseg h
    have hmem : (37 : UInt8) ∈ seg.literal := by rw [h]; decide
    exact not_mem_of_validIdentifier hseg (by decide) (by decide) hmem
  unfold EndpointSegment.erased EndpointSegment.shape
  cases hap : a.param with
  | true =>
    cases hbp : b.param with
    | true => simp
    | false => simpa using fun h => hpct hb h.symm
  | false =>
    cases hbp : b.param with
    | true => simpa using hpct ha
    | false => simp

/-- Equal keys are levels of the same shape, one by one. -/
theorem normalizeEndpoint_inj {segs segs' : List EndpointSegment}
    (h : ∀ seg ∈ segs, seg.WellFormed) (h' : ∀ seg ∈ segs', seg.WellFormed)
    (heq : normalizeEndpoint segs = normalizeEndpoint segs') :
    segs.map EndpointSegment.shape = segs'.map EndpointSegment.shape := by
  have hsplit : ∀ l : List EndpointSegment, (∀ seg ∈ l, seg.WellFormed) →
      (normalizeEndpoint l).splitOn slash = [] :: l.map EndpointSegment.erased := by
    intro l hl
    have hkey : normalizeEndpoint l = [] ++ (l.map EndpointSegment.erased).flatMap fun q => slash :: q := by
      simp [normalizeEndpoint, List.flatMap_map]
    rw [hkey]
    refine splitOn_append_flatMap [] _ List.not_mem_nil ?_
    intro q hq
    obtain ⟨seg, hseg, rfl⟩ := List.mem_map.1 hq
    exact slash_not_mem_erased (hl seg hseg)
  have hmaps : segs.map EndpointSegment.erased = segs'.map EndpointSegment.erased := by
    have := hsplit segs h
    rw [heq, hsplit segs' h', List.cons.injEq] at this
    exact this.2.symm
  clear heq hsplit
  induction segs generalizing segs' with
  | nil =>
    cases segs' with
    | nil => rfl
    | cons b bs => simp at hmaps
  | cons a as ih =>
    cases segs' with
    | nil => simp at hmaps
    | cons b bs =>
      simp only [List.map_cons, List.cons.injEq] at hmaps ⊢
      rw [List.forall_mem_cons] at h h'
      exact ⟨(erased_eq_iff h.1 h'.1).1 hmaps.1, ih h.2 h'.2 hmaps.2⟩

end Astrate.InterfaceSchema
