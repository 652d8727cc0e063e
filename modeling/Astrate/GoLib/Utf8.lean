import Astrate.GoLib.Bytes

/-!
# UTF-8

The part of Go's `unicode/utf8` the codecs rely on: recognition of one encoded rune at the head of
an octet string (`runeLen`, the size `DecodeRune` reports when it does not report an error),
validity of a whole string (`validString`) and the encoding of one rune (`encodeRune`).

A rune is recognised from its own octets only (`runeLen_take`, `runeLen_append`), so a valid string is a
sequence of recognised runes (`ValidUtf8`, `validString_iff`); the codecs are proved by induction on
that sequence.
-/

set_option autoImplicit false

namespace Astrate.GoLib

/-- An octet in a range. -/
def octetIn (lo hi b : UInt8) : Bool := lo ≤ b && b ≤ hi

/-- The second octet of a rune of three octets: no overlong form below U+0800, no surrogate. -/
def secondOfThree (b0 b1 : UInt8) : Bool :=
  octetIn (if b0 = 0xE0 then 0xA0 else 0x80) (if b0 = 0xED then 0x9F else 0xBF) b1

/-- The second octet of a rune of four octets: no overlong form below U+10000, nothing above
U+10FFFF. -/
def secondOfFour (b0 b1 : UInt8) : Bool :=
  octetIn (if b0 = 0xF0 then 0x90 else 0x80) (if b0 = 0xF4 then 0x8F else 0xBF) b1

/-- The number of octets of the rune encoded at the head of the string; `none` where
`utf8.DecodeRune` returns `RuneError`. -/
def runeLen : Bytes → Option Nat
  | [] => none
  | b0 :: t =>
    if b0 < 0x80 then some 1
    else if octetIn 0xC2 0xDF b0 then
      match t with
      | b1 :: _ => if octetIn 0x80 0xBF b1 then some 2 else none
      | _ => none
    else if octetIn 0xE0 0xEF b0 then
      match t with
      | b1 :: b2 :: _ => if secondOfThree b0 b1 && octetIn 0x80 0xBF b2 then some 3 else none
      | _ => none
    else if octetIn 0xF0 0xF4 b0 then
      match t with
      | b1 :: b2 :: b3 :: _ =>
        if secondOfFour b0 b1 && octetIn 0x80 0xBF b2 && octetIn 0x80 0xBF b3 then some 4
        else none
      | _ => none
    else none

/-- The loop of `utf8.ValidString`; each pass takes a rune off. -/
def validLoop : Nat → Bytes → Bool
  | _, [] => true
  | 0, _ :: _ => false
  | fuel + 1, b :: t =>
    match runeLen (b :: t) with
    | some n => validLoop fuel ((b :: t).drop n)
    | none => false

/-- `utf8.ValidString`. -/
def validString (s : Bytes) : Bool := validLoop s.length s

/-- The octets of U+FFFD, the replacement for what is not a rune. -/
def replacementRune : Bytes := [0xEF, 0xBF, 0xBD]

/-- `utf8.AppendRune`. -/
def encodeRune (r : Nat) : Bytes :=
  if r < 0x80 then [UInt8.ofNat r]
  else if r < 0x800 then [UInt8.ofNat (0xC0 + r / 64), UInt8.ofNat (0x80 + r % 64)]
  else if 0xD800 ≤ r ∧ r ≤ 0xDFFF then replacementRune
  else if r < 0x10000 then
    [UInt8.ofNat (0xE0 + r / 4096), UInt8.ofNat (0x80 + r / 64 % 64), UInt8.ofNat (0x80 + r % 64)]
  else if r ≤ 0x10FFFF then
    [UInt8.ofNat (0xF0 + r / 262144), UInt8.ofNat (0x80 + r / 4096 % 64),
      UInt8.ofNat (0x80 + r / 64 % 64), UInt8.ofNat (0x80 + r % 64)]
  else replacementRune

/-! ## Runes of a string -/

/-- What a recognised rune tells: it is a prefix of one to four octets, and it is recognised before
any other continuation as well. -/
theorem runeLen_spec {s : Bytes} {n : Nat} (h : runeLen s = some n) :
    0 < n ∧ n ≤ s.length ∧ ∀ rest, runeLen (s.take n ++ rest) = some n := by
  cases s with
  | nil => simp [runeLen] at h
  | cons b0 t =>
    by_cases h1 : b0 < 0x80
    · simp only [runeLen, h1, if_true, Option.some.injEq] at h
      subst h
      simp [runeLen, h1]
    by_cases h2 : octetIn 0xC2 0xDF b0 = true
    · match t, h with
      | [], h => simp [runeLen, h1, h2] at h
      | b1 :: _, h =>
        simp only [runeLen, h1, h2, if_false, if_true] at h
        split_ifs at h with hc
        rw [Option.some.injEq] at h
        subst h
        simp [runeLen, h1, h2, hc]
    by_cases h3 : octetIn 0xE0 0xEF b0 = true
    · match t, h with
      | [], h => simp [runeLen, h1, h2, h3] at h
      | [_], h => simp [runeLen, h1, h2, h3] at h
      | b1 :: b2 :: _, h =>
        simp only [runeLen, h1, h2, h3, if_false, if_true, Bool.false_eq_true] at h
        split_ifs at h with hc
        rw [Option.some.injEq] at h
        subst h
        refine ⟨by decide, by simp, fun rest => ?_⟩
        simp only [List.take_succ_cons, List.take_zero, List.cons_append, List.nil_append,
          runeLen, h1, h2, h3, hc, if_false, if_true, Bool.false_eq_true]
    by_cases h4 : octetIn 0xF0 0xF4 b0 = true
    · match t, h with
      | [], h => simp [runeLen, h1, h2, h3, h4] at h
      | [_], h => simp [runeLen, h1, h2, h3, h4] at h
      | [_, _], h => simp [runeLen, h1, h2, h3, h4] at h
      | b1 :: b2 :: b3 :: _, h =>
        simp only [runeLen, h1, h2, h3, h4, if_false, if_true, Bool.false_eq_true] at h
        split_ifs at h with hc
        rw [Option.some.injEq] at h
        subst h
        refine ⟨by decide, by simp, fun rest => ?_⟩
        simp only [List.take_succ_cons, List.take_zero, List.cons_append, List.nil_append,
          runeLen, h1, h2, h3, h4, hc, if_false, if_true, Bool.false_eq_true]
    · simp [runeLen, h1, h2, h3, h4] at h

/-- A string that is a sequence of encoded runes. -/
inductive ValidUtf8 : Bytes → Prop where
  | nil : ValidUtf8 []
  | rune (r rest : Bytes) (hr : runeLen r = some r.length) (hrest : ValidUtf8 rest) :
      ValidUtf8 (r ++ rest)

/-- The rune at the head of a string, split off. -/
theorem runeLen_take {s : Bytes} {n : Nat} (h : runeLen s = some n) :
    runeLen (s.take n) = some (s.take n).length := by
  obtain ⟨-, hle, happ⟩ := runeLen_spec h
  have := happ []
  rw [List.append_nil] at this
  rw [this, List.length_take, Nat.min_eq_left hle]

/-- A rune is recognised before any continuation. -/
theorem runeLen_append {r : Bytes} (hr : runeLen r = some r.length) (rest : Bytes) :
    runeLen (r ++ rest) = some r.length := by
  obtain ⟨-, -, happ⟩ := runeLen_spec hr
  simpa using happ rest

theorem rune_ne_nil {r : Bytes} (hr : runeLen r = some r.length) : r ≠ [] := by
  rintro rfl
  simp [runeLen] at hr

theorem validLoop_iff : ∀ (fuel : Nat) (s : Bytes), s.length ≤ fuel →
    (validLoop fuel s = true ↔ ValidUtf8 s) := by
  intro fuel
  induction fuel with
  | zero =>
    intro s hs
    have : s = [] := List.length_eq_zero_iff.1 (Nat.le_zero.1 hs)
    subst this
    simp [validLoop, ValidUtf8.nil]
  | succ fuel ih =>
    intro s hs
    cases s with
    | nil => simp [validLoop, ValidUtf8.nil]
    | cons b t =>
      constructor
      · intro h
        cases hn : runeLen (b :: t) with
        | none => simp [validLoop, hn] at h
        | some n =>
          simp only [validLoop, hn] at h
          obtain ⟨hpos, -, -⟩ := runeLen_spec hn
          have hrest : ValidUtf8 ((b :: t).drop n) := by
            refine (ih _ ?_).1 h
            rw [List.length_drop]
            omega
          have := ValidUtf8.rune _ _ (runeLen_take hn) hrest
          rwa [List.take_append_drop] at this
      · intro h
        generalize hl : b :: t = l at h hs
        cases h with
        | nil => simp at hl
        | rune r rest hr hrest =>
          have hpos : 0 < r.length := List.length_pos_iff.2 (rune_ne_nil hr)
          rw [← hl, validLoop, hl, runeLen_append hr]
          simp only [List.drop_left]
          refine (ih rest ?_).2 hrest
          rw [List.length_append] at hs
          omega

/-- `utf8.ValidString` recognises the sequences of encoded runes. -/
theorem validString_iff (s : Bytes) : validString s = true ↔ ValidUtf8 s :=
  validLoop_iff s.length s (Nat.le_refl _)

/-- A string of octets below `0x80` is valid. -/
theorem validUtf8_of_ascii {s : Bytes} (h : ∀ b ∈ s, b < 0x80) : ValidUtf8 s := by
  induction s with
  | nil => exact .nil
  | cons b t ih =>
    rw [List.forall_mem_cons] at h
    exact .rune [b] t (by simp [runeLen, h.1]) (ih h.2)

example : validString (utf8 "é€") = true := by decide

end Astrate.GoLib
