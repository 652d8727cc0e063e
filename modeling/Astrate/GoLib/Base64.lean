import Astrate.GoLib.Bytes

/-!
# Base64

`base64.StdEncoding.EncodeToString` and the strict decoder `base64.StdEncoding.Strict()`: the standard
alphabet, padding required, the bits the padding leaves over zero, carriage returns and line feeds
ignored. `decodeString_encodeToString` is their round trip, and
`rawURLDecodeString_rawURLEncodeToString` that of the URL alphabet without padding.
-/

set_option autoImplicit false

namespace Astrate.GoLib.Base64

/-- The letter of six bits. -/
def letter (n : Nat) : UInt8 :=
  if n < 26 then UInt8.ofNat (65 + n)
  else if n < 52 then UInt8.ofNat (97 + (n - 26))
  else if n < 62 then UInt8.ofNat (48 + (n - 52))
  else if n = 62 then 43 else 47

/-- The six bits of a letter. -/
def sextet (c : UInt8) : Option Nat :=
  if 65 ≤ c ∧ c ≤ 90 then some (c.toNat - 65)
  else if 97 ≤ c ∧ c ≤ 122 then some (c.toNat - 97 + 26)
  else if 48 ≤ c ∧ c ≤ 57 then some (c.toNat - 48 + 52)
  else if c = 43 then some 62
  else if c = 47 then some 63
  else none

/-- `EncodeToString`. -/
def encodeToString : Bytes → Bytes
  | [] => []
  | [a] => [letter (a.toNat / 4), letter (a.toNat % 4 * 16), 61, 61]
  | [a, b] =>
    [letter (a.toNat / 4), letter (a.toNat % 4 * 16 + b.toNat / 16), letter (b.toNat % 16 * 4), 61]
  | a :: b :: c :: s =>
    letter (a.toNat / 4) :: letter (a.toNat % 4 * 16 + b.toNat / 16) ::
      letter (b.toNat % 16 * 4 + c.toNat / 64) :: letter (c.toNat % 64) :: encodeToString s

/-- A letter of the standard alphabet in the URL alphabet. -/
def urlLetter (c : UInt8) : UInt8 := if c = 43 then 45 else if c = 47 then 95 else c

/-- `base64.RawURLEncoding.EncodeToString`: the URL alphabet, no padding. -/
def rawURLEncodeToString (s : Bytes) : Bytes :=
  ((encodeToString s).filter fun c => c != 61).map urlLetter

/-- One group of four characters; the padding may only close the text. -/
def decodeQuantum (a b c d : UInt8) (last : Bool) : Option Bytes := do
  let v1 ← sextet a
  let v2 ← sextet b
  let b1 := UInt8.ofNat (v1 * 4 + v2 / 16)
  if last && c == 61 && d == 61 then
    -- Strict mode: what the padding cuts off is zero.
    if v2 % 16 = 0 then some [b1] else none
  else do
    let v3 ← sextet c
    let b2 := UInt8.ofNat (v2 % 16 * 16 + v3 / 4)
    if last && d == 61 then
      if v3 % 4 = 0 then some [b1, b2] else none
    else do
      let v4 ← sextet d
      some [b1, b2, UInt8.ofNat (v3 % 4 * 64 + v4)]

/-- Four letters at a time. -/
def decodeQuanta : Bytes → Option Bytes
  | [] => some []
  | a :: b :: c :: d :: s => do
      let group ← decodeQuantum a b c d s.isEmpty
      let rest ← decodeQuanta s
      some (group ++ rest)
  | _ => none

/-- `Strict().DecodeString`. -/
def decodeString (s : Bytes) : Option Bytes := decodeQuanta (s.filter fun c => c != 13 && c != 10)

/-- The six bits of a letter of the URL alphabet. -/
def urlSextet (c : UInt8) : Option Nat :=
  if c = 45 then some 62
  else if c = 95 then some 63
  else if c = 43 ∨ c = 47 then none
  else sextet c

/-- Groups of four letters; the last one may have three or two, with the bits left over zero. -/
def rawURLDecodeQuanta : Bytes → Option Bytes
  | [] => some []
  | [a, b] => do
      let v1 ← urlSextet a
      let v2 ← urlSextet b
      if v2 % 16 = 0 then some [UInt8.ofNat (v1 * 4 + v2 / 16)] else none
  | [a, b, c] => do
      let v1 ← urlSextet a
      let v2 ← urlSextet b
      let v3 ← urlSextet c
      if v3 % 4 = 0 then
        some [UInt8.ofNat (v1 * 4 + v2 / 16), UInt8.ofNat (v2 % 16 * 16 + v3 / 4)]
      else none
  | a :: b :: c :: d :: s => do
      let v1 ← urlSextet a
      let v2 ← urlSextet b
      let v3 ← urlSextet c
      let v4 ← urlSextet d
      let rest ← rawURLDecodeQuanta s
      some (UInt8.ofNat (v1 * 4 + v2 / 16) :: UInt8.ofNat (v2 % 16 * 16 + v3 / 4) ::
        UInt8.ofNat (v3 % 4 * 64 + v4) :: rest)
  | _ => none

/-- `base64.RawURLEncoding.Strict().DecodeString`. -/
def rawURLDecodeString (s : Bytes) : Option Bytes :=
  rawURLDecodeQuanta (s.filter fun c => c != 13 && c != 10)

/-! ## The round trip -/

theorem sextet_letter {n : Nat} (h : n < 64) : sextet (letter n) = some n := by
  have : ∀ n < 64, sextet (letter n) = some n := by decide
  exact this n h

/-- What holds of the letters of the alphabet holds of every letter. -/
theorem letter_rec {P : UInt8 → Prop} (h : ∀ n < 64, P (letter n)) (n : Nat) : P (letter n) := by
  rcases Nat.lt_or_ge n 64 with hn | hn
  · exact h n hn
  · have heq : letter n = letter 63 := by
      rw [letter, if_neg (by omega), if_neg (by omega), if_neg (by omega), if_neg (by omega)]
      rfl
    exact heq ▸ h 63 (by decide)

theorem letter_ne_padding (n : Nat) : (letter n == 61) = false :=
  letter_rec (P := fun c => (c == 61) = false) (by decide) n

theorem quantum_full {n1 n2 n3 n4 : Nat} (h1 : n1 < 64) (h2 : n2 < 64) (h3 : n3 < 64)
    (h4 : n4 < 64) (last : Bool) :
    decodeQuantum (letter n1) (letter n2) (letter n3) (letter n4) last =
      some [UInt8.ofNat (n1 * 4 + n2 / 16), UInt8.ofNat (n2 % 16 * 16 + n3 / 4),
        UInt8.ofNat (n3 % 4 * 64 + n4)] := by
  simp only [decodeQuantum, sextet_letter h1, sextet_letter h2, sextet_letter h3, sextet_letter h4,
    letter_ne_padding, Bool.and_false, Bool.false_eq_true, if_false,
    Option.bind_eq_bind, Option.bind_some]

theorem quantum_two {n1 n2 n3 : Nat} (h1 : n1 < 64) (h2 : n2 < 64) (h3 : n3 < 64) (hzero : n3 % 4 = 0) :
    decodeQuantum (letter n1) (letter n2) (letter n3) 61 true =
      some [UInt8.ofNat (n1 * 4 + n2 / 16), UInt8.ofNat (n2 % 16 * 16 + n3 / 4)] := by
  simp only [decodeQuantum, sextet_letter h1, sextet_letter h2, sextet_letter h3,
    letter_ne_padding, Bool.and_false, Bool.false_and, Bool.false_eq_true, if_false,
    Option.bind_eq_bind, Option.bind_some, BEq.rfl, Bool.and_self, if_true, hzero]

theorem quantum_one {n1 n2 : Nat} (h1 : n1 < 64) (h2 : n2 < 64) (hzero : n2 % 16 = 0) :
    decodeQuantum (letter n1) (letter n2) 61 61 true = some [UInt8.ofNat (n1 * 4 + n2 / 16)] := by
  simp only [decodeQuantum, sextet_letter h1, sextet_letter h2, Option.bind_eq_bind,
    Option.bind_some, BEq.rfl, Bool.and_self, if_true, hzero]

theorem ofNat_eq_of_toNat_eq {a : UInt8} {n : Nat} (h : n = a.toNat) : UInt8.ofNat n = a := by
  rw [h, UInt8.ofNat_toNat]

theorem decodeQuanta_encodeToString (s : Bytes) : decodeQuanta (encodeToString s) = some s := by
  fun_induction encodeToString s with
  | case1 => rfl
  | case2 a =>
    have ha : a.toNat < 256 := a.toNat_lt
    rw [decodeQuanta, List.isEmpty_nil, quantum_one (by omega) (by omega) (by omega),
      @ofNat_eq_of_toNat_eq a _ (by omega)]
    rfl
  | case3 a b =>
    have ha : a.toNat < 256 := a.toNat_lt
    have hb : b.toNat < 256 := b.toNat_lt
    rw [decodeQuanta, List.isEmpty_nil,
      quantum_two (by omega) (by omega) (by omega) (by omega),
      @ofNat_eq_of_toNat_eq a _ (by omega), @ofNat_eq_of_toNat_eq b _ (by omega)]
    rfl
  | case4 a b c s ih =>
    have ha : a.toNat < 256 := a.toNat_lt
    have hb : b.toNat < 256 := b.toNat_lt
    have hc : c.toNat < 256 := c.toNat_lt
    rw [decodeQuanta, quantum_full (by omega) (by omega) (by omega) (by omega), ih,
      @ofNat_eq_of_toNat_eq a _ (by omega), @ofNat_eq_of_toNat_eq b _ (by omega),
      @ofNat_eq_of_toNat_eq c _ (by omega)]
    rfl

/-- The characters of the encoding are letters and the padding. -/
theorem mem_encodeToString {s : Bytes} {x : UInt8} (h : x ∈ encodeToString s) : x = 61 ∨ ∃ n, x = letter n := by
  fun_induction encodeToString s with
  | case1 => cases h
  | case2 a =>
    simp only [List.mem_cons, List.not_mem_nil, or_false] at h
    rcases h with h | h | h | h
    · exact Or.inr ⟨_, h⟩
    · exact Or.inr ⟨_, h⟩
    · exact Or.inl h
    · exact Or.inl h
  | case3 a b =>
    simp only [List.mem_cons, List.not_mem_nil, or_false] at h
    rcases h with h | h | h | h
    · exact Or.inr ⟨_, h⟩
    · exact Or.inr ⟨_, h⟩
    · exact Or.inr ⟨_, h⟩
    · exact Or.inl h
  | case4 a b c s ih =>
    simp only [List.mem_cons] at h
    rcases h with h | h | h | h | h
    · exact Or.inr ⟨_, h⟩
    · exact Or.inr ⟨_, h⟩
    · exact Or.inr ⟨_, h⟩
    · exact Or.inr ⟨_, h⟩
    · exact ih h

/-- The encoding is ASCII without line breaks. -/
theorem encodeToString_ascii {s : Bytes} {x : UInt8} (h : x ∈ encodeToString s) :
    x < 128 ∧ (x != 13 && x != 10) = true := by
  rcases mem_encodeToString h with rfl | ⟨n, rfl⟩
  · decide
  · exact letter_rec (P := fun c => c < 128 ∧ (c != 13 && c != 10) = true) (by decide) n

theorem zero_not_mem_encodeToString (s : Bytes) : 0 ∉ encodeToString s := by
  intro h
  rcases mem_encodeToString h with heq | ⟨n, heq⟩
  · cases heq
  · exact letter_rec (P := fun c => 0 ≠ c) (by decide) n heq

theorem filter_encodeToString (s : Bytes) :
    (encodeToString s).filter (fun c => c != 13 && c != 10) = encodeToString s := by
  rw [List.filter_eq_self]
  exact fun x hx => (encodeToString_ascii hx).2

/-- What is encoded is decoded to itself. -/
theorem decodeString_encodeToString (s : Bytes) : decodeString (encodeToString s) = some s := by
  rw [decodeString, filter_encodeToString, decodeQuanta_encodeToString]

/-! ## The URL alphabet -/

theorem urlSextet_letter {n : Nat} (h : n < 64) : urlSextet (urlLetter (letter n)) = some n := by
  have : ∀ n < 64, urlSextet (urlLetter (letter n)) = some n := by decide
  exact this n h

/-- A letter, a digit, a hyphen or an underscore. -/
def urlByte (c : UInt8) : Bool :=
  (97 ≤ c && c ≤ 122) || (65 ≤ c && c ≤ 90) || (48 ≤ c && c ≤ 57) || c == 45 || c == 95

theorem urlByte_of_mem {s : Bytes} {x : UInt8} (h : x ∈ rawURLEncodeToString s) : urlByte x = true := by
  obtain ⟨y, hy, rfl⟩ := List.mem_map.1 h
  obtain ⟨hy, hne⟩ := List.mem_filter.1 hy
  rcases mem_encodeToString hy with rfl | ⟨n, rfl⟩
  · cases hne
  · exact letter_rec (P := fun c => urlByte (urlLetter c) = true) (by decide) n

theorem rawURLEncode_one (a : UInt8) :
    rawURLEncodeToString [a] = [urlLetter (letter (a.toNat / 4)), urlLetter (letter (a.toNat % 4 * 16))] := by
  simp [rawURLEncodeToString, encodeToString, bne, letter_ne_padding]

theorem rawURLEncode_two (a b : UInt8) :
    rawURLEncodeToString [a, b] =
      [urlLetter (letter (a.toNat / 4)), urlLetter (letter (a.toNat % 4 * 16 + b.toNat / 16)),
        urlLetter (letter (b.toNat % 16 * 4))] := by
  simp [rawURLEncodeToString, encodeToString, bne, letter_ne_padding]

theorem rawURLEncode_three (a b c : UInt8) (s : Bytes) :
    rawURLEncodeToString (a :: b :: c :: s) =
      urlLetter (letter (a.toNat / 4)) :: urlLetter (letter (a.toNat % 4 * 16 + b.toNat / 16)) ::
        urlLetter (letter (b.toNat % 16 * 4 + c.toNat / 64)) :: urlLetter (letter (c.toNat % 64)) ::
          rawURLEncodeToString s := by
  simp [rawURLEncodeToString, encodeToString, bne, letter_ne_padding]

theorem rawURLDecodeQuanta_rawURLEncodeToString (s : Bytes) :
    rawURLDecodeQuanta (rawURLEncodeToString s) = some s := by
  fun_induction encodeToString s with
  | case1 => rfl
  | case2 a =>
    have ha : a.toNat < 256 := a.toNat_lt
    rw [rawURLEncode_one]
    simp only [rawURLDecodeQuanta, urlSextet_letter (show a.toNat / 4 < 64 by omega),
      urlSextet_letter (show a.toNat % 4 * 16 < 64 by omega), Option.bind_eq_bind, Option.bind_some]
    rw [if_pos (by omega), @ofNat_eq_of_toNat_eq a _ (by omega)]
  | case3 a b =>
    have ha : a.toNat < 256 := a.toNat_lt
    have hb : b.toNat < 256 := b.toNat_lt
    rw [rawURLEncode_two]
    simp only [rawURLDecodeQuanta, urlSextet_letter (show a.toNat / 4 < 64 by omega),
      urlSextet_letter (show a.toNat % 4 * 16 + b.toNat / 16 < 64 by omega),
      urlSextet_letter (show b.toNat % 16 * 4 < 64 by omega), Option.bind_eq_bind, Option.bind_some]
    rw [if_pos (by omega), @ofNat_eq_of_toNat_eq a _ (by omega), @ofNat_eq_of_toNat_eq b _ (by omega)]
  | case4 a b c s ih =>
    have ha : a.toNat < 256 := a.toNat_lt
    have hb : b.toNat < 256 := b.toNat_lt
    have hc : c.toNat < 256 := c.toNat_lt
    rw [rawURLEncode_three]
    simp only [rawURLDecodeQuanta, urlSextet_letter (show a.toNat / 4 < 64 by omega),
      urlSextet_letter (show a.toNat % 4 * 16 + b.toNat / 16 < 64 by omega),
      urlSextet_letter (show b.toNat % 16 * 4 + c.toNat / 64 < 64 by omega),
      urlSextet_letter (show c.toNat % 64 < 64 by omega), Option.bind_eq_bind, Option.bind_some, ih]
    rw [@ofNat_eq_of_toNat_eq a _ (by omega), @ofNat_eq_of_toNat_eq b _ (by omega),
      @ofNat_eq_of_toNat_eq c _ (by omega)]

/-- What is encoded without padding is decoded to itself. -/
theorem rawURLDecodeString_rawURLEncodeToString (s : Bytes) :
    rawURLDecodeString (rawURLEncodeToString s) = some s := by
  have hfilter : (rawURLEncodeToString s).filter (fun c => c != 13 && c != 10) =
      rawURLEncodeToString s := by
    rw [List.filter_eq_self]
    intro x hx
    have hx := urlByte_of_mem hx
    by_contra hbreak
    have hcases : x = 13 ∨ x = 10 := by
      by_contra hne
      rw [not_or] at hne
      simp [hne.1, hne.2] at hbreak
    rcases hcases with rfl | rfl <;> exact absurd hx (by decide)
  rw [rawURLDecodeString, hfilter, rawURLDecodeQuanta_rawURLEncodeToString]

/-- Four letters for three octets. -/
theorem length_rawURLEncodeToString (s : Bytes) : (rawURLEncodeToString s).length = (s.length * 4 + 2) / 3 := by
  fun_induction encodeToString s with
  | case1 => rfl
  | case2 a =>
    rw [rawURLEncode_one]
    simp only [List.length_cons, List.length_nil]
  | case3 a b =>
    rw [rawURLEncode_two]
    simp only [List.length_cons, List.length_nil]
  | case4 a b c s ih =>
    rw [rawURLEncode_three]
    simp only [List.length_cons, ih]
    omega

theorem urlSextet_eq_some {c : UInt8} {v : Nat} (h : urlSextet c = some v) :
    v < 64 ∧ urlLetter (letter v) = c := by
  have hall : ∀ n < 256, ∀ v ∈ urlSextet (UInt8.ofNat n),
      v < 64 ∧ urlLetter (letter v) = UInt8.ofNat n := by
    decide +kernel
  have hc : UInt8.ofNat c.toNat = c := UInt8.ofNat_toNat
  rw [← hc] at h ⊢
  exact hall c.toNat c.toNat_lt v h

theorem toNat_ofNat_of_lt {n : Nat} (h : n < 256) : (UInt8.ofNat n).toNat = n := by
  rw [UInt8.toNat_ofNat', Nat.mod_eq_of_lt (by simpa using h)]

/-- Strict decoding accepts nothing but what encoding gives. -/
theorem rawURLEncodeToString_of_decode {t : Bytes} :
    ∀ {s : Bytes}, rawURLDecodeQuanta t = some s → rawURLEncodeToString s = t := by
  fun_induction rawURLDecodeQuanta t with
  | case1 =>
    intro s h
    cases h
    rfl
  | case2 a b =>
    intro s h
    simp only [Option.bind_eq_bind, Option.bind_eq_some_iff] at h
    obtain ⟨v1, h1, v2, h2, h⟩ := h
    split_ifs at h with hzero
    cases h
    obtain ⟨hlt1, hl1⟩ := urlSextet_eq_some h1
    obtain ⟨hlt2, hl2⟩ := urlSextet_eq_some h2
    rw [rawURLEncode_one, toNat_ofNat_of_lt (by omega), ← hl1, ← hl2]
    have e1 : (v1 * 4 + v2 / 16) / 4 = v1 := by omega
    have e2 : (v1 * 4 + v2 / 16) % 4 * 16 = v2 := by omega
    rw [e1, e2]
  | case3 a b c =>
    intro s h
    simp only [Option.bind_eq_bind, Option.bind_eq_some_iff] at h
    obtain ⟨v1, h1, v2, h2, v3, h3, h⟩ := h
    split_ifs at h with hzero
    cases h
    obtain ⟨hlt1, hl1⟩ := urlSextet_eq_some h1
    obtain ⟨hlt2, hl2⟩ := urlSextet_eq_some h2
    obtain ⟨hlt3, hl3⟩ := urlSextet_eq_some h3
    rw [rawURLEncode_two, toNat_ofNat_of_lt (by omega), toNat_ofNat_of_lt (by omega), ← hl1, ← hl2, ← hl3]
    have e1 : (v1 * 4 + v2 / 16) / 4 = v1 := by omega
    have e2 : (v1 * 4 + v2 / 16) % 4 * 16 + (v2 % 16 * 16 + v3 / 4) / 16 = v2 := by omega
    have e3 : (v2 % 16 * 16 + v3 / 4) % 16 * 4 = v3 := by omega
    rw [e1, e2, e3]
  | case4 a b c d rest ih =>
    intro s h
    simp only [Option.bind_eq_bind, Option.bind_eq_some_iff] at h
    obtain ⟨v1, h1, v2, h2, v3, h3, v4, h4, s', hs', h⟩ := h
    cases h
    obtain ⟨hlt1, hl1⟩ := urlSextet_eq_some h1
    obtain ⟨hlt2, hl2⟩ := urlSextet_eq_some h2
    obtain ⟨hlt3, hl3⟩ := urlSextet_eq_some h3
    obtain ⟨hlt4, hl4⟩ := urlSextet_eq_some h4
    rw [rawURLEncode_three, toNat_ofNat_of_lt (by omega), toNat_ofNat_of_lt (by omega),
      toNat_ofNat_of_lt (by omega), ih hs', ← hl1, ← hl2, ← hl3, ← hl4]
    have e1 : (v1 * 4 + v2 / 16) / 4 = v1 := by omega
    have e2 : (v1 * 4 + v2 / 16) % 4 * 16 + (v2 % 16 * 16 + v3 / 4) / 16 = v2 := by omega
    have e3 : (v2 % 16 * 16 + v3 / 4) % 16 * 4 + (v3 % 4 * 64 + v4) / 64 = v3 := by omega
    have e4 : (v3 % 4 * 64 + v4) % 64 = v4 := by omega
    rw [e1, e2, e3, e4]
  | case5 =>
    intro s h
    cases h

end Astrate.GoLib.Base64
