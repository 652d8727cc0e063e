import Astrate.GoLib.Utf8

/-!
# JSON string literals

Quoting and unquoting of strings as `encoding/json` does it. `skipString` is the scanner's part: it
finds the closing quote. `unquote` then resolves the escapes of the literal's body, replacing what is
not UTF-8 and unpaired surrogates by U+FFFD. `quote` writes a string, escaping control characters,
the quote and the backslash, the HTML characters on demand, and the two line separators U+2028 and
U+2029.

`skipString_quoteBody` and `unquote_quote` are the round trip: the scanner stops exactly at the
end of a written literal, and the literal of a valid UTF-8 string is read back as that string.
-/

set_option autoImplicit false

namespace Astrate.GoLib.Json

open Astrate.GoLib

/-! ## Scanning -/

/-- The scanner's states inside a string literal; `hex k` awaits `k + 1` hexadecimal digits. -/
inductive StringState where
  | body
  | esc
  | hex (k : Nat)
  deriving DecidableEq, Repr

/-- A hexadecimal digit. -/
def isHex (c : UInt8) : Bool :=
  octetIn 48 57 c || octetIn 97 102 c || octetIn 65 70 c

/-- Skip the rest of a string literal; the result starts after the closing quote. -/
def skipString : StringState → Bytes → Option Bytes
  | _, [] => none
  | .body, c :: cs =>
    if c = 34 then some cs
    else if c = 92 then skipString .esc cs
    else if c < 0x20 then none
    else skipString .body cs
  | .esc, c :: cs =>
    if c = 117 then skipString (.hex 3) cs
    else if [98, 102, 110, 114, 116, 92, 47, 34].contains c then skipString .body cs
    else none
  | .hex 0, c :: cs => if isHex c then skipString .body cs else none
  | .hex (k + 1), c :: cs => if isHex c then skipString (.hex k) cs else none

/-! ## Unquoting -/

/-- The octet a one-letter escape stands for. -/
def unescape (c : UInt8) : Option UInt8 :=
  if c = 98 then some 8
  else if c = 102 then some 12
  else if c = 110 then some 10
  else if c = 114 then some 13
  else if c = 116 then some 9
  else if [34, 92, 47, 39].contains c then some c
  else none

/-- The value of a hexadecimal digit. -/
def hexVal (c : UInt8) : Option Nat :=
  if octetIn 48 57 c then some (c.toNat - 48)
  else if octetIn 97 102 c then some (c.toNat - 87)
  else if octetIn 65 70 c then some (c.toNat - 55)
  else none

/-- The code unit written by four hexadecimal digits (`getu4` behind `\u`). -/
def hex4 : Bytes → Option Nat
  | a :: b :: c :: d :: _ => do
      let a ← hexVal a
      let b ← hexVal b
      let c ← hexVal c
      let d ← hexVal d
      some (((a * 16 + b) * 16 + c) * 16 + d)
  | _ => none

/-- The second half of a surrogate pair, written as a further `\u` escape. -/
def lowSurrogate : Bytes → Option Nat
  | 92 :: 117 :: t => (hex4 t).filter fun r => 0xDC00 ≤ r && r ≤ 0xDFFF
  | _ => none

/-- The loop of `unquoteBytes` over the body of a literal. Each pass takes an octet at least. -/
def unquoteLoop : Nat → Bytes → Option Bytes
  | _, [] => some []
  | 0, _ :: _ => none
  | fuel + 1, c :: cs =>
    if c = 92 then
      match cs with
      | [] => none
      | e :: es =>
        if e = 117 then do
          let r ← hex4 es
          let es := es.drop 4
          if 0xD800 ≤ r ∧ r ≤ 0xDFFF then
            match if r < 0xDC00 then lowSurrogate es else none with
            | some low => do
                let t ← unquoteLoop fuel (es.drop 6)
                some (encodeRune (0x10000 + (r - 0xD800) * 1024 + (low - 0xDC00)) ++ t)
            | none => do
                let t ← unquoteLoop fuel es
                some (replacementRune ++ t)
          else do
            let t ← unquoteLoop fuel es
            some (encodeRune r ++ t)
        else do
          let b ← unescape e
          let t ← unquoteLoop fuel es
          some (b :: t)
    else if c = 34 ∨ c < 0x20 then none
    else
      match runeLen (c :: cs) with
      | some n => do
          let t ← unquoteLoop fuel ((c :: cs).drop n)
          some ((c :: cs).take n ++ t)
      | none => do
          let t ← unquoteLoop fuel cs
          some (replacementRune ++ t)

/-- `unquote`: the string a literal stands for. -/
def unquote (raw : Bytes) : Option Bytes :=
  if raw.length < 2 ∨ raw.head? ≠ some 34 ∨ raw.getLast? ≠ some 34 then none
  else
    let body := raw.tail.dropLast
    unquoteLoop body.length body

/-! ## Quoting -/

/-- A hexadecimal digit as `encoding/json` writes it. -/
def hexDigit (n : Nat) : UInt8 := if n < 10 then UInt8.ofNat (48 + n) else UInt8.ofNat (87 + n)

/-- An ASCII octet that is written as it is (`safeSet`, and `htmlSafeSet` with `escapeHTML`). -/
def safeByte (escapeHTML : Bool) (b : UInt8) : Bool :=
  decide (0x20 ≤ b) && b != 34 && b != 92 && !(escapeHTML && (b == 60 || b == 62 || b == 38))

/-- An ASCII octet inside a literal. -/
def quoteByte (escapeHTML : Bool) (b : UInt8) : Bytes :=
  if safeByte escapeHTML b then [b]
  else if b = 92 ∨ b = 34 then [92, b]
  else if b = 8 then [92, 98]
  else if b = 12 then [92, 102]
  else if b = 10 then [92, 110]
  else if b = 13 then [92, 114]
  else if b = 9 then [92, 116]
  else [92, 117, 48, 48, hexDigit (b.toNat / 16), hexDigit (b.toNat % 16)]

/-- A rune of several octets inside a literal: U+2028 and U+2029 are escaped. -/
def quoteRune (r : Bytes) : Bytes :=
  if r = [0xE2, 0x80, 0xA8] then utf8 "\\u2028"
  else if r = [0xE2, 0x80, 0xA9] then utf8 "\\u2029"
  else r

/-- The loop of `appendString`. -/
def quoteLoop (escapeHTML : Bool) : Nat → Bytes → Bytes
  | _, [] => []
  | 0, _ :: _ => []
  | fuel + 1, b :: t =>
    if b < 0x80 then quoteByte escapeHTML b ++ quoteLoop escapeHTML fuel t
    else
      match runeLen (b :: t) with
      | some n => quoteRune ((b :: t).take n) ++ quoteLoop escapeHTML fuel ((b :: t).drop n)
      | none => utf8 "\\ufffd" ++ quoteLoop escapeHTML fuel t

/-- The body of the literal of a string. -/
def quoteBody (escapeHTML : Bool) (s : Bytes) : Bytes := quoteLoop escapeHTML s.length s

/-- The literal of a string. -/
def quote (escapeHTML : Bool) (s : Bytes) : Bytes := 34 :: quoteBody escapeHTML s ++ [34]

/-! ## Round trip -/

theorem hexVal_hexDigit : ∀ d < 16, hexVal (hexDigit d) = some d := by decide

theorem isHex_hexDigit : ∀ d < 16, isHex (hexDigit d) = true := by decide

/-- Octets of a rune that does not start with an ASCII octet are outside ASCII. -/
theorem rune_not_ascii {b : UInt8} {t : Bytes} (hr : runeLen (b :: t) = some (b :: t).length)
    (hb : ¬ b < 0x80) : ∀ c ∈ b :: t, ¬ c < 0x80 := by
  have hcont : ∀ {lo hi c : UInt8}, ¬ lo < 0x80 → octetIn lo hi c = true → ¬ c < 0x80 := by
    intro lo hi c hlo hc
    simp only [octetIn, Bool.and_eq_true, decide_eq_true_eq] at hc
    simp only [UInt8.lt_iff_toNat_lt, UInt8.le_iff_toNat_le] at *
    omega
  have h3 : ∀ {b1 : UInt8}, secondOfThree b b1 = true → ¬ b1 < 0x80 := by
    intro b1 h
    exact hcont (by split <;> decide) h
  have h4 : ∀ {b1 : UInt8}, secondOfFour b b1 = true → ¬ b1 < 0x80 := by
    intro b1 h
    exact hcont (by split <;> decide) h
  have h80 : ∀ {c : UInt8}, octetIn 0x80 0xBF c = true → ¬ c < 0x80 := fun h =>
    hcont (by decide) h
  intro c hc
  rcases List.mem_cons.1 hc with rfl | hc
  · exact hb
  obtain ⟨b1, t, rfl⟩ := List.exists_cons_of_ne_nil (List.ne_nil_of_mem hc)
  -- The first octet fixes the length, and with it the octets that follow.
  by_cases h2' : octetIn 0xC2 0xDF b = true
  · simp only [runeLen, hb, h2', if_false, if_true, List.length_cons] at hr
    split_ifs at hr with h
    have hnil : t = [] := by simpa using hr
    subst hnil
    rw [List.mem_singleton] at hc
    exact h80 (hc ▸ h)
  by_cases h3' : octetIn 0xE0 0xEF b = true
  · cases t with
    | nil => simp [runeLen, hb, h2', h3'] at hr
    | cons b2 t =>
      simp only [runeLen, hb, h2', h3', if_false, if_true, List.length_cons, Bool.false_eq_true] at hr
      split_ifs at hr with h
      have hnil : t = [] := by simpa using hr
      subst hnil
      rw [Bool.and_eq_true] at h
      simp only [List.mem_cons, List.not_mem_nil, or_false] at hc
      rcases hc with rfl | rfl
      · exact h3 h.1
      · exact h80 h.2
  by_cases h4' : octetIn 0xF0 0xF4 b = true
  · rcases t with _ | ⟨b2, _ | ⟨b3, t⟩⟩
    · simp [runeLen, hb, h2', h3', h4'] at hr
    · simp [runeLen, hb, h2', h3', h4'] at hr
    · simp only [runeLen, hb, h2', h3', h4', if_false, if_true, List.length_cons, Bool.false_eq_true] at hr
      split_ifs at hr with h
      have hnil : t = [] := by simpa using hr
      subst hnil
      rw [Bool.and_eq_true, Bool.and_eq_true] at h
      simp only [List.mem_cons, List.not_mem_nil, or_false] at hc
      rcases hc with rfl | rfl | rfl
      · exact h4 h.1.1
      · exact h80 h.1.2
      · exact h80 h.2
  · simp [runeLen, hb, h2', h3', h4'] at hr

variable {r : Bytes}

/-- A rune is an ASCII octet, or has no ASCII octet in it. -/
theorem rune_cases (hr : runeLen r = some r.length) : (∃ b, b < 0x80 ∧ r = [b]) ∨ ∀ c ∈ r, ¬ c < 0x80 := by
  obtain ⟨b, r', rfl⟩ := List.exists_cons_of_ne_nil (rune_ne_nil hr)
  by_cases hb : b < 0x80
  · have hnil : r' = [] := by simpa [runeLen, hb, eq_comm] using hr
    exact Or.inl ⟨b, hb, by rw [hnil]⟩
  · exact Or.inr (rune_not_ascii hr hb)

/-- The text of one rune inside a literal. -/
def quotePiece (escapeHTML : Bool) (r : Bytes) : Bytes :=
  match r with
  | b :: _ => if b < 0x80 then quoteByte escapeHTML b else quoteRune r
  | [] => []

theorem quotePiece_ascii (escapeHTML : Bool) {b : UInt8} (hb : b < 0x80) :
    quotePiece escapeHTML [b] = quoteByte escapeHTML b := by
  simp [quotePiece, hb]

theorem quotePiece_not_ascii (escapeHTML : Bool) (hr : runeLen r = some r.length)
    (h : ∀ c ∈ r, ¬ c < 0x80) : quotePiece escapeHTML r = quoteRune r := by
  obtain ⟨b, r', rfl⟩ := List.exists_cons_of_ne_nil (rune_ne_nil hr)
  simp [quotePiece, h b List.mem_cons_self]

/-- A pass of the quoting loop over a rune. -/
theorem quoteLoop_rune (hr : runeLen r = some r.length) (escapeHTML : Bool) (fuel : Nat) (t : Bytes) :
    quoteLoop escapeHTML (fuel + 1) (r ++ t) = quotePiece escapeHTML r ++ quoteLoop escapeHTML fuel t := by
  rcases rune_cases hr with ⟨b, hb, rfl⟩ | hna
  · simp [quoteLoop, quotePiece, hb]
  · rw [quotePiece_not_ascii escapeHTML hr hna]
    have hrt := runeLen_append hr t
    obtain ⟨b, r', rfl⟩ := List.exists_cons_of_ne_nil (rune_ne_nil hr)
    simp only [List.cons_append] at hrt
    simp only [List.cons_append, quoteLoop, hna b List.mem_cons_self, if_false, hrt]
    rw [← List.cons_append, List.take_left, List.drop_left]

theorem not_ascii_spec {c : UInt8} (h : ¬ c < 0x80) : c ≠ 34 ∧ c ≠ 92 ∧ ¬ c < 0x20 := by
  refine ⟨?_, ?_, fun h20 => h ?_⟩
  · rintro rfl
    exact h (by decide)
  · rintro rfl
    exact h (by decide)
  · exact Nat.lt_trans h20 (by decide)

/-- Octets outside ASCII neither end a literal nor start an escape. -/
theorem skipString_not_ascii (hr : ∀ c ∈ r, ¬ c < 0x80) (t : Bytes) :
    skipString .body (r ++ t) = skipString .body t := by
  induction r with
  | nil => rfl
  | cons c cs ih =>
    rw [List.forall_mem_cons] at hr
    obtain ⟨h34, h92, h20⟩ := not_ascii_spec hr.1
    simp only [List.cons_append, skipString, h34, h92, h20, if_false]
    exact ih hr.2

/-- An octet written as it is. -/
theorem safeByte_spec {escapeHTML : Bool} {b : UInt8} (h : safeByte escapeHTML b = true) :
    b ≠ 34 ∧ b ≠ 92 ∧ ¬ b < 0x20 := by
  simp only [safeByte, Bool.and_eq_true, bne_iff_ne, ne_eq, decide_eq_true_eq] at h
  obtain ⟨⟨⟨h20, h34⟩, h92⟩, -⟩ := h
  exact ⟨h34, h92, UInt8.not_lt.2 h20⟩

/-- The escape of an ASCII octet that has no one-letter escape. -/
theorem hex4_escape (b : UInt8) (t : Bytes) :
    hex4 (48 :: 48 :: hexDigit (b.toNat / 16) :: hexDigit (b.toNat % 16) :: t) = some b.toNat := by
  have hlt : b.toNat < 256 := b.toNat_lt
  have h0 : hexVal 48 = some 0 := by decide
  have h1 := hexVal_hexDigit (b.toNat / 16) (by omega)
  have h2 := hexVal_hexDigit (b.toNat % 16) (by omega)
  simp only [hex4, h0, h1, h2, Option.bind_eq_bind, Option.bind_some, Option.some.injEq]
  omega

theorem skipString_quoteByte (escapeHTML : Bool) (b : UInt8) (t : Bytes) :
    skipString .body (quoteByte escapeHTML b ++ t) = skipString .body t := by
  unfold quoteByte
  split_ifs with hsafe hq h8 h12 h10 h13 h9
  · obtain ⟨h34, h92, h20⟩ := safeByte_spec hsafe
    simp [skipString, h34, h92, h20]
  · rcases hq with rfl | rfl <;> simp [skipString]
  · simp [skipString]
  · simp [skipString]
  · simp [skipString]
  · simp [skipString]
  · simp [skipString]
  · have hlt : b.toNat < 256 := b.toNat_lt
    have h1 := isHex_hexDigit (b.toNat / 16) (by omega)
    have h2 := isHex_hexDigit (b.toNat % 16) (by omega)
    have h0 : isHex 48 = true := by decide
    simp [skipString, h0, h1, h2]

theorem unquoteLoop_quoteByte (escapeHTML : Bool) {b : UInt8} (hb : b < 0x80) (fuel : Nat) (t : Bytes) :
    unquoteLoop (fuel + 1) (quoteByte escapeHTML b ++ t) = (unquoteLoop fuel t).map ([b] ++ ·) := by
  -- an escape of one letter
  have hletter {c : UInt8} (hc : c ≠ 117) (h : unescape c = some b) :
      unquoteLoop (fuel + 1) (92 :: c :: t) = (unquoteLoop fuel t).map ([b] ++ ·) := by
    simp only [unquoteLoop, if_true, hc, if_false, h]
    cases unquoteLoop fuel t <;> rfl
  unfold quoteByte
  split_ifs with hsafe hq h8 h12 h10 h13 h9
  · obtain ⟨h34, h92, h20⟩ := safeByte_spec hsafe
    have hlen : runeLen (b :: t) = some 1 := by simp [runeLen, hb]
    simp only [List.cons_append, List.nil_append, unquoteLoop, h92, h34, h20, or_self, if_false,
      hlen, List.drop_succ_cons, List.drop_zero, List.take_succ_cons, List.take_zero]
    cases unquoteLoop fuel t <;> rfl
  · rcases hq with rfl | rfl <;> exact hletter (by decide) (by decide)
  · subst h8
    exact hletter (by decide) rfl
  · subst h12
    exact hletter (by decide) rfl
  · subst h10
    exact hletter (by decide) rfl
  · subst h13
    exact hletter (by decide) rfl
  · subst h9
    exact hletter (by decide) rfl
  · have hlt : b.toNat < 128 := UInt8.lt_iff_toNat_lt.1 hb
    have hsur : ¬ (0xD800 ≤ b.toNat ∧ b.toNat ≤ 0xDFFF) := by omega
    have henc : encodeRune b.toNat = [b] := by simp [encodeRune, hlt]
    simp only [List.cons_append, List.nil_append, unquoteLoop, if_true, hex4_escape,
      Option.bind_eq_bind, Option.bind_some, hsur, if_false, henc, List.drop_succ_cons,
      List.drop_zero]
    cases unquoteLoop fuel t <;> rfl

section

variable (hr : runeLen r = some r.length)

include hr

theorem skipString_quotePiece (escapeHTML : Bool)
    (t : Bytes) : skipString .body (quotePiece escapeHTML r ++ t) = skipString .body t := by
  rcases rune_cases hr with ⟨b, hb, rfl⟩ | hna
  · rw [quotePiece_ascii escapeHTML hb, skipString_quoteByte]
  · rw [quotePiece_not_ascii escapeHTML hr hna, quoteRune]
    split_ifs with h1 h2
    · rfl
    · rfl
    · exact skipString_not_ascii hna t

/-- A rune whose octets are copied. -/
theorem unquoteLoop_rune (hna : ∀ c ∈ r, ¬ c < 0x80) (fuel : Nat) (t : Bytes) :
    unquoteLoop (fuel + 1) (r ++ t) = (unquoteLoop fuel t).map (r ++ ·) := by
  have hrt := runeLen_append hr t
  obtain ⟨b, r', rfl⟩ := List.exists_cons_of_ne_nil (rune_ne_nil hr)
  obtain ⟨h34, h92, h20⟩ := not_ascii_spec (hna b List.mem_cons_self)
  simp only [List.cons_append] at hrt
  simp only [List.cons_append, unquoteLoop, h92, h34, h20, or_self, if_false, hrt]
  rw [← List.cons_append, List.take_left, List.drop_left]
  cases unquoteLoop fuel t <;> rfl

theorem unquoteLoop_quotePiece (escapeHTML : Bool) (fuel : Nat) (t : Bytes) :
    unquoteLoop (fuel + 1) (quotePiece escapeHTML r ++ t) = (unquoteLoop fuel t).map (r ++ ·) := by
  rcases rune_cases hr with ⟨b, hb, rfl⟩ | hna
  · rw [quotePiece_ascii escapeHTML hb, unquoteLoop_quoteByte escapeHTML hb]
  · rw [quotePiece_not_ascii escapeHTML hr hna, quoteRune]
    split_ifs with h1 h2
    · subst h1
      show (unquoteLoop fuel t).bind _ = _
      cases unquoteLoop fuel t <;> rfl
    · subst h2
      show (unquoteLoop fuel t).bind _ = _
      cases unquoteLoop fuel t <;> rfl
    · exact unquoteLoop_rune hr hna fuel t

/-- Every rune leaves something in the literal. -/
theorem quotePiece_length_pos (escapeHTML : Bool) : 0 < (quotePiece escapeHTML r).length := by
  rcases rune_cases hr with ⟨b, hb, rfl⟩ | hna
  · rw [quotePiece_ascii escapeHTML hb]
    unfold quoteByte
    split_ifs <;> simp
  · rw [quotePiece_not_ascii escapeHTML hr hna, quoteRune]
    split_ifs
    · decide
    · decide
    · exact List.length_pos_iff.2 (rune_ne_nil hr)

end

/-- The literal of a valid string, rune by rune: what a property of the runes gives for the whole. -/
theorem quoteLoop_valid {s : Bytes} (hs : ValidUtf8 s) (escapeHTML : Bool) :
    (∀ fuel, s.length ≤ fuel → ∀ t,
      skipString .body (quoteLoop escapeHTML fuel s ++ t) = skipString .body t) ∧
    ∀ fuel, s.length ≤ fuel → ∀ fuel', (quoteLoop escapeHTML fuel s).length ≤ fuel' →
      unquoteLoop fuel' (quoteLoop escapeHTML fuel s) = some s := by
  induction hs with
  | nil =>
    constructor
    · intro fuel _ t
      cases fuel <;> rfl
    · intro fuel _ fuel' _
      cases fuel <;> cases fuel' <;> rfl
  | rune r rest hr _ ih =>
    have hpos : 0 < r.length := List.length_pos_iff.2 (rune_ne_nil hr)
    constructor
    · intro fuel hfuel t
      rw [List.length_append] at hfuel
      obtain ⟨fuel, rfl⟩ : ∃ k, fuel = k + 1 := ⟨fuel - 1, by omega⟩
      rw [quoteLoop_rune hr, List.append_assoc, skipString_quotePiece hr]
      exact ih.1 fuel (by omega) t
    · intro fuel hfuel fuel' hfuel'
      rw [List.length_append] at hfuel
      obtain ⟨fuel, rfl⟩ : ∃ k, fuel = k + 1 := ⟨fuel - 1, by omega⟩
      rw [quoteLoop_rune hr] at hfuel' ⊢
      have hp := quotePiece_length_pos hr escapeHTML
      rw [List.length_append] at hfuel'
      obtain ⟨fuel', rfl⟩ : ∃ k, fuel' = k + 1 := ⟨fuel' - 1, by omega⟩
      rw [unquoteLoop_quotePiece hr, ih.2 fuel (by omega) fuel' (by omega), Option.map_some]

/-- The scanner stops behind the literal of a valid string. -/
theorem skipString_quoteBody {s : Bytes} (hs : ValidUtf8 s) (escapeHTML : Bool) (t : Bytes) :
    skipString .body (quoteBody escapeHTML s ++ 34 :: t) = some t := by
  rw [quoteBody, (quoteLoop_valid hs escapeHTML).1 _ (Nat.le_refl _)]
  simp [skipString]

/-- The literal of a valid string is read back. -/
theorem unquote_quote {s : Bytes} (hs : ValidUtf8 s) (escapeHTML : Bool) :
    unquote (quote escapeHTML s) = some s := by
  have hlast : (quote escapeHTML s).getLast? = some 34 := List.getLast?_concat
  have hlen : ¬ ((quote escapeHTML s).length < 2 ∨ (quote escapeHTML s).head? ≠ some 34 ∨
      (quote escapeHTML s).getLast? ≠ some 34) := by
    rw [hlast]
    simp [quote]
  have hbody : (quote escapeHTML s).tail.dropLast = quoteBody escapeHTML s := by
    simp [quote]
  simp only [unquote, if_neg hlen, hbody]
  exact (quoteLoop_valid hs escapeHTML).2 _ (Nat.le_refl _) _ (Nat.le_refl _)

end Astrate.GoLib.Json

namespace Astrate.GoLib

/-! ## Hexadecimal texts -/

/-- `hex.EncodeToString`. -/
def hexEncodeToString (bytes : Bytes) : Bytes :=
  bytes.flatMap fun b => [Json.hexDigit (b.toNat / 16), Json.hexDigit (b.toNat % 16)]

/-- `hex.Decode`. -/
def hexDecode : Bytes → Option Bytes
  | [] => some []
  | [_] => none
  | a :: b :: rest => do
      let high ← Json.hexVal a
      let low ← Json.hexVal b
      let bytes ← hexDecode rest
      some (UInt8.ofNat (16 * high + low) :: bytes)

theorem hexDecode_hexEncodeToString (bs : Bytes) : hexDecode (hexEncodeToString bs) = some bs := by
  induction bs with
  | nil => rfl
  | cons b bs ih =>
    have hlt : b.toNat < 256 := b.toNat_lt
    have hb : UInt8.ofNat (16 * (b.toNat / 16) + b.toNat % 16) = b := by
      rw [Nat.div_add_mod, UInt8.ofNat_toNat]
    rw [hexEncodeToString] at ih ⊢
    simp only [List.flatMap_cons, List.cons_append, List.nil_append, hexDecode,
      Json.hexVal_hexDigit _ (show b.toNat / 16 < 16 by omega),
      Json.hexVal_hexDigit _ (Nat.mod_lt b.toNat (by decide)), ih, hb, Option.bind_eq_bind, Option.bind_some]

end Astrate.GoLib
