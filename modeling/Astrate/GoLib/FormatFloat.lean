import Astrate.GoLib.Float64
import Astrate.GoLib.Json

/-!
# Printing a double

The text `encoding/json` writes for a finite `float64`: the shortest decimal that
`strconv.ParseFloat` reads back to the same double, in plain notation between `1e-6` and `1e21` and in
scientific notation outside. `parseFloat_appendFloat` is that reading back, `isValidNumber_appendFloat`
says that the text is a JSON number.
-/

set_option autoImplicit false

namespace Astrate.GoLib.Float64

/-- The verb `f`: `d * 10 ^ e` without an exponent. -/
def formatFixed (d : Nat) (e : Int) : Bytes :=
  if 0 ≤ e then formatUint (d * 10 ^ e.toNat)
  else
    let k := (-e).toNat
    formatUint (d / 10 ^ k) ++ 46 :: fixedDigits k (d % 10 ^ k)

/-- The verb `e`: one digit, the others as a fraction, and the exponent. `encoding/json` drops the
zero that pads a negative one-digit exponent, and no positive exponent here has one digit. -/
def formatExponent (d : Nat) (e : Int) : Bytes :=
  let ds := formatUint d
  let x := e + (ds.length - 1 : Nat)
  ds.take 1 ++ (if ds.length = 1 then [] else 46 :: ds.drop 1) ++
    101 :: (if x < 0 then 45 else 43) :: formatUint x.natAbs

/-- Trailing zeros of the digits are moved into the exponent. -/
def trimZeros : Nat → Nat → Int → Nat × Int
  | 0, d, e => (d, e)
  | fuel + 1, d, e => if d ≠ 0 ∧ d % 10 = 0 then trimZeros fuel (d / 10) (e + 1) else (d, e)

/-- Whether `encoding/json` uses the verb `e`: `abs < 1e-6 || abs >= 1e21`, zero apart. -/
def scientific (f : Float64) : Bool :=
  f.absBits != 0 && (f.absBits < roundDecimal 1 (-6) || roundDecimal 1 21 ≤ f.absBits)

/-- The text of `± d * 10 ^ e` in the notation for this double. -/
def render (f : Float64) (d : Nat) (e : Int) : Bytes :=
  (if f.negative then [45] else []) ++
    if f.scientific then formatExponent d e else formatFixed d e

/-- The power of ten just above a positive value `num / den`. -/
def decimalPoint (num den : Nat) : Int :=
  if den ≤ num then Nat.log 10 (num / den) + 1 else -(Nat.log 10 ((den - 1) / num) : Int)

/-- The two decimals of `n` digits around a positive value, the nearer one first. -/
def neighbours (num den n : Nat) : List (Nat × Int) :=
  let s := n - decimalPoint num den
  let num' := if 0 ≤ s then num * 10 ^ s.toNat else num
  let den' := if 0 ≤ s then den else den * 10 ^ (-s).toNat
  let q := num' / den'
  if roundHalfEven num' den' = q then [(q, -s), (q + 1, -s)] else [(q + 1, -s), (q, -s)]

/-- Decimals around a finite double by the number of their digits. -/
def decimals (f : Float64) : List (Nat × Int) :=
  let m := magnitude f.absBits
  if m = 0 then [(0, 0)]
  else (List.range 17).flatMap fun i => neighbours m (2 ^ 1074) (i + 1)

/-- The exact decimal expansion of a finite double. -/
def exactDecimal (f : Float64) : Bytes :=
  (if f.negative then [45] else []) ++ formatFixed (magnitude f.absBits * 5 ^ 1074) (-1074)

/-- The texts of these decimals. -/
def texts (f : Float64) : List Bytes :=
  f.decimals.map fun p => render f (trimZeros 17 p.1 p.2).1 (trimZeros 17 p.1 p.2).2

/-- The number `encoding/json` writes for a finite `float64`. Seventeen digits are always enough; the
exact expansion closes the search. -/
def appendFloat (f : Float64) : Bytes :=
  (f.texts.find? fun t => decide (parseFloat t = .ok f)).getD f.exactDecimal

/-- `strconv.FormatFloat` with the verb `f` and the shortest digits, for a finite `float64`. -/
def formatPlain (f : Float64) : Bytes :=
  let plain := f.decimals.map fun p =>
    (if f.negative then [45] else []) ++ formatFixed (trimZeros 17 p.1 p.2).1 (trimZeros 17 p.1 p.2).2
  (plain.find? fun t => decide (parseFloat t = .ok f)).getD f.exactDecimal

/-! ## Reading digits -/

/-- Nothing, or text that does not go on with a digit. -/
def NoDigit (s : Bytes) : Prop := ∀ c ∈ s.head?, isDigit c = false

theorem readDigits_map (ds : List Nat) (acc n : Nat) (rest : Bytes) (hds : ∀ d ∈ ds, d < 10)
    (hrest : NoDigit rest) :
    readDigits acc n (ds.map digitByte ++ rest) = (ofDigitsFrom acc ds, n + ds.length, rest) := by
  induction ds generalizing acc n with
  | nil =>
    cases rest with
    | nil => rfl
    | cons c rest => simp [readDigits, ofDigitsFrom, hrest c rfl]
  | cons d ds ih =>
    rw [List.forall_mem_cons] at hds
    simp only [List.map_cons, List.cons_append, readDigits, isDigit_digitByte hds.1, if_true,
      digitVal_digitByte hds.1, ih _ _ hds.2, List.length_cons, Prod.mk.injEq, and_true]
    exact ⟨rfl, by omega⟩

/-- The sign in front of a text. -/
theorem cutSign_sign (negative : Bool) {s : Bytes} (h : cutSign s = (false, s)) :
    cutSign ((if negative then [45] else []) ++ s) = (negative, s) := by
  cases negative with
  | true => rfl
  | false => exact h

theorem cutSign_of_isDigit {c : UInt8} {s : Bytes} (h : isDigit c = true) :
    cutSign (c :: s) = (false, c :: s) := by
  have h45 : c ≠ 45 := by rintro rfl; revert h; decide
  have h43 : c ≠ 43 := by rintro rfl; revert h; decide
  unfold cutSign
  split
  · rename_i t heq
    exact absurd (List.cons.inj heq).1 h45
  · rename_i t heq
    exact absurd (List.cons.inj heq).1 h43
  · rfl

theorem formatFixed_neg (d : Nat) {k : Nat} (hk : 0 < k) : formatFixed d (-k) =
    formatUint (d / 10 ^ k) ++ 46 :: fixedDigits k (d % 10 ^ k) := by
  have hneg : ¬ (0 : Int) ≤ -(k : Int) := by omega
  simp only [formatFixed, hneg, if_false, neg_neg, Int.toNat_natCast]

/-- The verb `f` below the units is read as the digits and their places. -/
theorem readFloat_formatFixed (negative : Bool) (d k : Nat) (hk : 0 < k) :
    readFloat ((if negative then [45] else []) ++ formatFixed d (-k)) = some ⟨negative, d, -k⟩ := by
  obtain ⟨is, hitext, hids, hival⟩ := formatUint_eq_map (d / 10 ^ k)
  obtain ⟨fs, hftext, hfds, hflen, hfval⟩ := fixedDigits_eq_map k (d % 10 ^ k)
  obtain ⟨c, cs, hcons, -⟩ := formatUint_cons (d / 10 ^ k)
  have hsign : cutSign (formatFixed d (-k)) = (false, formatFixed d (-k)) := by
    have hc : isDigit c = true := isDigit_of_mem_formatUint (by rw [hcons]; exact List.mem_cons_self)
    rw [formatFixed_neg d hk, hcons]
    exact cutSign_of_isDigit hc
  have hint := readDigits_map is 0 0 (46 :: fs.map digitByte) hids
    (by intro c hc; rw [List.head?_cons, Option.mem_some_iff] at hc; subst hc; decide)
  have hfrac := readDigits_map fs (d / 10 ^ k) 0 [] hfds (by simp [NoDigit])
  have hvalue : d / 10 ^ k * 10 ^ k + d % 10 ^ k % 10 ^ k = d := by
    rw [Nat.mod_mod, mul_comm]
    exact Nat.div_add_mod d (10 ^ k)
  rw [List.append_nil, hfval, hvalue] at hfrac
  rw [readFloat, cutSign_sign negative hsign]
  have hpos : ¬ is.length + k = 0 := by omega
  simp only [formatFixed_neg d hk, hitext, hftext, hint, hival, readFraction, hfrac, hflen, readTail,
    Option.bind_eq_bind, Option.bind_some, hpos, if_false, zero_sub, zero_add]

/-- The exact expansion of a finite double is read back. -/
theorem parseFloat_exactDecimal {f : Float64} (h : f.Finite) : parseFloat f.exactDecimal = .ok f := by
  have hread := readFloat_formatFixed f.negative (magnitude f.absBits * 5 ^ 1074) 1074 (by decide)
  have hround : roundDecimal (magnitude f.absBits * 5 ^ 1074) (-(1074 : Nat)) = f.absBits := by
    apply roundDecimal_magnitude
    rw [mul_assoc, ← mul_pow, show 5 * 2 = 10 from rfl]
  have hfin : ¬ infBits ≤ f.absBits := Nat.not_le.2 h
  unfold parseFloat exactDecimal
  rw [show (-1074 : Int) = -(1074 : Nat) from rfl, hread]
  simp only [hround, hfin, if_false, ofParts_absBits]

/-- What `encoding/json` writes for a finite double, `strconv.ParseFloat` reads back. -/
theorem parseFloat_appendFloat {f : Float64} (h : f.Finite) : parseFloat f.appendFloat = .ok f := by
  unfold appendFloat
  cases hfind : f.texts.find? fun t => decide (parseFloat t = .ok f) with
  | none => exact parseFloat_exactDecimal h
  | some t =>
    have ht := List.find?_some hfind
    exact of_decide_eq_true ht

example : appendFloat ⟨0x3FB999999999999A⟩ = utf8 "0.1" := by decide +kernel

/-! ## The grammar of JSON numbers -/

open Json (NumState numberFrom isValidNumber)

/-- A state that digits do not leave. -/
def DigitState (st : NumState) : Prop := ∀ c, isDigit c = true → st.next c = some st

theorem digitState_int : DigitState .int := fun c hc => by simp [NumState.next, hc]

theorem digitState_frac : DigitState .frac := fun c hc => by simp [NumState.next, hc]

theorem digitState_expDigits : DigitState .expDigits := fun c hc => by simp [NumState.next, hc]

theorem numberFrom_digits {st : NumState} (hst : DigitState st) {ds : Bytes}
    (hds : ∀ c ∈ ds, isDigit c = true) (rest : Bytes) : numberFrom st (ds ++ rest) = numberFrom st rest := by
  induction ds with
  | nil => rfl
  | cons c ds ih =>
    rw [List.forall_mem_cons] at hds
    rw [List.cons_append, numberFrom, hst c hds.1]
    exact ih hds.2

/-- What may follow the integer part of a number. -/
structure NumberTail (rest : Bytes) : Prop where
  zero : numberFrom .zero rest = true
  int : numberFrom .int rest = true

/-- A sign, a digit and a tail are a number. -/
theorem isValidNumber_digit (negative : Bool) {c : UInt8} (hc : isDigit c = true) {rest : Bytes}
    (hrest : NumberTail rest) : isValidNumber ((if negative then [45] else []) ++ c :: rest) = true := by
  have h45 : c ≠ 45 := by rintro rfl; revert hc; decide
  rcases eq_or_ne c 48 with rfl | hzero
  · cases negative with
    | true => exact hrest.zero
    | false => exact hrest.zero
  · cases negative with
    | true => simp [isValidNumber, NumState.first, numberFrom, NumState.next, hzero, hc, hrest.int]
    | false => simp [isValidNumber, NumState.first, h45, hzero, hc, hrest.int]

/-- A sign, a natural number and a tail are a number. -/
theorem isValidNumber_formatUint (negative : Bool) (n : Nat) {rest : Bytes} (hrest : NumberTail rest) :
    isValidNumber ((if negative then [45] else []) ++ (formatUint n ++ rest)) = true := by
  obtain ⟨c, cs, hcons, hzero⟩ := formatUint_cons n
  have hdigits : ∀ x ∈ c :: cs, isDigit x = true := fun x hx =>
    isDigit_of_mem_formatUint (by rw [hcons]; exact hx)
  rw [List.forall_mem_cons] at hdigits
  rw [hcons, List.cons_append]
  rcases eq_or_ne c 48 with rfl | hne
  · rw [hzero rfl, List.nil_append]
    exact isValidNumber_digit negative (by decide) hrest
  · -- From a first digit other than zero the machine stays in `int` over the other digits.
    have hint : numberFrom .int (cs ++ rest) = true := by
      rw [numberFrom_digits digitState_int hdigits.2]
      exact hrest.int
    have h45 : c ≠ 45 := by rintro rfl; exact absurd hdigits.1 (by decide)
    cases negative with
    | true => simp [isValidNumber, NumState.first, numberFrom, NumState.next, hne, hdigits.1, hint]
    | false => simp [isValidNumber, NumState.first, h45, hne, hdigits.1, hint]

theorem numberTail_nil : NumberTail [] := ⟨rfl, rfl⟩

/-- An exponent part. -/
theorem numberTail_exponent (sign : Bool) (n : Nat) :
    NumberTail (101 :: (if sign then 45 else 43) :: formatUint n) := by
  obtain ⟨c, cs, hcons, -⟩ := formatUint_cons n
  have hdigits : ∀ x ∈ c :: cs, isDigit x = true := fun x hx =>
    isDigit_of_mem_formatUint (by rw [hcons]; exact hx)
  rw [List.forall_mem_cons] at hdigits
  have hcs : numberFrom .expDigits cs = true := by
    have := numberFrom_digits digitState_expDigits hdigits.2 []
    rw [List.append_nil] at this
    rw [this]
    rfl
  have hsigned : numberFrom .expSign (c :: cs) = true := by
    simp [numberFrom, NumState.next, hdigits.1, hcs]
  rw [hcons]
  cases sign with
  | true => exact ⟨hsigned, hsigned⟩
  | false => exact ⟨hsigned, hsigned⟩

/-- A fraction of at least one digit, and what follows it. -/
theorem numberTail_fraction {ds rest : Bytes} (hne : ds ≠ [])
    (hds : ∀ c ∈ ds, isDigit c = true) (hrest : numberFrom .frac rest = true) :
    NumberTail (46 :: (ds ++ rest)) := by
  cases ds with
  | nil => exact absurd rfl hne
  | cons c ds =>
    rw [List.forall_mem_cons] at hds
    have htail : numberFrom .frac (ds ++ rest) = true := by
      rw [numberFrom_digits digitState_frac hds.2]
      exact hrest
    have hdot : numberFrom .dot (c :: (ds ++ rest)) = true := by
      simp [numberFrom, NumState.next, hds.1, htail]
    exact ⟨hdot, hdot⟩

theorem isValidNumber_formatFixed (negative : Bool) (d : Nat) (e : Int) :
    isValidNumber ((if negative then [45] else []) ++ formatFixed d e) = true := by
  by_cases he : 0 ≤ e
  · rw [formatFixed, if_pos he, ← List.append_nil (formatUint _)]
    exact isValidNumber_formatUint negative _ numberTail_nil
  · obtain ⟨k, rfl⟩ : ∃ k : Nat, e = -k := ⟨e.natAbs, by omega⟩
    have hk : 0 < k := by omega
    rw [formatFixed_neg d hk, ← List.append_nil (fixedDigits _ _)]
    apply isValidNumber_formatUint
    apply numberTail_fraction
    · intro hnil
      obtain ⟨ds, htext, -, hlen, -⟩ := fixedDigits_eq_map k (d % 10 ^ k)
      rw [hnil] at htext
      have := congrArg List.length htext
      rw [List.length_map, List.length_nil] at this
      omega
    · intro c hc
      exact isDigit_of_mem_fixedDigits hc
    · rfl

theorem isValidNumber_formatExponent (negative : Bool) (d : Nat) (e : Int) :
    isValidNumber ((if negative then [45] else []) ++ formatExponent d e) = true := by
  obtain ⟨c, cs, hcons, -⟩ := formatUint_cons d
  have hdigits : ∀ x ∈ c :: cs, isDigit x = true := fun x hx =>
    isDigit_of_mem_formatUint (by rw [hcons]; exact hx)
  rw [List.forall_mem_cons] at hdigits
  have hexp := numberTail_exponent (decide (e + (cs.length : Int) < 0))
    (e + (cs.length : Int)).natAbs
  simp only [decide_eq_true_eq] at hexp
  cases cs with
  | nil =>
    simp only [formatExponent, hcons]
    exact isValidNumber_digit negative hdigits.1 hexp
  | cons c' cs =>
    have hlen : ¬ (c :: c' :: cs).length = 1 := by simp
    have hfrac : numberFrom .frac (101 :: (if e + ((c' :: cs).length : Int) < 0 then 45 else 43) ::
        formatUint (e + ((c' :: cs).length : Int)).natAbs) = true := hexp.zero
    simp only [formatExponent, hcons, hlen, if_false]
    exact isValidNumber_digit negative hdigits.1
      (numberTail_fraction (List.cons_ne_nil c' cs) hdigits.2 hfrac)

/-- The number `encoding/json` writes for a double is one. -/
theorem isValidNumber_appendFloat (f : Float64) : isValidNumber f.appendFloat = true := by
  have hrender : ∀ d e, isValidNumber (render f d e) = true := by
    intro d e
    rw [render]
    cases f.scientific with
    | true => exact isValidNumber_formatExponent f.negative d e
    | false => exact isValidNumber_formatFixed f.negative d e
  unfold appendFloat
  cases hfind : f.texts.find? fun t => decide (parseFloat t = .ok f) with
  | none => exact isValidNumber_formatFixed f.negative _ _
  | some t =>
    obtain ⟨p, -, rfl⟩ := List.mem_map.1 (List.mem_of_find?_eq_some hfind)
    exact hrender _ _

/-- The number `encoding/json` writes for an integer is one. -/
theorem isValidNumber_formatInt (i : Int) : isValidNumber (formatInt i) = true := by
  have h := isValidNumber_formatUint (decide (i < 0)) i.natAbs numberTail_nil
  unfold formatInt
  split_ifs with hneg
  · simpa [hneg] using h
  · simpa [hneg] using h

end Astrate.GoLib.Float64
