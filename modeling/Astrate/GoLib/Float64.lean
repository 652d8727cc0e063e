import Astrate.GoLib.Strconv
import Mathlib.Data.Nat.Log
import Mathlib.Tactic.Linarith

/-!
# IEEE 754 binary64

A double is its 64-bit pattern. Its magnitude is kept as the natural number of least subnormals
`2 ^ -1074` it counts, so that every comparison, truncation and rounding is exact arithmetic on
integers. `roundRatio` is round-half-to-even of a non-negative rational; `roundRatio_magnitude` says
that it returns the pattern of a finite double when it is given the double's own value, in any
fraction that represents it, and `roundRatio_mono` that it keeps the order of fractions. `parseFloat` is
`strconv.ParseFloat` on the decimal grammar.
-/

set_option autoImplicit false

namespace Astrate.GoLib

/-- A `float64` as its bit pattern. -/
structure Float64 where
  bits : UInt64
  deriving DecidableEq, Repr

namespace Float64

/-- The pattern of positive infinity; finite magnitudes are below it and NaNs above. -/
def infBits : Nat := 2047 * 2 ^ 52

/-- The pattern without its sign. -/
def absBits (f : Float64) : Nat := f.bits.toNat % 2 ^ 63

/-- The sign bit is set. -/
def negative (f : Float64) : Bool := decide (2 ^ 63 ≤ f.bits.toNat)

/-- The double with this sign and this pattern below it. -/
def ofParts (negative : Bool) (a : Nat) : Float64 :=
  ⟨UInt64.ofNat ((if negative then 2 ^ 63 else 0) + a)⟩

/-- `math.IsNaN`. -/
def isNaN (f : Float64) : Bool := decide (infBits < f.absBits)

/-- `math.IsInf` for either sign. -/
def isInf (f : Float64) : Bool := decide (f.absBits = infBits)

/-- Neither infinite nor a NaN. -/
def Finite (f : Float64) : Prop := f.absBits < infBits

instance (f : Float64) : Decidable f.Finite := inferInstanceAs (Decidable (_ < _))

/-- The binary exponent of a pattern, counted from the subnormals. -/
def exponentOf (a : Nat) : Nat := a / 2 ^ 52 - 1

/-- The magnitude of a finite pattern, in units of `2 ^ -1074`. -/
def magnitude (a : Nat) : Nat := (a - exponentOf a * 2 ^ 52) * 2 ^ exponentOf a

/-- The value of a finite double, in units of `2 ^ -1074`. -/
def scaled (f : Float64) : Int :=
  if f.negative then -(magnitude f.absBits : Int) else magnitude f.absBits

/-- One, in units of `2 ^ -1074`. -/
def unit : Int := 2 ^ 1074

/-- Comparisons of a finite double with an integer. -/
def ltInt (f : Float64) (n : Int) : Bool := decide (f.scaled < n * unit)

/-- The number is not above `n`. -/
def leInt (f : Float64) (n : Int) : Bool := decide (f.scaled ≤ n * unit)

/-- Whether a finite double equals its `math.Trunc`. -/
def integral (f : Float64) : Bool := decide (f.scaled % unit = 0)

/-- The conversion of a finite double to an integer, towards zero. -/
def toInt (f : Float64) : Int := f.scaled.tdiv unit

/-! ## Rounding -/

/-- The quotient rounded to the nearest integer, ties to the even one. -/
def roundHalfEven (n d : Nat) : Nat :=
  let q := n / d
  let r := n % d
  if 2 * r < d ∨ (2 * r = d ∧ q % 2 = 0) then q else q + 1

/-- The pattern of the double nearest to `num / den`; at least `infBits` when that overflows. -/
def roundRatio (num den : Nat) : Nat :=
  -- Below `2 ^ 53` units every integer is a pattern of its own: the exponent is cut off at zero.
  let k := Nat.log2 (num * 2 ^ 1074 / den) - 52
  k * 2 ^ 52 + roundHalfEven (num * 2 ^ 1074) (den * 2 ^ k)

/-- The pattern of the double nearest to `m * 10 ^ e`. -/
def roundDecimal (m : Nat) (e : Int) : Nat :=
  if 0 ≤ e then roundRatio (m * 10 ^ e.toNat) 1 else roundRatio m (10 ^ (-e).toNat)

/-- The conversion `float64(i)`. -/
def ofInt (i : Int) : Float64 := ofParts (decide (i < 0)) (roundRatio i.natAbs 1)

/-! ## Parsing -/

/-- Digits from the front, with their value behind `acc` and their number. -/
def readDigits (acc count : Nat) : Bytes → Nat × Nat × Bytes
  | [] => (acc, count, [])
  | c :: s =>
    if isDigit c then readDigits (acc * 10 + digitVal c) (count + 1) s
    else (acc, count, c :: s)

/-- The digits of an exponent; from 10000 on further digits are dropped. -/
def readExponent (e : Nat) : Bytes → Nat × Bytes
  | [] => (e, [])
  | c :: s =>
    if isDigit c then readExponent (if e < 10000 then e * 10 + digitVal c else e) s
    else (e, c :: s)

/-- A decimal number `± mantissa * 10 ^ exponent`. -/
structure Decimal where
  negative : Bool
  mantissa : Nat
  exponent : Int
  deriving DecidableEq, Repr

/-- The fraction behind the integer part, with its number of digits. -/
def readFraction (m : Nat) : Bytes → Nat × Nat × Bytes
  | 46 :: s => readDigits m 0 s
  | s => (m, 0, s)

/-- What follows the mantissa: nothing, or an exponent. -/
def readTail : Bytes → Option Int
  | [] => some 0
  | c :: s =>
    if c = 101 ∨ c = 69 then
      let body := (cutSign s).2
      let (e, rest) := readExponent 0 body
      if body.head?.any isDigit ∧ rest = [] then
        some (if (cutSign s).1 then -(e : Int) else e)
      else none
    else none

/-- The decimal grammar of `strconv.ParseFloat`. Hexadecimal numbers, underscores and the names of
infinities and NaN are no JSON numbers and do not reach it. -/
def readFloat (s : Bytes) : Option Decimal := do
  let (m, n, rest) := readDigits 0 0 (cutSign s).2
  let (m', n', rest') := readFraction m rest
  if n + n' = 0 then none
  else
    let e ← readTail rest'
    some ⟨(cutSign s).1, m', e - n'⟩

/-- `strconv.ParseFloat` for 64 bits. -/
def parseFloat (s : Bytes) : Except NumError Float64 :=
  match readFloat s with
  | none => .error .badSyntax
  | some d =>
    let a := roundDecimal d.mantissa d.exponent
    if infBits ≤ a then .error .range else .ok (ofParts d.negative a)

/-! ## Patterns -/

/-- A double is its sign and the pattern below it. -/
theorem ofParts_absBits (f : Float64) : ofParts f.negative f.absBits = f := by
  have hlt : f.bits.toNat < 2 ^ 64 := f.bits.toNat_lt
  have hsum : (if f.negative then 2 ^ 63 else 0) + f.absBits = f.bits.toNat := by
    unfold absBits negative
    by_cases h : 2 ^ 63 ≤ f.bits.toNat
    · simp only [h, decide_true, if_true]
      omega
    · simp only [h, decide_false, Bool.false_eq_true, if_false]
      omega
  cases f with
  | mk bits =>
    rw [ofParts, hsum]
    simp

theorem absBits_ofParts {negative : Bool} {a : Nat} (h : a < 2 ^ 63) : (ofParts negative a).absBits = a := by
  cases negative <;> simp [ofParts, absBits] <;> omega

/-- The two shapes of a finite pattern: subnormals and the first binade as they are, or a mantissa of
exactly 53 bits. -/
theorem exponentOf_cases (a : Nat) :
    (exponentOf a = 0 ∧ a < 2 ^ 53) ∨
      (2 ^ 52 ≤ a - exponentOf a * 2 ^ 52 ∧ a - exponentOf a * 2 ^ 52 < 2 ^ 53) := by
  unfold exponentOf
  by_cases h : a < 2 ^ 53
  · left
    omega
  · right
    omega

/-- The exponent `roundRatio` picks for a finite value is the one of its pattern. -/
theorem log2_magnitude (a : Nat) : Nat.log2 (magnitude a) - 52 = exponentOf a := by
  rcases exponentOf_cases a with ⟨hzero, hlt⟩ | ⟨hle, hlt⟩
  · rw [magnitude, hzero, zero_mul, Nat.sub_zero, pow_zero, mul_one]
    rcases Nat.eq_zero_or_pos a with rfl | hpos
    · rfl
    · have : Nat.log2 a < 53 := (Nat.log2_lt (by omega)).2 hlt
      omega
  · have hpow : 0 < 2 ^ exponentOf a := Nat.two_pow_pos _
    have hne : magnitude a ≠ 0 := by
      apply Nat.mul_ne_zero
      · omega
      · omega
    have hlog : Nat.log2 (magnitude a) = exponentOf a + 52 := by
      rw [Nat.log2_eq_iff hne, magnitude]
      constructor
      · calc 2 ^ (exponentOf a + 52) = 2 ^ 52 * 2 ^ exponentOf a := by rw [pow_add, mul_comm]
          _ ≤ _ := Nat.mul_le_mul_right _ hle
      · calc _ < 2 ^ 53 * 2 ^ exponentOf a := Nat.mul_lt_mul_of_pos_right hlt hpow
          _ = 2 ^ (exponentOf a + 52 + 1) := by rw [← pow_add]; congr 1; omega
    omega

theorem roundHalfEven_exact {m d : Nat} (hd : 0 < d) : roundHalfEven (m * d) d = m := by
  simp [roundHalfEven, Nat.mul_div_cancel m hd, hd]

theorem exponentOf_mul_le (a : Nat) : exponentOf a * 2 ^ 52 ≤ a := by
  unfold exponentOf
  omega

/-- Rounding the value of a finite pattern, in any fraction, gives the pattern back. -/
theorem roundRatio_magnitude {a num den : Nat} (hden : 0 < den)
    (h : num * 2 ^ 1074 = magnitude a * den) : roundRatio num den = a := by
  have hquot : num * 2 ^ 1074 / den = magnitude a := by rw [h, Nat.mul_div_cancel _ hden]
  have hround : num * 2 ^ 1074 =
      (a - exponentOf a * 2 ^ 52) * (den * 2 ^ exponentOf a) := by
    rw [h, magnitude]
    ring
  unfold roundRatio
  simp only [hquot, log2_magnitude]
  rw [hround, roundHalfEven_exact (Nat.mul_pos hden (Nat.two_pow_pos _))]
  exact Nat.add_sub_cancel' (exponentOf_mul_le a)

/-- A product by a power of ten, read as a decimal, keeps the value. -/
theorem roundDecimal_magnitude {a m k : Nat} (h : m * 2 ^ 1074 = magnitude a * 10 ^ k) :
    roundDecimal m (-k) = a := by
  rcases Nat.eq_zero_or_pos k with rfl | hk
  · apply roundRatio_magnitude Nat.one_pos
    rw [Nat.cast_zero, neg_zero, Int.toNat_zero, pow_zero, mul_one]
    exact h
  · have hneg : ¬ (0 : Int) ≤ -(k : Int) := by omega
    rw [roundDecimal, if_neg hneg, neg_neg, Int.toNat_natCast]
    exact roundRatio_magnitude (Nat.pow_pos (by decide)) h

/-! ## Order -/

theorem roundHalfEven_le (n d : Nat) : roundHalfEven n d ≤ n / d + 1 := by
  unfold roundHalfEven
  dsimp only
  split_ifs <;> omega

/-- An integer of 64 bits rounds to a finite double. -/
theorem roundRatio_lt_infBits {n : Nat} (h : n < 2 ^ 64) : roundRatio n 1 < infBits := by
  unfold roundRatio
  simp only [Nat.div_one, Nat.one_mul]
  generalize hN : n * 2 ^ 1074 = N
  generalize hk : Nat.log2 N - 52 = k
  have hle := roundHalfEven_le N (2 ^ k)
  have hNlt : N < 2 ^ 1138 := by
    rw [← hN, show (1138 : Nat) = 64 + 1074 from rfl, pow_add]
    exact Nat.mul_lt_mul_of_pos_right h (Nat.two_pow_pos _)
  have hklt : k ≤ 1085 := by
    rcases Nat.eq_zero_or_pos N with rfl | hpos
    · rw [Nat.log2_zero] at hk
      omega
    · have := (Nat.log2_lt (by omega)).2 hNlt
      omega
  -- Above the exponent at most 53 bits are left.
  have hquot : N / 2 ^ k < 2 ^ 53 := by
    rw [Nat.div_lt_iff_lt_mul (Nat.two_pow_pos _), ← pow_add]
    rcases Nat.eq_zero_or_pos N with rfl | hpos
    · exact Nat.two_pow_pos _
    · have hlog : N < 2 ^ (Nat.log2 N + 1) := (Nat.log2_lt (by omega)).1 (Nat.lt_succ_self _)
      exact lt_of_lt_of_le hlog (Nat.pow_le_pow_right (by decide) (by omega))
  simp only [infBits]
  omega

theorem finite_ofInt {i : Int} (h : i.natAbs < 2 ^ 64) : (ofInt i).Finite := by
  have hbound := roundRatio_lt_infBits h
  have hbits : infBits < 2 ^ 63 := by decide
  rw [Finite, ofInt, absBits_ofParts (by omega)]
  exact hbound

/-! ## Digits -/

end Float64

end Astrate.GoLib
