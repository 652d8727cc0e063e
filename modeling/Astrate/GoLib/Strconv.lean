import Astrate.GoLib.Bytes
import Mathlib.Data.Nat.Digits.Lemmas

/-!
# Decimal integers

`strconv.FormatInt` and `strconv.ParseInt` in base 10 for 64-bit integers. The parser accumulates in
an unsigned 64-bit integer and reports an overflow at the digit that causes it, before it looks at
the octets behind. `parseInt_formatInt` says that a printed integer is read back.
-/

set_option autoImplicit false

namespace Astrate.GoLib

/-- A decimal digit. -/
def isDigit (c : UInt8) : Bool := 48 ≤ c && c ≤ 57

/-- The value of a decimal digit. -/
def digitVal (c : UInt8) : Nat := c.toNat - 48

/-- The octet of a decimal digit. -/
def digitByte (d : Nat) : UInt8 := UInt8.ofNat (48 + d)

/-- `strconv.FormatUint` in base 10. -/
def formatUint (n : Nat) : Bytes :=
  if n = 0 then [48] else ((Nat.digits 10 n).reverse).map digitByte

/-- `strconv.FormatInt` in base 10. -/
def formatInt (i : Int) : Bytes :=
  if i < 0 then 45 :: formatUint i.natAbs else formatUint i.natAbs

/-- Exactly `k` digits, with leading zeros. -/
def fixedDigits : Nat → Nat → Bytes
  | 0, _ => []
  | k + 1, n => fixedDigits k (n / 10) ++ [digitByte (n % 10)]

/-- The two ways a number fails to parse: `strconv.ErrSyntax` and `strconv.ErrRange`. -/
inductive NumError where
  | badSyntax
  | range
  deriving DecidableEq, Repr

/-- `math.MaxUint64`. -/
def maxUint64 : Nat := 2 ^ 64 - 1

/-- The loop of `strconv.ParseUint`. -/
def parseUintLoop (n : Nat) : Bytes → Except NumError Nat
  | [] => .ok n
  | c :: cs =>
    if isDigit c then
      if n ≥ maxUint64 / 10 + 1 then .error .range
      else if n * 10 + digitVal c > maxUint64 then .error .range
      else parseUintLoop (n * 10 + digitVal c) cs
    else .error .badSyntax

/-- `strconv.ParseUint` in base 10 for 64 bits. -/
def parseUint (s : Bytes) : Except NumError Nat :=
  if s = [] then .error .badSyntax else parseUintLoop 0 s

/-- The magnitude of a number and whether it is negative. -/
def cutSign (s : Bytes) : Bool × Bytes :=
  match s with
  | 45 :: t => (true, t)
  | 43 :: t => (false, t)
  | _ => (false, s)

/-- `strconv.ParseInt` in base 10 for 64 bits. -/
def parseInt (s : Bytes) : Except NumError Int :=
  if s = [] then .error .badSyntax
  else
    let neg := (cutSign s).1
    match parseUint (cutSign s).2 with
    | .error e => .error e
    | .ok un =>
      if !neg && decide (un ≥ 2 ^ 63) then .error .range
      else if neg && decide (un > 2 ^ 63) then .error .range
      else .ok (if neg then -(un : Int) else un)

/-! ## Digits -/

theorem isDigit_digitByte {d : Nat} (h : d < 10) : isDigit (digitByte d) = true := by
  have : ∀ d < 10, isDigit (digitByte d) = true := by decide
  exact this d h

theorem digitVal_digitByte {d : Nat} (h : d < 10) : digitVal (digitByte d) = d := by
  have : ∀ d < 10, digitVal (digitByte d) = d := by decide
  exact this d h

/-- The value of a digit sequence continued from an accumulator. -/
def ofDigitsFrom (acc : Nat) (ds : List Nat) : Nat := ds.foldl (fun a d => a * 10 + d) acc

theorem le_ofDigitsFrom (ds : List Nat) (acc : Nat) : acc ≤ ofDigitsFrom acc ds := by
  induction ds generalizing acc with
  | nil => exact Nat.le_refl _
  | cons d ds ih =>
    have := ih (acc * 10 + d)
    simp only [ofDigitsFrom, List.foldl_cons] at this ⊢
    omega

/-- The loop reads a digit sequence whose value fits. -/
theorem parseUintLoop_digits (ds : List Nat) (acc : Nat) (hds : ∀ d ∈ ds, d < 10)
    (hmax : ofDigitsFrom acc ds ≤ maxUint64) :
    parseUintLoop acc (ds.map digitByte) = .ok (ofDigitsFrom acc ds) := by
  induction ds generalizing acc with
  | nil => rfl
  | cons d ds ih =>
    rw [List.forall_mem_cons] at hds
    have hstep : ofDigitsFrom acc (d :: ds) = ofDigitsFrom (acc * 10 + d) ds := rfl
    have hle := le_ofDigitsFrom ds (acc * 10 + d)
    have hcut : ¬ acc ≥ maxUint64 / 10 + 1 := by omega
    have hfit : ¬ acc * 10 + d > maxUint64 := by omega
    simp only [List.map_cons, parseUintLoop, isDigit_digitByte hds.1, digitVal_digitByte hds.1,
      if_true, hcut, hfit, if_false]
    exact ih _ hds.2 hmax

theorem ofDigitsFrom_digits (n : Nat) : ofDigitsFrom 0 (Nat.digits 10 n).reverse = n := by
  rw [ofDigitsFrom, List.foldl_reverse]
  conv_rhs => rw [← Nat.ofDigits_digits 10 n]
  rw [Nat.ofDigits_eq_foldr]
  congr 1
  funext x y
  simp only [Nat.cast_id]
  omega

/-- The octets of a printed natural number are digits. -/
theorem isDigit_of_mem_formatUint {n : Nat} {c : UInt8} (h : c ∈ formatUint n) : isDigit c = true := by
  unfold formatUint at h
  split_ifs at h with h0
  · simp only [List.mem_singleton] at h
    subst h
    decide
  · obtain ⟨d, hd, rfl⟩ := List.mem_map.1 h
    exact isDigit_digitByte (Nat.digits_lt_base (by decide) (List.mem_reverse.1 hd))

theorem formatUint_ne_nil (n : Nat) : formatUint n ≠ [] := by
  unfold formatUint
  split_ifs with h0
  · simp
  · simpa [Nat.digits_ne_nil_iff_ne_zero] using h0

/-- A printed natural number as its digits. -/
theorem formatUint_eq_map (n : Nat) : ∃ ds, formatUint n = ds.map digitByte ∧
    (∀ d ∈ ds, d < 10) ∧ ofDigitsFrom 0 ds = n := by
  unfold formatUint
  split_ifs with h0
  · exact ⟨[0], rfl, by simp, h0.symm⟩
  · exact ⟨_, rfl, fun d hd => Nat.digits_lt_base (by decide) (List.mem_reverse.1 hd), ofDigitsFrom_digits n⟩

/-- A printed natural number starts with a zero only when it is zero. -/
theorem formatUint_cons (n : Nat) : ∃ c cs, formatUint n = c :: cs ∧ (c = 48 → cs = []) := by
  unfold formatUint
  split_ifs with h0
  · exact ⟨48, [], rfl, fun _ => rfl⟩
  · have hne : Nat.digits 10 n ≠ [] := Nat.digits_ne_nil_iff_ne_zero.2 h0
    have hlast := Nat.getLast_digit_ne_zero 10 h0
    have hlt : (Nat.digits 10 n).getLast hne < 10 :=
      Nat.digits_lt_base (by decide) (List.getLast_mem hne)
    refine ⟨digitByte ((Nat.digits 10 n).getLast hne),
      ((Nat.digits 10 n).dropLast.reverse).map digitByte, ?_, ?_⟩
    · rw [← List.map_cons, ← List.reverse_concat, List.dropLast_concat_getLast hne]
    · intro h48
      -- The digit zero is the only one printed as 48.
      have hval := congrArg digitVal h48
      rw [digitVal_digitByte hlt] at hval
      exact absurd hval hlast

/-- Fixed digits as a sequence of that length and value. -/
theorem fixedDigits_eq_map (k n : Nat) : ∃ ds, fixedDigits k n = ds.map digitByte ∧
    (∀ d ∈ ds, d < 10) ∧ ds.length = k ∧ ∀ acc, ofDigitsFrom acc ds = acc * 10 ^ k + n % 10 ^ k := by
  induction k generalizing n with
  | zero => exact ⟨[], rfl, by simp, rfl, fun acc => by simp [ofDigitsFrom, Nat.mod_one]⟩
  | succ k ih =>
    obtain ⟨ds, htext, hds, hlen, hval⟩ := ih (n / 10)
    refine ⟨ds ++ [n % 10], by simp [fixedDigits, htext], ?_, by simp [hlen], fun acc => ?_⟩
    · intro d hd
      rcases List.mem_append.1 hd with hd | hd
      · exact hds d hd
      · rw [List.mem_singleton] at hd
        omega
    · have hfold : ofDigitsFrom acc (ds ++ [n % 10]) = ofDigitsFrom acc ds * 10 + n % 10 := by
        simp [ofDigitsFrom]
      have hmod : n % 10 ^ (k + 1) = n / 10 % 10 ^ k * 10 + n % 10 := by
        rw [pow_succ', Nat.mod_mul, add_comm, mul_comm]
      rw [hfold, hval, hmod]
      ring

theorem isDigit_of_mem_fixedDigits {k n : Nat} {c : UInt8} (h : c ∈ fixedDigits k n) : isDigit c = true := by
  obtain ⟨ds, htext, hds, -, -⟩ := fixedDigits_eq_map k n
  rw [htext] at h
  obtain ⟨d, hd, rfl⟩ := List.mem_map.1 h
  exact isDigit_digitByte (hds d hd)

/-- A printed natural number is read back. -/
theorem parseUint_formatUint {n : Nat} (h : n ≤ maxUint64) : parseUint (formatUint n) = .ok n := by
  rw [parseUint, if_neg (formatUint_ne_nil n)]
  unfold formatUint
  split_ifs with h0
  · subst h0
    decide
  · have hds : ∀ d ∈ (Nat.digits 10 n).reverse, d < 10 := fun d hd =>
      Nat.digits_lt_base (by decide) (List.mem_reverse.1 hd)
    have hval := ofDigitsFrom_digits n
    rw [parseUintLoop_digits _ 0 hds (by rw [hval]; exact h), hval]

theorem cutSign_formatUint (n : Nat) : cutSign (formatUint n) = (false, formatUint n) := by
  unfold cutSign
  split
  · rename_i t heq
    have := isDigit_of_mem_formatUint (n := n) (c := 45) (by rw [heq]; simp)
    simp [isDigit] at this
  · rename_i t heq
    have := isDigit_of_mem_formatUint (n := n) (c := 43) (by rw [heq]; simp)
    simp [isDigit] at this
  · rfl

/-- A printed 64-bit integer is read back. -/
theorem parseInt_formatInt {i : Int} (hmin : -2 ^ 63 ≤ i) (hmax : i < 2 ^ 63) :
    parseInt (formatInt i) = .ok i := by
  have habs : i.natAbs ≤ maxUint64 := by simp only [maxUint64]; omega
  unfold formatInt
  split_ifs with hneg
  · have h1 : ¬ (i.natAbs > 2 ^ 63) := by omega
    simp only [parseInt, cutSign, parseUint_formatUint habs, List.cons_ne_nil, if_false,
      Bool.not_true, Bool.false_and, Bool.false_eq_true, h1, decide_false, Bool.and_false, if_true]
    congr 1
    omega
  · have h1 : ¬ (i.natAbs ≥ 2 ^ 63) := by omega
    simp only [parseInt, cutSign_formatUint, formatUint_ne_nil, parseUint_formatUint habs, if_false,
      h1, decide_false, Bool.and_false, Bool.false_and, Bool.false_eq_true]
    congr 1
    omega

end Astrate.GoLib
