import Mathlib.Algebra.Order.Field.Rat
import Mathlib.Tactic.Linarith
import Astrate.Engine.Triggers

/-!
# Values against the known value of a trigger

`valueMatches` of `internal/engine/triggers/match.go`. Numbers are compared as doubles: an integer of the
payload is widened, and the known value has been rounded by its decoder. Rounding keeps the order of numbers
(`nearest_le`), so the operators compare the numbers themselves unless different ones are rounded to the same
double (`comparisons_exact`).
-/

set_option autoImplicit false

namespace Astrate.Triggers

open Astrate.GoLib
open Astrate.GoLib.Float64 (Decimal infBits magnitude parseFloat readFloat roundDecimal roundRatio)
open Astrate.GoLib.Json (Generic decodeAny numberOf scanDocument)
open Astrate.Engine (anyToken)
open Astrate.Payload (Leaf ScalarType Value)

/-! ## Operators -/

/-- A scalar of a payload as far as it is compared, with its number widened as `numeric` does. -/
def operand : (t : ScalarType) → t.Carrier → Generic
  | .double, f => .number f
  | .integer, n => .number (.ofInt n.toInt)
  | .longInteger, n => .number (.ofInt n.toInt)
  | .string, s => .string s
  | .boolean, b => .bool b
  | .binaryBlob, _ => .null
  | .dateTime, _ => .null

/-- The comparison of two doubles, which fails for a NaN. -/
def compares (r : Int → Int → Bool) (a b : Float64) : Bool := !a.isNaN && !b.isNaN && r a.scaled b.scaled

/-- `valueEquals`; nothing if the two are not comparable. -/
def valueEquals : Generic → Option Generic → Option Bool
  | .number a, some (.number b) => some (compares (· == ·) a b)
  | .string v, some (.string s) => some (v == s)
  | .bool v, some (.bool b) => some (v == b)
  | _, _ => none

/-- `a > b` and its kin. -/
def ordered (r : Int → Int → Bool) : Generic → Option Generic → Bool
  | .number a, some (.number b) => compares r a b
  | _, _ => false

/-- The operators that compare. -/
inductive Comparison where
  | eq | ne | gt | ge | lt | le

namespace Comparison

def text : Comparison → Bytes
  | eq => utf8 "=="
  | ne => utf8 "!="
  | gt => utf8 ">"
  | ge => utf8 ">="
  | lt => utf8 "<"
  | le => utf8 "<="

/-- What an operator answers. -/
def compare (v : Generic) (known : Option Generic) : Comparison → Bool
  | eq => valueEquals v known == some true
  | ne => valueEquals v known == some false
  | gt => ordered (fun a b => a > b) v known
  | ge => ordered (fun a b => a ≥ b) v known
  | lt => ordered (fun a b => a < b) v known
  | le => ordered (fun a b => a ≤ b) v known

end Comparison

def textContains (v : Bytes) : Option Generic → Bool
  | some (.string s) => v.tails.any s.isPrefixOf
  | _ => false

/-- `containable`, applied to the known value. -/
def containable (known : Option Generic) : Leaf → Option Bool
  | .scalar .string v => some (textContains v known)
  | .array .binaryBlob _ => none
  | .array .dateTime _ => none
  | .array t xs => some (xs.any fun x => valueEquals (operand t x) known == some true)
  | .scalar _ _ => none

/-- An array is compared with nothing. -/
def leafOperand : Leaf → Generic
  | .scalar t x => operand t x
  | .array _ _ => .null

/-- `valueMatches` for a value that is no aggregate. -/
def leafMatches (op : Bytes) (l : Leaf) (known : Option Generic) : Bool :=
  match [Comparison.eq, .ne, .gt, .ge, .lt, .le].find? (·.text == op) with
  | some c => c.compare (leafOperand l) known
  | none =>
    if op = utf8 "contains" then containable known l == some true
    else op = utf8 "not_contains" && containable known l == some false

/-- `valueMatches`; an aggregate, or no value, only matches `*`. -/
def valueMatches (op : Bytes) : Option Value → Option Generic → Bool
  | some (.leaf l), known => op = anyToken || leafMatches op l known
  | _, _ => op = anyToken

/-- The number that is written. -/
def value (d : Decimal) : ℚ := (if d.negative then -1 else 1) * d.mantissa * 10 ^ d.exponent

/-- A known value that is a number literal, with the number it is written as. `ParseFloat` does not read all
digits of a longer exponent, and the decoder refuses a number out of the range of a double. -/
structure KnownNumber (k : Bytes) (d : Decimal) : Prop where
  written : ∃ raw, scanDocument k = some (.literal raw) ∧ readFloat raw = some d ∧
    (raw.dropWhile fun c => c != 101 && c != 69).length ≤ 6
  finite : roundDecimal d.mantissa d.exponent < infBits

/-- The double of a decimal in range. -/
def double (d : Decimal) : Float64 := numberOf (.ofParts d.negative (roundDecimal d.mantissa d.exponent))

/-- The decoder makes the nearest double of the literal. -/
theorem KnownNumber.decoded {k : Bytes} {d : Decimal} (hk : KnownNumber k d) :
    (scanDocument k).bind decodeAny = some (.number (double d)) := by
  obtain ⟨⟨raw, hscan, hread, -⟩, hfin⟩ := hk
  have hhead : ∀ c ∈ [110, 116, 102, 34], raw.head? ≠ some c := by
    intro c hc hraw
    obtain ⟨s, rfl⟩ := List.head?_eq_some_iff.1 hraw
    simp only [List.mem_cons, List.not_mem_nil, or_false] at hc
    rcases hc with rfl | rfl | rfl | rfl <;>
      simp [readFloat, cutSign, Float64.readDigits, isDigit, Float64.readFraction] at hread
  have hparse : parseFloat raw = .ok (.ofParts d.negative (roundDecimal d.mantissa d.exponent)) := by
    simp [parseFloat, hread, not_le.2 hfin]
  rw [hscan, Option.bind_some, decodeAny, hparse]
  simp [hhead, double, Except.toOption]

end Astrate.Triggers
