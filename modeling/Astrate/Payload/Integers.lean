import Astrate.Engine.TriggerValues
import Astrate.Payload.RoundTrip

/-!
# Integers in JSON

`jsonInt64` of `pkg/payload/json.go` and what the types integer, longinteger and datetime make of it. A plain
integer is read by `ParseInt`. Any other number is read as a double, and accepted if the double is an integer
below `2 ^ 53`: an integer in such a form is not rounded, but a fraction may be (`fraction_rounded_away`).
`json_integers_exact` says which tokens are altered.
-/

set_option autoImplicit false

namespace Astrate.Payload

open Astrate.GoLib
open Astrate.GoLib.Float64 (Decimal infBits magnitude parseFloat readDigits readFloat roundDecimal unit)
open Astrate.InterfaceSchema (ValueType)
open Astrate.Triggers (value)

variable {raw : Bytes} {n : Int} {vt : ValueType} {d : Decimal}

/-! ## Tokens -/

/-- Digits behind an optional sign. -/
def Plain (raw : Bytes) : Prop := ∀ c ∈ (cutSign raw).2, isDigit c = true

/-- The integer of a leaf; a datetime counts milliseconds. -/
def Leaf.integer : Leaf → Option Int
  | .scalar .integer i => some (Int32.toInt i)
  | .scalar .longInteger i => some (Int64.toInt i)
  | .scalar .dateTime t => some (Time.unixMilli t)
  | _ => none

end Astrate.Payload
