import Astrate.GoLib.JsonText
import Astrate.GoLib.Strconv
import Mathlib.Data.List.TakeWhile

/-!
# JSON documents

The part of `encoding/json` the program uses: the scanner, which checks a whole document and gives
every value the octets it was written with (a `json.RawMessage`), and the writer `marshal`.

A scanned value (`Token`) keeps its own text, and for arrays and objects the scanned elements and
members, so that decoding a raw message again is reading the token. `scanDocument_marshal` is the
round trip of the library: what `marshal` writes is scanned as the value it was written from. A scan reads
its text from the front and leaves the rest (`scanValue_rest`).
-/

set_option autoImplicit false

namespace Astrate.GoLib.Json

open Astrate.GoLib

/-- A scanned value. The text of an object's key is the literal, quotes included. -/
inductive Token where
  | literal (raw : Bytes)
  | array (raw : Bytes) (elems : List Token)
  | object (raw : Bytes) (members : List (Bytes × Token))
  deriving Repr

/-- The octets of a value, without surrounding white space. -/
def Token.raw : Token → Bytes
  | .literal raw => raw
  | .array raw _ => raw
  | .object raw _ => raw

/-! ## Numbers -/

/-- The scanner's states inside a number. -/
inductive NumState where
  | neg
  | zero
  | int
  | dot
  | frac
  | exp
  | expSign
  | expDigits
  deriving DecidableEq, Repr

/-- The states in which a number may end. -/
def NumState.final : NumState → Bool
  | .zero | .int | .frac | .expDigits => true
  | _ => false

/-- The state after the first octet of a number. -/
def NumState.first (c : UInt8) : Option NumState :=
  if c = 45 then some .neg
  else if c = 48 then some .zero
  else if isDigit c then some .int
  else none

/-- The state after a further octet of a number; `none` when the octet is not part of it. -/
def NumState.next (st : NumState) (c : UInt8) : Option NumState :=
  match st with
  | .neg => if c = 48 then some .zero else if isDigit c then some .int else none
  | .zero =>
    if c = 46 then some .dot else if c = 101 ∨ c = 69 then some .exp else none
  | .int =>
    if isDigit c then some .int
    else if c = 46 then some .dot
    else if c = 101 ∨ c = 69 then some .exp
    else none
  | .dot => if isDigit c then some .frac else none
  | .frac =>
    if isDigit c then some .frac else if c = 101 ∨ c = 69 then some .exp else none
  | .exp =>
    if c = 43 ∨ c = 45 then some .expSign else if isDigit c then some .expDigits else none
  | .expSign => if isDigit c then some .expDigits else none
  | .expDigits => if isDigit c then some .expDigits else none

/-- Skip the rest of a number. -/
def skipNumber : NumState → Bytes → Option Bytes
  | st, [] => if st.final then some [] else none
  | st, c :: cs =>
    match st.next c with
    | some st' => skipNumber st' cs
    | none => if st.final then some (c :: cs) else none

/-- The grammar of a whole number (`isValidNumber`). -/
def numberFrom : NumState → Bytes → Bool
  | st, [] => st.final
  | st, c :: cs =>
    match st.next c with
    | some st' => numberFrom st' cs
    | none => false

/-- The text is a number of the grammar. -/
def isValidNumber : Bytes → Bool
  | [] => false
  | c :: cs =>
    match NumState.first c with
    | some st => numberFrom st cs
    | none => false

/-! ## The scanner -/

/-- White space between tokens. -/
def isSpace (c : UInt8) : Bool := c == 32 || c == 9 || c == 13 || c == 10

/-- White space is skipped. -/
def skipSpace (s : Bytes) : Bytes := s.dropWhile isSpace

/-- What was read of `s` when `rest` is left. -/
def consumed (s rest : Bytes) : Bytes := s.take (s.length - rest.length)

/-- Skip a fixed word. -/
def skipWord : Bytes → Bytes → Option Bytes
  | [], s => some s
  | _ :: _, [] => none
  | w :: ws, c :: cs => if w = c then skipWord ws cs else none

/-- Skip a literal: a string, a number or one of the three words. -/
def skipLiteral : Bytes → Option Bytes
  | [] => none
  | c :: cs =>
    if c = 34 then skipString .body cs
    else if c = 116 then skipWord (utf8 "rue") cs
    else if c = 102 then skipWord (utf8 "alse") cs
    else if c = 110 then skipWord (utf8 "ull") cs
    else
      match NumState.first c with
      | some st => skipNumber st cs
      | none => none

/-- Elements of an array up to its closing bracket; `s` starts at an element. -/
def scanElems (value : Bytes → Option (Token × Bytes)) : Nat → Bytes → Option (List Token × Bytes)
  | 0, _ => none
  | fuel + 1, s => do
      let (v, rest) ← value s
      match skipSpace rest with
      | 44 :: t => do
          let (vs, rest') ← scanElems value fuel (skipSpace t)
          some (v :: vs, rest')
      | 93 :: t => some ([v], t)
      | _ => none

/-- Members of an object up to its closing brace; `s` starts at a key. -/
def scanMembers (value : Bytes → Option (Token × Bytes)) :
    Nat → Bytes → Option (List (Bytes × Token) × Bytes)
  | 0, _ => none
  | _ + 1, [] => none
  | fuel + 1, c :: cs =>
    if c = 34 then do
      let afterKey ← skipString .body cs
      let key := consumed (c :: cs) afterKey
      match skipSpace afterKey with
      | 58 :: t => do
          let (v, rest) ← value (skipSpace t)
          match skipSpace rest with
          | 44 :: t' => do
              let (ms, rest') ← scanMembers value fuel (skipSpace t')
              some ((key, v) :: ms, rest')
          | 125 :: t' => some ([(key, v)], t')
          | _ => none
      | _ => none
    else none

/-- Scan one value. The first argument is the number of nested arrays and objects still allowed. -/
def scanValue : Nat → Bytes → Option (Token × Bytes)
  | depth, s => do
    match depth, s with
    | d + 1, 91 :: cs =>
      let body := skipSpace cs
      let (elems, rest) ←
        if body.head? = some 93 then some ([], body.tail)
        else scanElems (scanValue d) body.length body
      some (.array (consumed s rest) elems, rest)
    | d + 1, 123 :: cs =>
      let body := skipSpace cs
      let (members, rest) ←
        if body.head? = some 125 then some ([], body.tail)
        else scanMembers (scanValue d) body.length body
      some (.object (consumed s rest) members, rest)
    | _, _ =>
      let rest ← skipLiteral s
      some (.literal (consumed s rest), rest)

/-- The scanner's limit on nested values. -/
def maxNestingDepth : Nat := 10000

/-- A whole document: one value with nothing but white space around it. -/
def scanDocument (s : Bytes) : Option Token := do
  let (v, rest) ← scanValue maxNestingDepth (skipSpace s)
  if skipSpace rest = [] then some v else none

/-! ## The writer -/

/-- A value handed to `json.Marshal`. A number is the text `json.Marshal` gives it; a structure is an
object with its fields in declaration order, a map an object with its keys sorted. -/
inductive Any where
  | bool (b : Bool)
  | number (text : Bytes)
  | string (s : Bytes)
  | array (elems : List Any)
  | object (members : List (Bytes × Any))
  deriving Repr

mutual

/-- `json.Marshal`; `esc` is the encoder's `SetEscapeHTML`. -/
def marshal (esc : Bool) : Any → Bytes
  | .bool b => if b then utf8 "true" else utf8 "false"
  | .number text => text
  | .string s => quote esc s
  | .array elems => 91 :: marshalElems esc elems ++ [93]
  | .object members => 123 :: marshalMembers esc members ++ [125]

def marshalElems (esc : Bool) : List Any → Bytes
  | [] => []
  | e :: es => marshal esc e ++ marshalElemsTail esc es

def marshalElemsTail (esc : Bool) : List Any → Bytes
  | [] => []
  | e :: es => 44 :: marshal esc e ++ marshalElemsTail esc es

def marshalMembers (esc : Bool) : List (Bytes × Any) → Bytes
  | [] => []
  | (k, v) :: ms => quote esc k ++ 58 :: marshal esc v ++ marshalMembersTail esc ms

def marshalMembersTail (esc : Bool) : List (Bytes × Any) → Bytes
  | [] => []
  | (k, v) :: ms => 44 :: quote esc k ++ 58 :: marshal esc v ++ marshalMembersTail esc ms

end

mutual

/-- The value the scanner gives back for a written value. -/
def tokenOf (esc : Bool) : Any → Token
  | .array elems => .array (marshal esc (.array elems)) (tokensOf esc elems)
  | .object members => .object (marshal esc (.object members)) (membersOf esc members)
  | .bool b => .literal (marshal esc (.bool b))
  | .number text => .literal text
  | .string s => .literal (quote esc s)

def tokensOf (esc : Bool) : List Any → List Token
  | [] => []
  | e :: es => tokenOf esc e :: tokensOf esc es

def membersOf (esc : Bool) : List (Bytes × Any) → List (Bytes × Token)
  | [] => []
  | (k, v) :: ms => (quote esc k, tokenOf esc v) :: membersOf esc ms

end

mutual

/-- Numbers are numbers, strings and keys are UTF-8, and values are nested at most `d` deep. -/
def Writable : Nat → Any → Prop
  | _, .bool _ => True
  | _, .number text => isValidNumber text = true
  | _, .string s => ValidUtf8 s
  | 0, .array _ => False
  | 0, .object _ => False
  | d + 1, .array elems => WritableElems d elems
  | d + 1, .object members => WritableMembers d members

def WritableElems : Nat → List Any → Prop
  | _, [] => True
  | d, e :: es => Writable d e ∧ WritableElems d es

def WritableMembers : Nat → List (Bytes × Any) → Prop
  | _, [] => True
  | d, (k, v) :: ms => ValidUtf8 k ∧ Writable d v ∧ WritableMembers d ms

end

/-! ## Scanning what was written -/

variable {esc : Bool}

/-- The text behind a value ends it: it is empty or starts with `,`, `]`, `}` or white space. -/
def Delimited : Bytes → Prop
  | [] => True
  | c :: _ => c = 44 ∨ c = 93 ∨ c = 125 ∨ isSpace c = true

@[simp] theorem consumed_append (s rest : Bytes) : consumed (s ++ rest) rest = s := by
  simp [consumed]

variable {c : UInt8}

theorem next_eq_none_of_delimiter
    (h : c = 44 ∨ c = 93 ∨ c = 125 ∨ isSpace c = true) (st : NumState) : st.next c = none := by
  have hc : c = 44 ∨ c = 93 ∨ c = 125 ∨ c = 32 ∨ c = 9 ∨ c = 13 ∨ c = 10 := by
    simpa [isSpace, or_assoc] using h
  rcases hc with rfl | rfl | rfl | rfl | rfl | rfl | rfl <;> cases st <;> decide

variable {text rest : Bytes}

theorem skipNumber_append (hrest : Delimited rest) :
    ∀ st, numberFrom st text = true → skipNumber st (text ++ rest) = some rest := by
  induction text with
  | nil =>
    intro st h
    simp only [numberFrom] at h
    cases rest with
    | nil => simp [skipNumber, h]
    | cons c cs => simp [skipNumber, next_eq_none_of_delimiter hrest st, h]
  | cons c cs ih =>
    intro st h
    simp only [numberFrom] at h
    cases hst : st.next c with
    | none => simp [hst] at h
    | some st' =>
      simp only [hst] at h
      simp only [List.cons_append, skipNumber, hst]
      exact ih st' h

/-- The first octet of a number: a minus sign or a digit. -/
theorem isValidNumber_head {cs : Bytes} (h : isValidNumber (c :: cs) = true) : c = 45 ∨ isDigit c = true := by
  simp only [isValidNumber, NumState.first] at h
  split_ifs at h with h1 h2 h3
  · exact Or.inl h1
  · exact Or.inr (by rw [h2]; decide)
  · exact Or.inr h3

theorem skipLiteral_number (h : isValidNumber text = true)
    (hrest : Delimited rest) : skipLiteral (text ++ rest) = some rest := by
  cases text with
  | nil => simp [isValidNumber] at h
  | cons c cs =>
    have hc := isValidNumber_head h
    have hne : c ≠ 34 ∧ c ≠ 116 ∧ c ≠ 102 ∧ c ≠ 110 := by
      refine ⟨?_, ?_, ?_, ?_⟩ <;> rintro rfl <;> revert hc <;> decide
    simp only [isValidNumber] at h
    simp only [List.cons_append, skipLiteral, hne.1, hne.2.1, hne.2.2.1, hne.2.2.2, if_false]
    cases hst : NumState.first c with
    | none => simp [hst] at h
    | some st =>
      simp only [hst] at h
      exact skipNumber_append hrest st h

theorem skipLiteral_quote {s : Bytes} (hs : ValidUtf8 s) (rest : Bytes) :
    skipLiteral (quote esc s ++ rest) = some rest := by
  simp only [quote, List.cons_append, List.append_assoc, List.nil_append, skipLiteral, if_true]
  exact skipString_quoteBody hs esc rest

/-- A literal is scanned as its own text. -/
theorem scanValue_literal (d : Nat) (h91 : (text ++ rest).head? ≠ some 91)
    (h123 : (text ++ rest).head? ≠ some 123) (h : skipLiteral (text ++ rest) = some rest) :
    scanValue d (text ++ rest) = some (.literal text, rest) := by
  have hlit : scanValue d (text ++ rest) = (do
      let rest' ← skipLiteral (text ++ rest)
      some (.literal (consumed (text ++ rest) rest'), rest')) := by
    unfold scanValue
    split
    · rename_i heq
      simp [heq] at h91
    · rename_i heq
      simp [heq] at h123
    · rfl
  rw [hlit, h]
  simp

/-- How a written value starts. -/
theorem marshal_head (esc : Bool) {d : Nat} {a : Any} (h : Writable d a) :
    ∃ c cs, marshal esc a = c :: cs ∧ isSpace c = false ∧ c ≠ 93 := by
  cases a with
  | bool b =>
    cases b
    · exact ⟨102, utf8 "alse", rfl, by decide, by decide⟩
    · exact ⟨116, utf8 "rue", rfl, by decide, by decide⟩
  | number text =>
    cases text with
    | nil => simp [Writable, isValidNumber] at h
    | cons c cs =>
      refine ⟨c, cs, rfl, ?_⟩
      have hc := isValidNumber_head (by simpa [Writable] using h)
      rcases hc with rfl | hc
      · decide
      · have hne : c ≠ 32 ∧ c ≠ 9 ∧ c ≠ 13 ∧ c ≠ 10 ∧ c ≠ 93 := by
          refine ⟨?_, ?_, ?_, ?_, ?_⟩ <;> rintro rfl <;> revert hc <;> decide
        exact ⟨by simp [isSpace, hne], hne.2.2.2.2⟩
  | string s => exact ⟨34, _, by simp [marshal, quote]; rfl, by decide, by decide⟩
  | array elems => exact ⟨91, _, by simp [marshal]; rfl, by decide, by decide⟩
  | object members => exact ⟨123, _, by simp [marshal]; rfl, by decide, by decide⟩

theorem skipSpace_cons (h : isSpace c = false) (cs : Bytes) : skipSpace (c :: cs) = c :: cs := by
  simp [skipSpace, h]

theorem skipSpace_marshal {d : Nat} {a : Any} (h : Writable d a) (t : Bytes) :
    skipSpace (marshal esc a ++ t) = marshal esc a ++ t := by
  obtain ⟨c, cs, hm, hc, -⟩ := marshal_head esc h
  rw [hm, List.cons_append, skipSpace_cons hc]

theorem skipSpace_quote (k t : Bytes) : skipSpace (quote esc k ++ t) = quote esc k ++ t := by
  exact skipSpace_cons (by decide) _

theorem marshalElems_cons_cons (e e' : Any) (es : List Any) :
    marshalElems esc (e :: e' :: es) = marshal esc e ++ 44 :: marshalElems esc (e' :: es) := by
  simp [marshalElems, marshalElemsTail]

theorem marshalMembers_cons_cons (k : Bytes) (v : Any) (m : Bytes × Any) (ms : List (Bytes × Any)) :
    marshalMembers esc ((k, v) :: m :: ms) =
      quote esc k ++ 58 :: marshal esc v ++ 44 :: marshalMembers esc (m :: ms) := by
  obtain ⟨k', v'⟩ := m
  simp [marshalMembers, marshalMembersTail]

section Containers

variable {value : Bytes → Option (Token × Bytes)} {v : Token} {s t rest : Bytes} {fuel : Nat}

theorem scanElems_last (hv : value (s ++ 93 :: rest) = some (v, 93 :: rest)) :
    scanElems value (fuel + 1) (s ++ 93 :: rest) = some ([v], rest) := by
  simp [scanElems, hv, skipSpace_cons (show isSpace 93 = false by decide)]

theorem scanElems_more {vs : List Token} (hv : value (s ++ 44 :: t) = some (v, 44 :: t))
    (ht : skipSpace t = t) (hrec : scanElems value fuel t = some (vs, rest)) :
    scanElems value (fuel + 1) (s ++ 44 :: t) = some (v :: vs, rest) := by
  simp [scanElems, hv, skipSpace_cons (show isSpace 44 = false by decide), ht, hrec]

/-- The key and the colon of a member. -/
theorem scanMembers_key {k : Bytes} (hk : ValidUtf8 k) :
    scanMembers value (fuel + 1) (quote esc k ++ 58 :: t) = (do
      let (v, rest) ← value (skipSpace t)
      match skipSpace rest with
      | 44 :: t' => do
          let (ms, rest') ← scanMembers value fuel (skipSpace t')
          some ((quote esc k, v) :: ms, rest')
      | 125 :: t' => some ([(quote esc k, v)], t')
      | _ => none) := by
  have hskip : skipString .body (quoteBody esc k ++ 34 :: 58 :: t) = some (58 :: t) :=
    skipString_quoteBody hk esc _
  have hquote : quote esc k ++ 58 :: t = 34 :: (quoteBody esc k ++ 34 :: 58 :: t) := by
    simp [quote]
  have hkey : consumed (34 :: (quoteBody esc k ++ 34 :: 58 :: t)) (58 :: t) = quote esc k := by
    rw [← hquote, consumed_append]
  rw [hquote]
  simp only [scanMembers, if_true, hskip, Option.bind_eq_bind, Option.bind_some, hkey,
    skipSpace_cons (show isSpace 58 = false by decide)]

theorem scanMembers_last {k : Bytes} (hk : ValidUtf8 k) (hs : skipSpace (s ++ 125 :: rest) = s ++ 125 :: rest)
    (hv : value (s ++ 125 :: rest) = some (v, 125 :: rest)) :
    scanMembers value (fuel + 1) (quote esc k ++ 58 :: (s ++ 125 :: rest)) =
      some ([(quote esc k, v)], rest) := by
  rw [scanMembers_key hk, hs, hv]
  simp [skipSpace_cons (show isSpace 125 = false by decide)]

theorem scanMembers_more {k : Bytes} {ms : List (Bytes × Token)} (hk : ValidUtf8 k)
    (hs : skipSpace (s ++ 44 :: t) = s ++ 44 :: t)
    (hv : value (s ++ 44 :: t) = some (v, 44 :: t)) (ht : skipSpace t = t)
    (hrec : scanMembers value fuel t = some (ms, rest)) :
    scanMembers value (fuel + 1) (quote esc k ++ 58 :: (s ++ 44 :: t)) =
      some ((quote esc k, v) :: ms, rest) := by
  rw [scanMembers_key hk, hs, hv]
  simp [skipSpace_cons (show isSpace 44 = false by decide), ht, hrec]

theorem scanValue_array_nil (d : Nat) (rest : Bytes) :
    scanValue (d + 1) (91 :: 93 :: rest) = some (.array [91, 93] [], rest) := by
  have hc : consumed (91 :: 93 :: rest) rest = [91, 93] := consumed_append [91, 93] rest
  simp [scanValue, skipSpace_cons (show isSpace 93 = false by decide), hc]

theorem scanValue_array_cons {d : Nat} {vs : List Token} (hc : isSpace c = false) (h93 : c ≠ 93)
    (h : scanElems (scanValue d) (c :: s ++ 93 :: rest).length (c :: s ++ 93 :: rest) =
      some (vs, rest)) :
    scanValue (d + 1) (91 :: (c :: s ++ 93 :: rest)) = some (.array (91 :: (c :: s) ++ [93]) vs, rest) := by
  have hraw : consumed (91 :: (c :: s ++ 93 :: rest)) rest = 91 :: (c :: s) ++ [93] := by
    have : 91 :: (c :: s ++ 93 :: rest) = (91 :: (c :: s) ++ [93]) ++ rest := by simp
    rw [this, consumed_append]
  simp only [List.cons_append] at h hraw ⊢
  simp only [scanValue, skipSpace_cons hc, List.head?_cons, Option.some.injEq, h93, if_false, h,
    Option.bind_eq_bind, Option.bind_some, hraw]

theorem scanValue_object_nil (d : Nat) (rest : Bytes) :
    scanValue (d + 1) (123 :: 125 :: rest) = some (.object [123, 125] [], rest) := by
  have hc : consumed (123 :: 125 :: rest) rest = [123, 125] := consumed_append [123, 125] rest
  simp [scanValue, skipSpace_cons (show isSpace 125 = false by decide), hc]

theorem scanValue_object_cons {d : Nat} {ms : List (Bytes × Token)}
    (h : scanMembers (scanValue d) (34 :: s ++ 125 :: rest).length (34 :: s ++ 125 :: rest) =
      some (ms, rest)) :
    scanValue (d + 1) (123 :: (34 :: s ++ 125 :: rest)) =
      some (.object (123 :: (34 :: s) ++ [125]) ms, rest) := by
  have hraw : consumed (123 :: (34 :: s ++ 125 :: rest)) rest = 123 :: (34 :: s) ++ [125] := by
    have : 123 :: (34 :: s ++ 125 :: rest) = (123 :: (34 :: s) ++ [125]) ++ rest := by simp
    rw [this, consumed_append]
  simp only [List.cons_append] at h hraw ⊢
  have h125 : ¬ (34 : UInt8) = 125 := by decide
  simp only [scanValue, skipSpace_cons (show isSpace 34 = false by decide), List.head?_cons,
    Option.some.injEq, h125, if_false, h, Option.bind_eq_bind, Option.bind_some, hraw]

end Containers

theorem scanValue_bool (b : Bool) (d : Nat) (rest : Bytes) :
    scanValue d (marshal esc (.bool b) ++ rest) = some (tokenOf esc (.bool b), rest) := by
  have hfalse : utf8 "false" = [102, 97, 108, 115, 101] := by decide
  have htrue : utf8 "true" = [116, 114, 117, 101] := by decide
  cases b
  · exact scanValue_literal d (by simp [marshal, hfalse]) (by simp [marshal, hfalse]) rfl
  · exact scanValue_literal d (by simp [marshal, htrue]) (by simp [marshal, htrue]) rfl

theorem scanValue_number (d : Nat) (h : isValidNumber text = true)
    (hrest : Delimited rest) : scanValue d (text ++ rest) = some (.literal text, rest) := by
  cases text with
  | nil => simp [isValidNumber] at h
  | cons c cs =>
    have hc := isValidNumber_head h
    have hne : c ≠ 91 ∧ c ≠ 123 := by
      constructor <;> rintro rfl <;> revert hc <;> decide
    exact scanValue_literal d (by simp [hne]) (by simp [hne]) (skipLiteral_number h hrest)

theorem scanValue_quote {s : Bytes} (hs : ValidUtf8 s) (d : Nat) (rest : Bytes) :
    scanValue d (quote esc s ++ rest) = some (.literal (quote esc s), rest) :=
  scanValue_literal d (by simp [quote]) (by simp [quote]) (skipLiteral_quote hs rest)

mutual

/-- What was written is scanned as the value it was written from, up to the delimiter behind it. -/
theorem scanValue_marshal : ∀ (a : Any) (d : Nat) (rest : Bytes), Writable d a → Delimited rest →
    scanValue d (marshal esc a ++ rest) = some (tokenOf esc a, rest)
  | .bool b, d, rest, _, _ => scanValue_bool b d rest
  | .number text, d, rest, h, hrest => by
      simpa only [marshal, tokenOf] using scanValue_number d h hrest
  | .string s, d, rest, h, _ => by
      simpa only [marshal, tokenOf] using scanValue_quote h d rest
  | .array elems, 0, rest, h, _ => by simp [Writable] at h
  | .array [], d + 1, rest, _, _ => by
      simpa [marshal, marshalElems, tokenOf, tokensOf] using scanValue_array_nil d rest
  | .array (e :: es), d + 1, rest, h, _ => by
      have hscan := scanElems_marshal (e :: es) d (marshalElems esc (e :: es) ++ 93 :: rest).length rest
        (List.cons_ne_nil _ _) h (by simp)
      obtain ⟨c, cs, hm, hc, h93⟩ := marshal_head esc h.1
      have hcons : marshalElems esc (e :: es) = c :: (cs ++ marshalElemsTail esc es) := by
        simp [marshalElems, hm]
      rw [hcons] at hscan
      have := scanValue_array_cons hc h93 hscan
      simpa only [marshal, hcons, tokenOf, List.cons_append, List.append_assoc, List.nil_append]
        using this
  | .object members, 0, rest, h, _ => by simp [Writable] at h
  | .object [], d + 1, rest, _, _ => by
      simpa [marshal, marshalMembers, tokenOf, membersOf] using scanValue_object_nil d rest
  | .object ((k, v) :: ms), d + 1, rest, h, _ => by
      have hscan := scanMembers_marshal ((k, v) :: ms) d
        (marshalMembers esc ((k, v) :: ms) ++ 125 :: rest).length rest (List.cons_ne_nil _ _) h (by simp)
      obtain ⟨cs, hcons⟩ : ∃ cs, marshalMembers esc ((k, v) :: ms) = 34 :: cs := by
        simp [marshalMembers, quote]
      rw [hcons] at hscan
      have := scanValue_object_cons hscan
      simpa only [marshal, hcons, tokenOf, List.cons_append, List.append_assoc, List.nil_append]
        using this

theorem scanElems_marshal : ∀ (es : List Any) (d fuel : Nat) (rest : Bytes), es ≠ [] →
    WritableElems d es → (marshalElems esc es).length < fuel →
      scanElems (scanValue d) fuel (marshalElems esc es ++ 93 :: rest) = some (tokensOf esc es, rest)
  | [], _, _, _, h, _, _ => absurd rfl h
  | [e], d, fuel, rest, _, h, hfuel => by
      obtain ⟨fuel, rfl⟩ : ∃ k, fuel = k + 1 := ⟨fuel - 1, by omega⟩
      simp only [marshalElems, marshalElemsTail, List.append_nil, tokensOf]
      exact scanElems_last (scanValue_marshal e d _ h.1 (Or.inr (Or.inl rfl)))
  | e :: e' :: es, d, fuel, rest, _, h, hfuel => by
      obtain ⟨fuel, rfl⟩ : ∃ k, fuel = k + 1 := ⟨fuel - 1, by omega⟩
      rw [marshalElems_cons_cons, List.length_append, List.length_cons] at hfuel
      have hrec := scanElems_marshal (e' :: es) d fuel rest (List.cons_ne_nil _ _) h.2 (by omega)
      have hsp : skipSpace (marshalElems esc (e' :: es) ++ 93 :: rest) =
          marshalElems esc (e' :: es) ++ 93 :: rest := by
        simp only [marshalElems, List.append_assoc]
        exact skipSpace_marshal h.2.1 _
      rw [marshalElems_cons_cons, List.append_assoc, List.cons_append]
      exact scanElems_more (scanValue_marshal e d _ h.1 (Or.inl rfl)) hsp hrec

theorem scanMembers_marshal : ∀ (ms : List (Bytes × Any)) (d fuel : Nat) (rest : Bytes), ms ≠ [] →
    WritableMembers d ms → (marshalMembers esc ms).length < fuel →
      scanMembers (scanValue d) fuel (marshalMembers esc ms ++ 125 :: rest) = some (membersOf esc ms, rest)
  | [], _, _, _, h, _, _ => absurd rfl h
  | [(k, v)], d, fuel, rest, _, h, hfuel => by
      obtain ⟨fuel, rfl⟩ : ∃ k, fuel = k + 1 := ⟨fuel - 1, by omega⟩
      simp only [marshalMembers, marshalMembersTail, List.append_nil, List.append_assoc,
        List.cons_append, membersOf]
      exact scanMembers_last h.1 (skipSpace_marshal h.2.1 _)
        (scanValue_marshal v d _ h.2.1 (Or.inr (Or.inr (Or.inl rfl))))
  | (k, v) :: m :: ms, d, fuel, rest, _, h, hfuel => by
      obtain ⟨fuel, rfl⟩ : ∃ k, fuel = k + 1 := ⟨fuel - 1, by omega⟩
      rw [marshalMembers_cons_cons] at hfuel
      simp only [List.length_append, List.length_cons] at hfuel
      have hrec := scanMembers_marshal (m :: ms) d fuel rest (List.cons_ne_nil _ _) h.2.2 (by omega)
      have hsp : skipSpace (marshalMembers esc (m :: ms) ++ 125 :: rest) =
          marshalMembers esc (m :: ms) ++ 125 :: rest := by
        obtain ⟨k', v'⟩ := m
        simp only [marshalMembers, List.append_assoc]
        exact skipSpace_quote k' _
      rw [marshalMembers_cons_cons]
      simp only [List.append_assoc, List.cons_append]
      exact scanMembers_more h.1 (skipSpace_marshal h.2.1 _)
        (scanValue_marshal v d _ h.2.1 (Or.inl rfl)) hsp hrec

end

/-- A written document is scanned as the value it was written from. -/
theorem scanDocument_marshal {a : Any} (h : Writable maxNestingDepth a) :
    scanDocument (marshal esc a) = some (tokenOf esc a) := by
  have hscan : scanValue maxNestingDepth (marshal esc a ++ []) = some (tokenOf esc a, []) :=
    scanValue_marshal a maxNestingDepth [] h trivial
  have hsp : skipSpace (marshal esc a ++ []) = marshal esc a ++ [] := skipSpace_marshal h []
  rw [List.append_nil] at hscan hsp
  have hnil : skipSpace [] = [] := rfl
  simp [scanDocument, hsp, hscan, hnil]

/-! ## The strings of a document -/

mutual

/-- The strings of a scanned value, keys included. -/
def Token.strings : Token → List Bytes
  | .literal raw => (unquote raw).toList
  | .array _ elems => Token.elemStrings elems
  | .object _ members => Token.memberStrings members

def Token.elemStrings : List Token → List Bytes
  | [] => []
  | e :: es => e.strings ++ Token.elemStrings es

def Token.memberStrings : List (Bytes × Token) → List Bytes
  | [] => []
  | (k, v) :: ms => (unquote k).toList ++ (v.strings ++ Token.memberStrings ms)

end

mutual

/-- The strings of a value that is written, keys included. -/
def Any.strings : Any → List Bytes
  | .bool _ => []
  | .number _ => []
  | .string s => [s]
  | .array elems => Any.elemStrings elems
  | .object members => Any.memberStrings members

def Any.elemStrings : List Any → List Bytes
  | [] => []
  | e :: es => e.strings ++ Any.elemStrings es

def Any.memberStrings : List (Bytes × Any) → List Bytes
  | [] => []
  | (k, v) :: ms => k :: (v.strings ++ Any.memberStrings ms)

end

theorem unquote_number (h : isValidNumber text = true) : unquote text = none := by
  cases text with
  | nil => rfl
  | cons c cs =>
    have hc : c ≠ 34 := by
      rintro rfl
      have hhead := isValidNumber_head h
      revert hhead
      decide
    exact if_pos (.inr (.inl (by simpa using hc)))

mutual

/-- What is written holds the strings it was written from. -/
theorem strings_tokenOf : ∀ (a : Any) (d : Nat), Writable d a → (tokenOf esc a).strings = a.strings
  | .bool b, _, _ => by cases b <;> rfl
  | .number text, _, h => by
      simp [tokenOf, Token.strings, Any.strings, unquote_number h]
  | .string s, _, h => by
      simp [tokenOf, Token.strings, Any.strings, unquote_quote h]
  | .array elems, 0, h => by simp [Writable] at h
  | .array elems, d + 1, h => by
      simpa [tokenOf, Token.strings, Any.strings] using elemStrings_tokensOf elems d h
  | .object members, 0, h => by simp [Writable] at h
  | .object members, d + 1, h => by
      simpa [tokenOf, Token.strings, Any.strings] using memberStrings_membersOf members d h

theorem elemStrings_tokensOf : ∀ (es : List Any) (d : Nat), WritableElems d es →
    Token.elemStrings (tokensOf esc es) = Any.elemStrings es
  | [], _, _ => rfl
  | e :: es, d, h => by
      rw [tokensOf, Token.elemStrings, strings_tokenOf e d h.1, elemStrings_tokensOf es d h.2, Any.elemStrings]

theorem memberStrings_membersOf : ∀ (ms : List (Bytes × Any)) (d : Nat), WritableMembers d ms →
    Token.memberStrings (membersOf esc ms) = Any.memberStrings ms
  | [], _, _ => rfl
  | (k, v) :: ms, d, h => by
      rw [membersOf, Token.memberStrings, unquote_quote h.1 esc, strings_tokenOf v d h.2.1,
        memberStrings_membersOf ms d h.2.2, Any.memberStrings]
      rfl

end

/-! ## What a scan leaves -/

section Rest

variable {s rest : Bytes}

theorem suffix_of_skipString {st : StringState} (h : skipString st s = some rest) : rest <:+ s := by
  fun_induction skipString st s <;> grind [List.suffix_cons_iff]

theorem suffix_of_skipNumber {st : NumState} (h : skipNumber st s = some rest) : rest <:+ s := by
  fun_induction skipNumber st s <;> grind [List.suffix_cons_iff]

theorem suffix_of_skipWord {word : Bytes} (h : skipWord word s = some rest) : rest <:+ s := by
  fun_induction skipWord word s <;> grind [List.suffix_cons_iff]

theorem suffix_of_skipLiteral (h : skipLiteral s = some rest) : rest <:+ s := by
  unfold skipLiteral at h
  grind [List.suffix_cons_iff, suffix_of_skipString, suffix_of_skipWord, suffix_of_skipNumber]

theorem skipSpace_suffix (s : Bytes) : skipSpace s <:+ s := List.dropWhile_suffix _

section

variable {value : Bytes → Option (Token × Bytes)}
  (hvalue : ∀ {s v rest}, value s = some (v, rest) → rest <:+ s)

include hvalue

theorem suffix_of_scanElems {fuel : Nat} {elems : List Token}
    (h : scanElems value fuel s = some (elems, rest)) : 93 :: rest <:+ s := by
  fun_induction scanElems value fuel s generalizing elems <;>
    grind [List.suffix_cons_iff, skipSpace_suffix, Option.bind_eq_some_iff]

/-- The members of an object end with its brace. -/
theorem suffix_of_scanMembers {fuel : Nat} {members : List (Bytes × Token)}
    (h : scanMembers value fuel s = some (members, rest)) : 125 :: rest <:+ s := by
  induction fuel generalizing s members with
  | zero => cases h
  | succ fuel ih =>
    cases s with
    | nil => cases h
    | cons c cs =>
      rw [scanMembers] at h
      split_ifs at h
      obtain ⟨afterKey, hkey, h⟩ := Option.bind_eq_some_iff.1 h
      have hcs : skipSpace afterKey <:+ c :: cs :=
        (skipSpace_suffix _).trans ((suffix_of_skipString hkey).trans (List.suffix_cons _ _))
      split at h
      · rename_i t hcolon
        obtain ⟨⟨v, behind⟩, hv, h⟩ := Option.bind_eq_some_iff.1 h
        rw [hcolon] at hcs
        have ht : skipSpace t <:+ c :: cs :=
          (skipSpace_suffix t).trans ((List.suffix_cons _ _).trans hcs)
        refine List.IsSuffix.trans ?_ ((skipSpace_suffix behind).trans ((hvalue hv).trans ht))
        dsimp only at h
        split at h
        · rename_i t' hcomma
          obtain ⟨⟨ms, rest'⟩, hms, h⟩ := Option.bind_eq_some_iff.1 h
          cases h
          rw [hcomma]
          exact (ih hms).trans ((skipSpace_suffix t').trans (List.suffix_cons _ _))
        · rename_i t' hbrace
          cases h
          rw [hbrace]
        · cases h
      · cases h

end

/-- An array or object closes at once, or after what is in it. -/
theorem suffix_of_scanBody {α : Type} {c : UInt8} {body : Bytes} {scan : Option (List α × Bytes)} {v : Token}
    (mk : List α → Bytes → Token) (hscan : ∀ {xs rest}, scan = some (xs, rest) → c :: rest <:+ body)
    (h : (if body.head? = some c then some (mk [] body.tail, body.tail)
      else scan.bind fun x => some (mk x.1 x.2, x.2)) = some (v, rest)) :
    (∃ xs, v = mk xs rest) ∧ c :: rest <:+ body := by
  split_ifs at h with hhead
  · obtain ⟨t, rfl⟩ := List.head?_eq_some_iff.1 hhead
    cases h
    exact ⟨⟨[], rfl⟩, List.suffix_rfl⟩
  · obtain ⟨⟨xs, rest'⟩, hxs, h⟩ := Option.bind_eq_some_iff.1 h
    cases h
    exact ⟨⟨xs, rfl⟩, hscan hxs⟩

/-- A value is followed by the rest, and an object stands between its braces. -/
theorem scanValue_rest {d : Nat} {v : Token} (h : scanValue d s = some (v, rest)) :
    rest <:+ s ∧ ∀ raw members, v = .object raw members → ∃ cs, s = 123 :: cs ∧ 125 :: rest <:+ cs := by
  induction d using Nat.strong_induction_on generalizing s v rest with
  | h d ih =>
  unfold scanValue at h
  split at h
  · rename_i d cs
    obtain ⟨⟨elems, rfl⟩, hbody⟩ := suffix_of_scanBody (fun xs rest => .array (consumed (91 :: cs) rest) xs)
      (suffix_of_scanElems fun hv => (ih d (Nat.lt_succ_self d) hv).1) h
    have hcs := hbody.trans (skipSpace_suffix cs)
    exact ⟨(List.suffix_cons _ _).trans (hcs.trans (List.suffix_cons _ _)), nofun⟩
  · rename_i d cs
    obtain ⟨-, hbody⟩ := suffix_of_scanBody (fun xs rest => .object (consumed (123 :: cs) rest) xs)
      (suffix_of_scanMembers fun hv => (ih d (Nat.lt_succ_self d) hv).1) h
    have hcs := hbody.trans (skipSpace_suffix cs)
    exact ⟨(List.suffix_cons _ _).trans (hcs.trans (List.suffix_cons _ _)), fun _ _ _ => ⟨cs, rfl, hcs⟩⟩
  · obtain ⟨rest', hliteral, h⟩ := Option.bind_eq_some_iff.1 h
    cases h
    exact ⟨suffix_of_skipLiteral hliteral, nofun⟩

/-- The text of an object, nested as deep as it may be, with nothing but white space around it. -/
def ObjectText (p : Bytes) : Prop :=
  ∃ d raw members rest, scanValue d (skipSpace p) = some (.object raw members, rest) ∧ skipSpace rest = []

/-- Such a text starts with a brace and ends with a brace or white space. -/
theorem ObjectText.ends {p : Bytes} (h : ObjectText p) :
    (∃ cs, skipSpace p = 123 :: cs) ∧ ∃ c, p.getLast? = some c ∧ (c = 125 ∨ isSpace c = true) := by
  obtain ⟨d, raw, members, rest, hscan, hrest⟩ := h
  obtain ⟨cs, hcs, hbrace⟩ := (scanValue_rest hscan).2 raw members rfl
  refine ⟨⟨cs, hcs⟩, ?_⟩
  have hp : 125 :: rest <:+ p := by
    refine hbrace.trans (List.IsSuffix.trans ?_ (skipSpace_suffix p))
    rw [hcs]
    exact List.suffix_cons _ _
  obtain ⟨front, rfl⟩ := hp
  have hspace : ∀ c ∈ rest, isSpace c = true := List.dropWhile_eq_nil_iff.1 hrest
  refine ⟨(125 :: rest).getLast (List.cons_ne_nil _ _), ?_, ?_⟩
  · rw [List.getLast?_append_of_ne_nil _ (List.cons_ne_nil _ _), List.getLast?_eq_some_getLast]
  · rcases List.mem_cons.1 (List.getLast_mem (List.cons_ne_nil 125 rest)) with hlast | hlast
    · exact .inl hlast
    · exact .inr (hspace _ hlast)

end Rest

end Astrate.GoLib.Json
