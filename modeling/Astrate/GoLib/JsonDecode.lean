import Astrate.GoLib.FormatFloat
import Astrate.GoLib.SortedMap

/-!
# Decoding JSON into Go values

The rules of `json.Unmarshal` for the targets the program uses, applied to scanned values: strings,
booleans, integers, pointers to them, slices of structures, structures and `any`. A decoder takes the
current value of its target and returns the new one, since members may be repeated and `null` leaves
most targets as they are; `none` is a type error.
-/

set_option autoImplicit false

namespace Astrate.GoLib.Json

open Astrate.GoLib

/-- The literal `null`. -/
def Token.isNull (t : Token) : Bool := t.raw == utf8 "null"

/-- Decode into a `string` that holds `old`. -/
def decodeString (old : Bytes) : Token → Option Bytes
  | .literal raw =>
    if raw.head? = some 110 then some old
    else if raw.head? = some 34 then unquote raw
    else none
  | _ => none

/-- Decode into a `bool` that holds `old`. -/
def decodeBool (old : Bool) : Token → Option Bool
  | .literal raw =>
    if raw.head? = some 110 then some old
    else if raw.head? = some 116 then some true
    else if raw.head? = some 102 then some false
    else none
  | _ => none

/-- Decode into an `int64`, or an `int` of 64 bits. -/
def decodeInt (old : Int) : Token → Option Int
  | .literal raw =>
    if raw.head? = some 110 then some old
    else if raw.head? = some 34 ∨ raw.head? = some 116 ∨ raw.head? = some 102 then none
    else (parseInt raw).toOption
  | _ => none

/-- Decode into a pointer: `null` is the nil pointer, anything else is decoded into the value pointed
to. -/
def decodePointer {α : Type} (elem : Token → Option α) (t : Token) : Option (Option α) :=
  if t.isNull then some none else (elem t).map some

/-- A slice over its backing array; the elements behind `len` are stale but still in place. -/
structure Slice (α : Type) where
  backing : List α
  len : Nat
  deriving DecidableEq, Repr

/-- The nil slice. -/
def Slice.nil {α : Type} : Slice α := ⟨[], 0⟩

/-- A slice without stale elements. -/
def Slice.ofList {α : Type} (xs : List α) : Slice α := ⟨xs, xs.length⟩

/-- What the slice shows of its backing array. -/
def Slice.elems {α : Type} (s : Slice α) : List α := s.backing.take s.len

/-- Decode array elements into the backing array; past its end elements start from `zero`. -/
def decodeElems {α : Type} (elem : α → Token → Option α) (zero : α) :
    List Token → List α → Option (List α)
  | [], backing => some backing
  | t :: ts, backing => do
      let v ← elem (backing.headD zero) t
      let vs ← decodeElems elem zero ts backing.tail
      some (v :: vs)

/-- Decode into a slice. Elements already there are decoded over, not reset. -/
def decodeSlice {α : Type} (elem : α → Token → Option α) (zero : α) (old : Slice α) :
    Token → Option (Slice α)
  | .literal raw => if raw.head? = some 110 then some .nil else none
  | .array _ [] => some .nil
  | .array _ (t :: ts) => do
      let backing ← decodeElems elem zero (t :: ts) old.backing
      some ⟨backing, ts.length + 1⟩
  | .object _ _ => none

/-- The folded form under which field names are compared when none is equal. Of the runes outside
ASCII only `ſ` and the Kelvin sign fold to ASCII letters; the others never make a name equal to one
of ASCII letters and are kept. -/
def foldName : Bytes → Bytes
  | 0xC5 :: 0xBF :: t => 83 :: foldName t
  | 0xE2 :: 0x84 :: 0xAA :: t => 75 :: foldName t
  | c :: t => (if 97 ≤ c ∧ c ≤ 122 then c - 32 else c) :: foldName t
  | [] => []

/-- A field of a structure: its name and how a value is decoded into it. -/
structure StructField (σ : Type) where
  name : Bytes
  set : σ → Token → Option σ

/-- The field a member name refers to. -/
def findField {σ : Type} (fields : List (StructField σ)) (name : Bytes) : Option (StructField σ) :=
  (fields.find? fun f => f.name == name).or
    (fields.find? fun f => foldName f.name == foldName name)

/-- Decode the members of an object into a structure, in order. -/
def decodeMembers {σ : Type} (fields : List (StructField σ)) (disallowUnknown : Bool) :
    σ → List (Bytes × Token) → Option σ
  | s, [] => some s
  | s, (key, v) :: ms => do
      let name ← unquote key
      match findField fields name with
      | some f => do
          let s' ← f.set s v
          decodeMembers fields disallowUnknown s' ms
      | none => if disallowUnknown then none else decodeMembers fields disallowUnknown s ms

/-- Decode into a structure that holds `old`. -/
def decodeStruct {σ : Type} (fields : List (StructField σ)) (disallowUnknown : Bool) (old : σ) :
    Token → Option σ
  | .object _ members => decodeMembers fields disallowUnknown old members
  | .literal raw => if raw.head? = some 110 then some old else none
  | .array _ _ => none

/-! ## Any value -/

/-- A value decoded into `any`, up to what a comparison sees: the keys of an object are in order, and a
zero has no sign. -/
inductive Generic where
  | null
  | bool (b : Bool)
  | number (f : Float64)
  | string (s : Bytes)
  | array (elems : List Generic)
  | object (members : List (Bytes × Generic))

/-- The number a double stands for. -/
def numberOf (f : Float64) : Float64 := if f.absBits = 0 then ⟨0⟩ else f

mutual

/-- Decode into an `any`. A number out of the range of a double is an error. -/
def decodeAny : Token → Option Generic
  | .literal raw =>
    if raw.head? = some 110 then some .null
    else if raw.head? = some 116 then some (.bool true)
    else if raw.head? = some 102 then some (.bool false)
    else if raw.head? = some 34 then (unquote raw).map .string
    else (Float64.parseFloat raw).toOption.map fun f => .number (numberOf f)
  | .array _ elems => (decodeAnyElems elems).map .array
  | .object _ members => (decodeAnyMembers members).map .object

def decodeAnyElems : List Token → Option (List Generic)
  | [] => some []
  | t :: ts => do
      let v ← decodeAny t
      let vs ← decodeAnyElems ts
      some (v :: vs)

/-- The last of several members with one key wins. -/
def decodeAnyMembers : List (Bytes × Token) → Option (List (Bytes × Generic))
  | [] => some []
  | (raw, t) :: ms => do
      let key ← unquote raw
      let v ← decodeAny t
      let rest ← decodeAnyMembers ms
      some (if (rest.lookup key).isSome then rest else SortedMap.insertEntry key v rest)

end

/-- Decode into a `map[string]any` that holds `old`: the members are put into it. -/
def decodeMap (old : List (Bytes × Generic)) : Token → Option (List (Bytes × Generic))
  | .literal raw => if raw.head? = some 110 then some [] else none
  | .array _ _ => none
  | .object _ members =>
    (decodeAnyMembers members).map fun ms => ms.foldl (fun m e => SortedMap.insertEntry e.1 e.2 m) old

mutual

/-- A decoded value as it is handed to `json.Marshal`. The writer has no value for `null`; its text is
that of a literal. -/
def Generic.toAny : Generic → Any
  | .null => .number (utf8 "null")
  | .bool b => .bool b
  | .number f => .number f.appendFloat
  | .string s => .string s
  | .array elems => .array (Generic.toAnyElems elems)
  | .object members => .object (Generic.toAnyMembers members)

def Generic.toAnyElems : List Generic → List Any
  | [] => []
  | e :: es => e.toAny :: Generic.toAnyElems es

def Generic.toAnyMembers : List (Bytes × Generic) → List (Bytes × Any)
  | [] => []
  | (k, v) :: ms => (k, v.toAny) :: Generic.toAnyMembers ms

end

/-! ## Structures with fewer fields -/

/-- The smaller structure has the fields of the larger one that matter for it. -/
def Projects {σ τ : Type} (fields : List (StructField σ)) (fields' : List (StructField τ)) (π : σ → τ) :
    Prop :=
  ∀ name s v s', ∀ f ∈ findField fields name, f.set s v = some s' →
    match findField fields' name with
    | some f' => f'.set (π s) v = some (π s')
    | none => π s' = π s

theorem decodeMembers_project {σ τ : Type} {fields : List (StructField σ)}
    {fields' : List (StructField τ)} {π : σ → τ} (h : Projects fields fields' π)
    (hless : ∀ name, findField fields name = none → findField fields' name = none)
    {ms : List (Bytes × Token)} {s s' : σ} (hs : decodeMembers fields false s ms = some s') :
    decodeMembers fields' false (π s) ms = some (π s') := by
  induction ms generalizing s with
  | nil =>
    cases hs
    rfl
  | cons m ms ih =>
    obtain ⟨key, v⟩ := m
    rw [decodeMembers] at hs ⊢
    cases hname : unquote key with
    | none => simp [hname] at hs
    | some name =>
      simp only [hname, Option.bind_eq_bind, Option.bind_some, Bool.false_eq_true, if_false] at hs ⊢
      cases hfield : findField fields name with
      | none =>
        rw [hfield] at hs
        rw [hless name hfield]
        exact ih hs
      | some f =>
        rw [hfield] at hs
        obtain ⟨s₁, hs₁, hs⟩ := Option.bind_eq_some_iff.1 hs
        have hset := h name s v s₁ f hfield hs₁
        cases hfield' : findField fields' name with
        | none =>
          rw [hfield'] at hset
          rw [← hset]
          exact ih hs
        | some f' =>
          rw [hfield'] at hset
          dsimp only at hset ⊢
          rw [hset, Option.bind_some]
          exact ih hs

theorem decodeStruct_project {σ τ : Type} {fields : List (StructField σ)}
    {fields' : List (StructField τ)} {π : σ → τ} (h : Projects fields fields' π)
    (hless : ∀ name, findField fields name = none → findField fields' name = none)
    {t : Token} {s s' : σ} (hs : decodeStruct fields false s t = some s') :
    decodeStruct fields' false (π s) t = some (π s') := by
  cases t with
  | object raw members => exact decodeMembers_project h hless hs
  | array raw elems => cases hs
  | literal raw =>
    simp only [decodeStruct] at hs ⊢
    split_ifs at hs ⊢
    cases hs
    rfl

/-! ## Decoded literals -/

theorem isNull_literal {c : UInt8} {s : Bytes} (h : c ≠ 110) : (Token.literal (c :: s)).isNull = false := by
  have hnull : utf8 "null" = [110, 117, 108, 108] := by decide
  rw [Token.isNull, hnull, beq_eq_false_iff_ne]
  intro heq
  exact h (List.cons.inj heq).1

theorem isNull_quote {esc : Bool} (s : Bytes) : (Token.literal (quote esc s)).isNull = false :=
  isNull_literal (by decide)

/-- A string token is read as the string it quotes. -/
theorem decodeString_quote {esc : Bool} {s : Bytes} (hs : ValidUtf8 s) :
    decodeString [] (.literal (quote esc s)) = some s := by
  have hhead : (quote esc s).head? = some 34 := rfl
  exact unquote_quote hs esc

end Astrate.GoLib.Json
