import Astrate.Payload.Codec

/-!
# What decoding returns

Two facts about every decoder of the codec, for any BSON driver: a failure is a rejection with a
reason, and a result is a value of the declared type within the limits of the platform.
`individual_decoded` and `object_decoded` state them for the two entry points.
-/

set_option autoImplicit false

namespace Astrate.Payload

open Astrate.GoLib
open Astrate.GoLib.Bson (Driver RawValue)
open Astrate.GoLib.Json (Token)
open Astrate.InterfaceSchema (ValueType CompiledMapping)

/-! ## What a decoder meets -/

/-- A computation whose failures are rejections with a reason. -/
def Rejects {α : Type} (x : Except PayloadError α) : Prop :=
  ∀ e, x = .error e → e.reasonOf ≠ .none

/-- A computation whose failures are rejections and whose results meet `Q`. -/
structure Meets {α : Type} (Q : α → Prop) (x : Except PayloadError α) : Prop where
  rejects : Rejects x
  ok : ∀ a, x = .ok a → Q a

section Rules

variable {α β : Type} {x y : Except PayloadError α} {P : α → Prop} {Q : β → Prop}
variable {reason : RejectReason} {format : String} {args : List FmtArg}

theorem meets_ok {a : α} (h : P a) : Meets P (.ok a : Except PayloadError α) := by
  constructor
  · intro e he
    cases he
  · intro b hb
    cases hb
    exact h

theorem meets_error {e : PayloadError} (h : e.reasonOf ≠ .none) :
    Meets P (.error e : Except PayloadError α) := by
  constructor
  · intro e' he
    cases he
    exact h
  · intro a ha
    cases ha

theorem meets_rejectf (h : reason ≠ .none) :
    Meets P (rejectf reason format args : Except PayloadError α) := meets_error h

theorem Meets.bind {f : α → Except PayloadError β} (hx : Meets P x) (hf : ∀ a, P a → Meets Q (f a)) :
    Meets Q (x >>= f) := by
  cases x with
  | error e => exact meets_error (hx.rejects e rfl)
  | ok a => exact hf a (hx.ok a rfl)

theorem Meets.imp {P' : α → Prop} (hx : Meets P x) (h : ∀ a, P a → P' a) : Meets P' x :=
  ⟨hx.rejects, fun a ha => h a (hx.ok a ha)⟩

/-- The error of a rejection may be rewritten, as long as a reason stays. -/
theorem Meets.mapError {f : PayloadError → PayloadError} (hx : Meets P x)
    (hf : ∀ r, r.reason ≠ .none → (f (.reject r)).reasonOf ≠ .none) : Meets P (x.mapError f) := by
  cases x with
  | ok a => exact hx
  | error e =>
    have hreason := hx.rejects e rfl
    cases e with
    | plain f => exact absurd rfl hreason
    | reject r => exact meets_error (hf r hreason)

theorem Meets.annotate (hx : Meets P x) : Meets P (annotate format args x) :=
  hx.mapError fun _ h => h

theorem meets_ite {c : Prop} [Decidable c] (hx : c → Meets P x) (hy : ¬ c → Meets P y) :
    Meets P (if c then x else y) := by
  by_cases h : c
  · rw [if_pos h]
    exact hx h
  · rw [if_neg h]
    exact hy h

theorem meets_guard {c : Prop} [Decidable c] (h : reason ≠ .none) (hx : ¬ c → Meets P x) :
    Meets P (if c then rejectf reason format args else x) :=
  meets_ite (fun _ => meets_rejectf h) hx

end Rules

/-! ## Values are typed and bounded -/

/-- An instant of the years 1 to 9999 in whole milliseconds. -/
structure InWindow (t : Time) : Prop where
  min_le : minDateTime.nanos ≤ t.nanos
  le_max : t.nanos ≤ maxDateTime.nanos
  aligned : t.nanos % 1000000 = 0

/-- The limits of a scalar. -/
def ScalarBounded : (t : ScalarType) → t.Carrier → Prop
  | .double, f => f.Finite
  | .string, s => s.length ≤ maxStringLen ∧ ValidUtf8 s
  | .dateTime, ts => InWindow ts
  | .integer, _ | .boolean, _ | .longInteger, _ | .binaryBlob, _ => True

/-- The limits of a leaf. -/
def Leaf.Bounded : Leaf → Prop
  | .scalar t x => ScalarBounded t x
  | .array t xs => xs.length ≤ maxArrayLen ∧ ∀ x ∈ xs, ScalarBounded t x

theorem checkDouble_eq_ok_iff {f g : Float64} : checkDouble f = .ok g ↔ f.Finite ∧ f = g := by
  unfold checkDouble
  split_ifs with h
  · simp only [rejectf, reduceCtorEq, false_iff, not_and]
    intro hfin
    simp only [Float64.isNaN, Float64.isInf, Bool.or_eq_true, decide_eq_true_eq, Float64.Finite] at h hfin
    omega
  · simp only [Float64.isNaN, Float64.isInf, Bool.or_eq_true, decide_eq_true_eq] at h
    rw [Except.ok.injEq]
    refine ⟨fun heq => ⟨?_, heq⟩, And.right⟩
    rw [Float64.Finite]
    omega

theorem checkString_eq_ok {s r : Bytes} (h : checkString s = .ok r) :
    (s.length ≤ maxStringLen ∧ ValidUtf8 s) ∧ s = r := by
  unfold checkString at h
  split_ifs at h with hlen hvalid
  · cases h
  · cases h
    exact ⟨⟨by omega, (validString_iff s).1 hvalid⟩, rfl⟩
  · cases h

variable {r : Time}

theorem checkDateTime_eq_ok_iff {t : Time} : checkDateTime t = .ok r ↔
    (minDateTime.nanos ≤ t.nanos ∧ t.nanos ≤ maxDateTime.nanos) ∧ t.truncateMilli = r := by
  unfold checkDateTime
  split_ifs with h
  · simp only [rejectf, reduceCtorEq, false_iff, not_and]
    omega
  · rw [Except.ok.injEq]
    exact ⟨fun heq => ⟨by omega, heq⟩, And.right⟩

theorem dateTimeFromMillis_eq_ok_iff {ms : Int64} : dateTimeFromMillis ms = .ok r ↔
    (minDateTimeMillis ≤ ms.toInt ∧ ms.toInt ≤ maxDateTimeMillis) ∧ Time.ofUnixMilli ms.toInt = r := by
  unfold dateTimeFromMillis
  split_ifs with h
  · simp only [rejectf, reduceCtorEq, false_iff, not_and]
    omega
  · rw [Except.ok.injEq]
    exact ⟨fun heq => ⟨by omega, heq⟩, And.right⟩

variable {α β : Type} {elem : α → Except PayloadError β}

theorem collectElems_ok {as : List α} {bs : List β} : ∀ {i : Nat}, collectElems elem i as = .ok bs ↔
      List.Forall₂ (fun a b => elem a = .ok b) as bs := by
  induction as generalizing bs with
  | nil =>
    intro i
    rw [List.forall₂_nil_left_iff, collectElems, Except.ok.injEq]
    exact eq_comm
  | cons a as ih =>
    intro i
    simp only [collectElems, bind_eq_ok_iff, annotate, mapError_eq_ok_iff, Except.ok.injEq,
      List.forall₂_cons_left_iff, ih]
    constructor
    · rintro ⟨b, hb, bs', hbs, rfl⟩
      exact ⟨b, bs', hb, hbs, rfl⟩
    · rintro ⟨b, bs', hb, hbs, rfl⟩
      exact ⟨b, hb, bs', hbs, rfl⟩

theorem collectArray_ok {as : List α} {bs : List β} : collectArray as elem = .ok bs ↔
      as.length ≤ maxArrayLen ∧ List.Forall₂ (fun a b => elem a = .ok b) as bs := by
  unfold collectArray
  split_ifs with h
  · simp only [rejectf, reduceCtorEq, false_iff, not_and]
    omega
  · rw [collectElems_ok]
    exact ⟨fun hf => ⟨by omega, hf⟩, And.right⟩

theorem meets_checkDouble (f : Float64) : Meets Float64.Finite (checkDouble f) := by
  refine meets_guard (by decide) fun h => meets_ok ?_
  simp only [Float64.isNaN, Float64.isInf, Bool.or_eq_true, decide_eq_true_eq] at h
  rw [Float64.Finite]
  omega

theorem meets_doubleFromInt64 (i : Int64) : Meets Float64.Finite (doubleFromInt64 i) := by
  unfold doubleFromInt64
  refine meets_guard (by decide) fun _ => meets_ok ?_
  have hmin := i.le_toInt
  have hmax := i.toInt_lt
  exact Float64.finite_ofInt (by omega)

theorem meets_int32FromInt64 (i : Int64) : Meets (fun _ => True) (int32FromInt64 i) :=
  meets_guard (by decide) fun _ => meets_ok trivial

theorem meets_int32FromFloat64 (f : Float64) : Meets (fun _ => True) (int32FromFloat64 f) :=
  meets_guard (by decide) fun _ => meets_ok trivial

theorem meets_checkString (s : Bytes) : Meets (ScalarBounded .string) (checkString s) :=
  meets_guard (by decide) fun hlen => meets_ite
    (fun hvalid => meets_ok ⟨by omega, (validString_iff s).1 hvalid⟩) fun _ => meets_rejectf (by decide)

theorem meets_checkDateTime (t : Time) : Meets InWindow (checkDateTime t) := by
  refine meets_guard (by decide) fun h => meets_ok ?_
  simp only [minDateTime, maxDateTime, Time.ofUnixMilli, minDateTimeMillis, maxDateTimeMillis] at h
  constructor <;>
    simp only [Time.truncateMilli, minDateTime, maxDateTime, Time.ofUnixMilli, minDateTimeMillis,
      maxDateTimeMillis] <;> omega

theorem meets_dateTimeFromMillis (ms : Int64) : Meets InWindow (dateTimeFromMillis ms) := by
  refine meets_guard (by decide) fun h => meets_ok ?_
  constructor <;> simp only [minDateTime, maxDateTime, Time.ofUnixMilli] <;> omega

theorem meets_collectElems {Q : β → Prop} (h : ∀ a, Meets Q (elem a)) (as : List α) :
    ∀ i, Meets (fun bs => bs.length = as.length ∧ ∀ b ∈ bs, Q b) (collectElems elem i as) := by
  induction as with
  | nil => exact fun i => meets_ok ⟨rfl, nofun⟩
  | cons a as ih =>
    intro i
    refine (h a).annotate.bind fun b hb => (ih (i + 1)).bind fun bs hbs => meets_ok ⟨?_, ?_⟩
    · rw [List.length_cons, List.length_cons, hbs.1]
    · exact List.forall_mem_cons.2 ⟨hb, hbs.2⟩

/-- An array collected from bounded elements is bounded. -/
theorem meets_collectArray {t : ScalarType} {elem : α → Except PayloadError t.Carrier}
    (h : ∀ a, Meets (ScalarBounded t) (elem a)) (as : List α) :
    Meets (fun xs => (Leaf.array t xs).Bounded) (collectArray as elem) :=
  meets_guard (by decide) fun hlen =>
    ⟨(meets_collectElems h as 0).rejects, fun xs hxs =>
      have hmeets := (meets_collectElems h as 0).ok xs hxs
      ⟨by omega, hmeets.2⟩⟩

variable {ν μ : Type} {f : Bytes → ν → Except PayloadError μ} {T : Bytes × μ → Prop}

theorem meets_traverseEntries (h : ∀ k v, Meets (fun w => T (k, w)) (f k v)) (es : List (Bytes × ν)) :
    Meets (fun ws => (ws = [] → es = []) ∧ ∀ w ∈ ws, T w) (SortedMap.traverseEntries f es) := by
  induction es with
  | nil => exact meets_ok ⟨fun _ => rfl, nofun⟩
  | cons e es ih =>
    exact (h e.1 e.2).bind fun w hw => ih.bind fun ws hws =>
      meets_ok ⟨fun hnil => (nomatch hnil), List.forall_mem_cons.2 ⟨hw, hws.2⟩⟩

theorem meets_traverse (h : ∀ k v, Meets (fun w => T (k, w)) (f k v)) (m : SortedMap Bytes ν) :
    Meets (fun m' => (m'.entries = [] → m.entries = []) ∧ ∀ w ∈ m'.entries, T w) (m.traverse f) := by
  have hentries := meets_traverseEntries h m.entries
  constructor
  · intro e he
    unfold SortedMap.traverse at he
    split at he
    · rename_i e' he'
      cases he
      exact hentries.rejects _ he'
    · cases he
  · exact fun m' hm' => hentries.ok _ (SortedMap.traverse_ok.1 hm')

/-! ### The JSON profile -/

theorem meets_jsonNumber (t : Token) : Meets (fun _ => True) (jsonNumber t) := by
  unfold jsonNumber
  split
  · exact meets_rejectf (by decide)
  · exact meets_ite (fun _ => meets_ok trivial) fun _ => meets_rejectf (by decide)

theorem meets_jsonInt64 (num : Bytes) : Meets (fun _ => True) (jsonInt64 num) := by
  unfold jsonInt64
  split
  · exact meets_ok trivial
  · exact meets_rejectf (by decide)
  · split
    · exact meets_rejectf (by decide)
    · exact meets_guard (by decide) fun _ => meets_ok trivial

theorem meets_decodeJSONDateTime (t : Token) : Meets InWindow (decodeJSONDateTime t) := by
  refine meets_guard (by decide) fun _ => meets_ite (fun _ => ?_) fun _ => ?_
  · split
    · exact meets_rejectf (by decide)
    · split
      · exact meets_rejectf (by decide)
      · exact meets_checkDateTime _
  · split
    · exact meets_rejectf (by decide)
    · exact (meets_jsonInt64 _).bind fun ms _ => meets_dateTimeFromMillis ms

theorem meets_decodeJSONScalar (t : ScalarType) (raw : Token) :
    Meets (ScalarBounded t) (decodeJSONScalar t raw) := by
  refine meets_guard (by decide) fun _ => ?_
  cases t with
  | double =>
    refine (meets_jsonNumber raw).bind fun num _ => ?_
    split
    · exact meets_rejectf (by decide)
    · exact meets_checkDouble _
  | integer =>
    exact (meets_jsonNumber raw).bind fun num _ =>
      (meets_jsonInt64 num).bind fun i _ => meets_int32FromInt64 i
  | longInteger =>
    refine meets_ite (fun _ => ?_) fun _ =>
      (meets_jsonNumber raw).bind fun num _ => meets_jsonInt64 num
    split
    · exact meets_rejectf (by decide)
    · split
      · exact meets_rejectf (by decide)
      · exact meets_ok trivial
  | boolean =>
    dsimp only
    split
    · exact meets_rejectf (by decide)
    · exact meets_ok trivial
  | string =>
    dsimp only
    split
    · exact meets_rejectf (by decide)
    · exact meets_checkString _
  | binaryBlob =>
    dsimp only
    split
    · exact meets_rejectf (by decide)
    · split
      · exact meets_rejectf (by decide)
      · exact meets_ok trivial
  | dateTime => exact meets_decodeJSONDateTime raw

variable {vt : ValueType} {leaves : Leaves}

theorem arrayType_scalarOf (h : vt.isArray = true) : (scalarOf vt).arrayType = vt := by
  cases vt <;> first | rfl | cases h

theorem valueType_scalarOf (h : ¬ vt.isArray = true) : (scalarOf vt).valueType = vt := by
  cases vt <;> first | rfl | exact absurd rfl h

/-- A leaf of the declared type within the limits. -/
structure Leaf.Typed (l : Leaf) (vt : ValueType) : Prop where
  valueType : l.valueType = vt
  bounded : l.Bounded

theorem meets_scalar {x : Except PayloadError (scalarOf vt).Carrier} (harr : ¬ vt.isArray = true)
    (h : Meets (ScalarBounded (scalarOf vt)) x) :
    Meets (Leaf.Typed · vt) (x >>= fun x => .ok (.scalar (scalarOf vt) x)) :=
  h.bind fun _ hx => meets_ok ⟨valueType_scalarOf harr, hx⟩

theorem meets_array {elem : α → Except PayloadError (scalarOf vt).Carrier} (harr : vt.isArray = true)
    (h : ∀ a, Meets (ScalarBounded (scalarOf vt)) (elem a)) (as : List α) :
    Meets (Leaf.Typed · vt) (collectArray as elem >>= fun xs => .ok (.array (scalarOf vt) xs)) :=
  (meets_collectArray h as).bind fun _ hxs => meets_ok ⟨arrayType_scalarOf harr, hxs⟩

theorem meets_decodeJSONValue (raw : Token) : Meets (Leaf.Typed · vt) (decodeJSONValue raw vt) := by
  refine meets_ite (fun harr => meets_guard (by decide) fun _ => ?_) fun harr =>
    meets_scalar harr (meets_decodeJSONScalar _ raw)
  split
  · exact meets_array harr (meets_decodeJSONScalar _) _
  · exact meets_rejectf (by decide)

/-- An entry under a declared key, with a leaf of the type declared for it. -/
def TypedEntry (leaves : Leaves) (e : Bytes × Entry) : Prop :=
  ∃ leaf l, leaves.lookup e.1 = some leaf ∧ e.2 = .leaf l ∧ l.Typed leaf.valueType

/-- An object of at least one entry, all of them typed. -/
structure TypedObject (leaves : Leaves) (obj : SortedMap Bytes Entry) : Prop where
  ne_nil : obj.entries ≠ []
  entries : ∀ e ∈ obj.entries, TypedEntry leaves e

/-- What the decoders of an object meet. -/
def IsTypedObject (leaves : Leaves) (val : Value) : Prop :=
  ∃ obj, val = .object obj ∧ TypedObject leaves obj

theorem meets_decodeJSONEntry (key : Bytes) (raw : Token) :
    Meets (fun e => TypedEntry leaves (key, e)) (decodeJSONEntry leaves key raw) := by
  unfold decodeJSONEntry
  split
  · exact meets_rejectf (by decide)
  · rename_i leaf hleaf
    exact (meets_decodeJSONValue raw).annotate.bind fun l hl => meets_ok ⟨leaf, l, hleaf, rfl, hl⟩

theorem meets_decodeJSONObject (raw : Token) : Meets (IsTypedObject leaves) (decodeJSONObject raw leaves) := by
  unfold decodeJSONObject
  split
  · refine meets_guard (by decide) fun hnil =>
      (meets_traverse meets_decodeJSONEntry _).bind fun obj hobj => meets_ok ⟨obj, rfl, ?_, hobj.2⟩
    exact fun hempty => hnil (hobj.1 hempty)
  · exact meets_rejectf (by decide)

/-- The timestamp of an envelope is in the window. -/
def Dated {γ : Type} (r : γ × Option Time) : Prop := ∀ ts, r.2 = some ts → InWindow ts

theorem meets_dated {γ : Type} {x : Except PayloadError Time} (h : Meets InWindow x) (v : γ) :
    Meets Dated (x >>= fun ts => .ok (v, some ts)) :=
  h.bind fun _ hts => meets_ok fun _ heq => Option.some.inj heq ▸ hts

theorem meets_parseJSONTimestamp (raw : Token) : Meets InWindow (parseJSONTimestamp raw) := by
  refine (meets_decodeJSONDateTime raw).mapError fun r hr => ?_
  dsimp only
  split
  · exact RejectReason.noConfusion
  · exact hr

theorem meets_decodeJSONEnvelope (p : Bytes) : Meets Dated (decodeJSONEnvelope p) := by
  unfold decodeJSONEnvelope
  split
  · exact meets_rejectf (by decide)
  · split
    · exact meets_rejectf (by decide)
    · split
      · exact meets_ok nofun
      · exact meets_dated (meets_parseJSONTimestamp _) _

/-! ### The BSON profile -/

section Bson

variable (drv : Driver)

theorem meets_bsonMismatch {P : α → Prop} (rv : RawValue) (vt : ValueType) :
    Meets P (bsonMismatch drv rv vt : Except PayloadError α) := meets_rejectf (by decide)

theorem meets_decodeBSONEnvelope (p : Bytes) : Meets Dated (decodeBSONEnvelope drv p) := by
  refine meets_guard (by decide) fun _ => meets_guard (by decide) fun _ => ?_
  split
  · exact meets_rejectf (by decide)
  · split
    · exact meets_ok nofun
    · split
      · exact meets_rejectf (by decide)
      · exact meets_dated (meets_dateTimeFromMillis _) _

theorem meets_decodeBSONScalar (t : ScalarType) (rv : RawValue) :
    Meets (ScalarBounded t) (decodeBSONScalar drv t rv) := by
  unfold decodeBSONScalar
  cases t with
  | double =>
    refine meets_ite (fun _ => meets_checkDouble _) fun _ => meets_ite (fun _ => meets_ok ?_)
      fun _ => meets_ite (fun _ => meets_doubleFromInt64 _) fun _ => meets_bsonMismatch drv rv _
    have hmin := ((drv.int32OK rv).getD 0).le_toInt
    have hmax := ((drv.int32OK rv).getD 0).toInt_lt
    exact Float64.finite_ofInt (by omega)
  | integer =>
    exact meets_ite (fun _ => meets_ok trivial) fun _ =>
      meets_ite (fun _ => meets_int32FromInt64 _) fun _ =>
        meets_ite (fun _ => meets_int32FromFloat64 _) fun _ => meets_bsonMismatch drv rv _
  | longInteger =>
    exact meets_ite (fun _ => meets_ok trivial) fun _ => meets_ite (fun _ => meets_ok trivial)
      fun _ => meets_bsonMismatch drv rv _
  | boolean =>
    dsimp only
    split
    · exact meets_ok trivial
    · exact meets_bsonMismatch drv rv _
  | string =>
    dsimp only
    split
    · exact meets_checkString _
    · exact meets_bsonMismatch drv rv _
  | binaryBlob =>
    dsimp only
    split
    · exact meets_ok trivial
    · exact meets_bsonMismatch drv rv _
  | dateTime =>
    dsimp only
    split
    · exact meets_dateTimeFromMillis _
    · exact meets_bsonMismatch drv rv _

theorem meets_decodeBSONValue (rv : RawValue) : Meets (Leaf.Typed · vt) (decodeBSONValue drv rv vt) := by
  refine meets_ite (fun harr => ?_) fun harr => meets_scalar harr (meets_decodeBSONScalar drv _ rv)
  split
  · exact meets_bsonMismatch drv rv vt
  · split
    · exact meets_rejectf (by decide)
    · exact meets_array harr (meets_decodeBSONScalar drv _) _

/-- The loop over BSON elements keeps the map typed, and fills it. -/
theorem meets_decodeBSONElements (els : List Bytes) : ∀ out : SortedMap Bytes Entry,
    (∀ e ∈ out.entries, TypedEntry leaves e) → (els = [] → out.entries ≠ []) →
      Meets (TypedObject leaves) (decodeBSONElements drv leaves els out) := by
  induction els with
  | nil => exact fun out htyped hne => meets_ok ⟨hne rfl, htyped⟩
  | cons el els ih =>
    intro out htyped _
    unfold decodeBSONElements
    split
    · exact meets_rejectf (by decide)
    · rename_i key hkey
      split
      · exact meets_rejectf (by decide)
      · rename_i leaf hleaf
        refine meets_guard (by decide) fun _ => ?_
        split
        · exact meets_rejectf (by decide)
        · refine (meets_decodeBSONValue drv _).annotate.bind fun l hl =>
            ih _ (fun e he => ?_) fun _ => SortedMap.insert_entries_ne_nil _ _ _
          rcases SortedMap.mem_insertEntry he with rfl | he
          · exact ⟨leaf, l, hleaf, rfl, hl⟩
          · exact htyped e he

theorem meets_decodeBSONObject (rv : RawValue) :
    Meets (IsTypedObject leaves) (decodeBSONObject drv rv leaves) := by
  unfold decodeBSONObject
  split
  · exact meets_rejectf (by decide)
  · split
    · exact meets_rejectf (by decide)
    · refine meets_guard (by decide) fun hnil => (meets_decodeBSONElements drv _ _ ?_ ?_).bind
        fun out hout => meets_ok ⟨out, rfl, hout⟩
      · exact nofun
      · exact fun hempty => absurd hempty hnil

/-! ### The entry points -/

/-- The timestamp of a decoded payload: there exactly when it is declared, and in the window. -/
structure TimestampPolicy (dp : DecodedPayload) (explicit : Bool) : Prop where
  isSome : dp.timestamp.isSome = explicit
  inWindow : ∀ ts, dp.timestamp = some ts → InWindow ts

theorem meets_gate (dec : Decoder) (p : Bytes) : Meets (· ≠ .invalid) (dec.gate p) :=
  meets_guard (by decide) fun _ => meets_guard (by decide) fun h => meets_ok h

variable {γ : Type} {r : γ × Option Time}

theorem meets_finishDecode (val : Option Value) (f : Format) (explicit : Bool) (hr : Dated r) :
    Meets (fun dp => dp.value = val ∧ TimestampPolicy dp explicit) (finishDecode val r.2 f explicit) := by
  refine meets_guard (by decide) fun h => meets_ok ⟨rfl, ?_, ?_⟩
  · cases explicit <;> simp_all [Option.isSome_iff_ne_none]
  · cases explicit with
    | false => exact nofun
    | true => exact hr

/-- What `Decoder.Individual` returns: a leaf of the declared type within the limits, or the unset of
a mapping that allows it. -/
inductive IndividualDecoded (m : CompiledMapping) (dp : DecodedPayload) : Prop where
  | unset (allowed : m.allowUnset = true) (eq : dp = ⟨none, none, .empty⟩)
  | value (l : Leaf) (eq : dp.value = some (.leaf l)) (typed : l.Typed m.valueType)
      (timestamp : TimestampPolicy dp m.explicitTimestamp)

theorem meets_individual (dec : Decoder) (p : Bytes) (m : CompiledMapping) :
    Meets (IndividualDecoded m) (dec.individual drv p m) := by
  refine (meets_gate dec p).bind fun f hf => ?_
  cases f with
  | invalid => exact absurd rfl hf
  | empty =>
    exact meets_guard (by decide) fun hunset => meets_ok (.unset (by simpa using hunset) rfl)
  | bson =>
    exact (meets_decodeBSONEnvelope drv p).bind fun ⟨rv, ts⟩ hr =>
      (meets_decodeBSONValue drv rv).bind fun l hl =>
        (meets_finishDecode _ _ _ hr).imp fun dp h => .value l h.1 hl h.2
  | json =>
    exact (meets_decodeJSONEnvelope p).bind fun ⟨raw, ts⟩ hr =>
      (meets_decodeJSONValue raw).bind fun l hl =>
        (meets_finishDecode _ _ _ hr).imp fun dp h => .value l h.1 hl h.2

/-- An object lacks no required key. -/
theorem missingRequired_eq_nil_iff {obj : SortedMap Bytes Entry} :
    missingRequired leaves (some (.object obj)) = [] ↔
      ∀ e ∈ leaves, e.2.required = true → (obj.lookup e.1).isSome = true := by
  unfold missingRequired
  rw [← List.length_eq_zero_iff, List.length_mergeSort, List.length_eq_zero_iff, List.map_eq_nil_iff,
    List.filter_eq_nil_iff]
  simp [Option.isSome_iff_ne_none]

/-- What `Decoder.Object` returns: an object with typed entries under declared keys, the required ones
among them. -/
structure ObjectDecoded (leaves : Leaves) (dp : DecodedPayload) (obj : SortedMap Bytes Entry) :
    Prop where
  value : dp.value = some (.object obj)
  typed : TypedObject leaves obj
  complete : ∀ e ∈ leaves, e.2.required = true → (obj.lookup e.1).isSome = true
  timestamp : TimestampPolicy dp (objectExplicitTimestamp leaves)

theorem meets_finishObject {val : Value} (hval : IsTypedObject leaves val) (f : Format) (hr : Dated r) :
    Meets (fun dp => ∃ obj, ObjectDecoded leaves dp obj) (finishObject leaves (some val) r.2 f) := by
  obtain ⟨obj, rfl, htyped⟩ := hval
  exact meets_guard (by decide) fun hmissing => (meets_finishDecode _ _ _ hr).imp fun dp h =>
    ⟨obj, h.1, htyped, missingRequired_eq_nil_iff.1 (not_not.1 hmissing), h.2⟩

theorem meets_object (dec : Decoder) (p : Bytes) (hne : leaves ≠ []) :
    Meets (fun dp => ∃ obj, ObjectDecoded leaves dp obj) (dec.object drv p leaves) := by
  unfold Decoder.object
  rw [if_neg hne]
  refine (meets_gate dec p).bind fun f hf => ?_
  cases f with
  | invalid => exact absurd rfl hf
  | empty => exact meets_rejectf (by decide)
  | bson =>
    exact (meets_decodeBSONEnvelope drv p).bind fun ⟨rv, ts⟩ hr =>
      (meets_decodeBSONObject drv rv).bind fun val hval => meets_finishObject hval _ hr
  | json =>
    exact (meets_decodeJSONEnvelope p).bind fun ⟨raw, ts⟩ hr =>
      (meets_decodeJSONObject raw).bind fun val hval => meets_finishObject hval _ hr

end Bson

variable {drv : Driver} {dec : Decoder} {p : Bytes} {dp : DecodedPayload}

theorem individual_decoded {m : CompiledMapping} (h : dec.individual drv p m = .ok dp) :
    IndividualDecoded m dp := (meets_individual drv dec p m).ok dp h

theorem object_decoded (h : dec.object drv p leaves = .ok dp) : ∃ obj, ObjectDecoded leaves dp obj := by
  by_cases hne : leaves = []
  · rw [Decoder.object, if_pos hne] at h
    cases h
  · exact (meets_object drv dec p hne).ok dp h

end Astrate.Payload
