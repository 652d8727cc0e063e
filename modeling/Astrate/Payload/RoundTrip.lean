import Astrate.GoLib.BsonReader
import Astrate.Payload.Typed

/-!
# Round trips

What `encode` writes is sniffed as the format it was written in and decoded as the value it was
written from, datetimes cut to milliseconds (`decode_encode`). The two formats share nothing but the
shape of the argument: a lemma per scalar says what is written and what it is read back as, a lemma per
container carries that to arrays and objects, and the envelope comes last.
-/

set_option autoImplicit false

namespace Astrate.Payload

open Astrate.GoLib
open Astrate.GoLib.Json (Token Any Writable WritableElems WritableMembers tokenOf tokensOf membersOf
  marshal quote)
open Astrate.InterfaceSchema (ValueType CompiledMapping validIdentifier identByte not_mem_of_validIdentifier)

/-! ## What is lost -/

/-- A scalar as it is read back. -/
def truncateScalar : (t : ScalarType) → t.Carrier → t.Carrier
  | .dateTime, ts => ts.truncateMilli
  | .double, x | .integer, x | .boolean, x | .longInteger, x | .string, x | .binaryBlob, x => x

/-- Datetimes in whole milliseconds. -/
def Leaf.truncate : Leaf → Leaf
  | .scalar t x => .scalar t (truncateScalar t x)
  | .array t xs => .array t (xs.map (truncateScalar t))

/-- So in an entry. -/
def Entry.truncate : Entry → Entry
  | .leaf l => .leaf l.truncate
  | .nested entries => .nested entries

/-- So in a value. -/
def Value.truncate : Value → Value
  | .leaf l => .leaf l.truncate
  | .object entries => .object (entries.map Entry.truncate)

/-! ## JSON scalars -/

/-- A number token is read as its own text. -/
theorem jsonNumber_literal {text : Bytes} (h : Json.isValidNumber text = true) :
    (Token.literal text).isNull = false ∧ jsonNumber (.literal text) = .ok text ∧ text.head? ≠ some 34 := by
  cases text with
  | nil => simp [Json.isValidNumber] at h
  | cons c cs =>
    have hc := Json.isValidNumber_head h
    have hne : c ≠ 110 ∧ c ≠ 34 := by
      constructor <;> rintro rfl <;> revert hc <;> decide
    exact ⟨Json.isNull_literal hne.1, if_pos hc, by simp [hne.2]⟩

section Number

variable {raw : Bytes} (h : Json.isValidNumber raw = true)

include h

theorem decodeJSONScalar_integer :
    decodeJSONScalar .integer (.literal raw) = jsonInt64 raw >>= int32FromInt64 := by
  obtain ⟨hnull, hnumber, -⟩ := jsonNumber_literal h
  simp only [decodeJSONScalar, hnull, hnumber]
  rfl

theorem decodeJSONScalar_longInteger : decodeJSONScalar .longInteger (.literal raw) = jsonInt64 raw := by
  obtain ⟨hnull, hnumber, hhead⟩ := jsonNumber_literal h
  have hstring : ¬ (Token.literal raw).raw.head? = some 34 := hhead
  simp only [decodeJSONScalar, hnull, hnumber]
  rw [if_neg Bool.false_ne_true, if_neg hstring]
  rfl

end Number

theorem printable_of_isDigit {b : UInt8} (h : isDigit b = true) : 0 < b ∧ b < 0x80 := by
  simp only [isDigit, Bool.and_eq_true, decide_eq_true_eq] at h
  exact ⟨UInt8.lt_of_lt_of_le (by decide) h.1, UInt8.lt_of_le_of_lt h.2 (by decide)⟩

/-- The text of a number is made of digits and the minus sign. -/
theorem printable_formatInt {i : Int} {b : UInt8} (hb : b ∈ formatInt i) : 0 < b ∧ b < 0x80 := by
  unfold formatInt at hb
  split_ifs at hb
  · rcases List.mem_cons.1 hb with rfl | hb
    · decide
    · exact printable_of_isDigit (isDigit_of_mem_formatUint hb)
  · exact printable_of_isDigit (isDigit_of_mem_formatUint hb)

theorem validUtf8_formatInt (i : Int) : ValidUtf8 (formatInt i) :=
  validUtf8_of_ascii fun _ hb => (printable_formatInt hb).2

variable {t : Time}

/-- The text of a datetime is made of digits and punctuation. -/
theorem printable_formatMilli {b : UInt8} (hb : b ∈ t.formatMilli) : 0 < b ∧ b < 0x80 := by
  have hdigits : ∀ k n, ∀ b ∈ fixedDigits k n, 0 < b ∧ b < 0x80 :=
    fun k n b hb => printable_of_isDigit (isDigit_of_mem_fixedDigits hb)
  simp only [Time.formatMilli, Time.formatDate, Time.formatClock, List.mem_append, List.mem_cons,
    List.not_mem_nil, or_false] at hb
  grind

theorem validUtf8_formatMilli (t : Time) : ValidUtf8 t.formatMilli :=
  validUtf8_of_ascii fun _ hb => (printable_formatMilli hb).2

theorem jsonInt64_formatInt (i : Int64) : jsonInt64 (formatInt i.toInt) = .ok i := by
  have hmin := Int64.le_toInt i
  have hmax := Int64.toInt_lt i
  rw [jsonInt64, parseInt_formatInt hmin hmax]
  simp

theorem int32FromInt64_toInt (i : Int32) : int32FromInt64 (Int64.ofInt i.toInt) = .ok i := by
  have hmin := Int32.le_toInt i
  have hmax := Int32.toInt_lt i
  have htoInt : (Int64.ofInt i.toInt).toInt = i.toInt := by
    apply Int64.toInt_ofInt_of_le <;> omega
  unfold int32FromInt64
  rw [htoInt, if_neg (by omega)]
  simp

theorem window_of_bounds (h : minDateTime.nanos ≤ t.nanos ∧ t.nanos ≤ maxDateTime.nanos) :
    t.truncateMilli.Window := by
  simp only [minDateTime, maxDateTime, Time.ofUnixMilli, minDateTimeMillis, maxDateTimeMillis] at h
  unfold Time.Window Time.truncateMilli Time.epochDay
  simp only
  omega

theorem truncateMilli_truncateMilli (t : Time) : t.truncateMilli.truncateMilli = t.truncateMilli := by
  unfold Time.truncateMilli
  congr 1
  simp only
  omega

variable {r : Time}

/-- A datetime that passes the check passes it again, unchanged. -/
theorem checkDateTime_truncateMilli (h : checkDateTime t = .ok r) : checkDateTime r = .ok r := by
  obtain ⟨hbounds, rfl⟩ := checkDateTime_eq_ok_iff.1 h
  refine checkDateTime_eq_ok_iff.2 ⟨?_, truncateMilli_truncateMilli t⟩
  simp only [minDateTime, maxDateTime, Time.ofUnixMilli, minDateTimeMillis, maxDateTimeMillis,
    Time.truncateMilli] at hbounds ⊢
  omega

/-- A string literal of a datetime is read back, however the string is escaped. -/
theorem decodeJSONDateTime_of_string {raw : Bytes} (h : checkDateTime t = .ok r)
    (hnull : (Token.literal raw).isNull = false) (hhead : raw.head? = some 34)
    (hstring : Json.decodeString [] (.literal raw) = some r.formatMilli) :
    decodeJSONDateTime (.literal raw) = .ok r := by
  have hraw : (Token.literal raw).raw = raw := rfl
  have hne : raw ≠ [] := by
    rintro rfl
    cases hhead
  have hwindow : r.Window := by
    obtain ⟨hbounds, rfl⟩ := checkDateTime_eq_ok_iff.1 h
    exact window_of_bounds hbounds
  have htruncate : r.truncateMilli = r := by
    obtain ⟨-, rfl⟩ := checkDateTime_eq_ok_iff.1 h
    exact truncateMilli_truncateMilli t
  unfold decodeJSONDateTime
  rw [hnull, hraw, hhead, if_neg (by simp [hne]), if_pos rfl, hstring]
  dsimp only
  rw [Time.parseRFC3339Nano_formatMilli hwindow, htruncate]
  exact checkDateTime_truncateMilli h

theorem decodeJSONDateTime_formatMilli (h : checkDateTime t = .ok r) :
    decodeJSONDateTime (.literal (quote true r.formatMilli)) = .ok r :=
  decodeJSONDateTime_of_string h (Json.isNull_quote _) rfl
    (Json.decodeString_quote (validUtf8_formatMilli r))

/-- What a scalar is written as is read back as the scalar. -/
theorem decodeJSONScalar_jsonify {t : ScalarType} {x : t.Carrier} {a : Any}
    (h : jsonifyScalar t x = .ok a) (d : Nat) :
    Writable d a ∧ decodeJSONScalar t (tokenOf true a) = .ok (truncateScalar t x) := by
  cases t with
  | double =>
    obtain ⟨f, hf, ha⟩ := bind_eq_ok_iff.1 h
    obtain ⟨hfin, rfl⟩ := checkDouble_eq_ok_iff.1 hf
    cases ha
    have hvalid := Float64.isValidNumber_appendFloat x
    obtain ⟨hnull, hnumber, -⟩ := jsonNumber_literal hvalid
    refine ⟨by simpa [Writable] using hvalid, ?_⟩
    unfold decodeJSONScalar
    rw [tokenOf, hnull, if_neg Bool.false_ne_true]
    refine bind_eq_ok_iff.2 ⟨_, hnumber, ?_⟩
    rw [Float64.parseFloat_appendFloat hfin]
    exact checkDouble_eq_ok_iff.2 ⟨hfin, rfl⟩
  | integer =>
    cases h
    have hvalid := Float64.isValidNumber_formatInt (Int32.toInt x)
    refine ⟨by simpa [Writable] using hvalid, ?_⟩
    have htoInt : (Int64.ofInt (Int32.toInt x)).toInt = Int32.toInt x := by
      have hmin := Int32.le_toInt x
      have hmax := Int32.toInt_lt x
      apply Int64.toInt_ofInt_of_le <;> omega
    have hint := jsonInt64_formatInt (Int64.ofInt (Int32.toInt x))
    rw [htoInt] at hint
    rw [tokenOf, decodeJSONScalar_integer hvalid, hint]
    exact int32FromInt64_toInt x
  | boolean =>
    cases h
    refine ⟨by simp [Writable], ?_⟩
    cases x <;> rfl
  | longInteger =>
    cases h
    unfold jsonifyInt64
    split_ifs with hbig
    · have hutf8 := validUtf8_formatInt (Int64.toInt x)
      refine ⟨by simpa [Writable] using hutf8, ?_⟩
      unfold decodeJSONScalar
      rw [tokenOf, Json.isNull_quote, if_neg Bool.false_ne_true]
      rw [if_pos (show (Token.literal (quote true (formatInt (Int64.toInt x)))).raw.head? = some 34
        from rfl), Json.decodeString_quote hutf8]
      dsimp only
      rw [parseInt_formatInt (Int64.le_toInt x) (Int64.toInt_lt x)]
      simp [truncateScalar]
    · have hvalid := Float64.isValidNumber_formatInt (Int64.toInt x)
      refine ⟨by simpa [Writable] using hvalid, ?_⟩
      rw [tokenOf, decodeJSONScalar_longInteger hvalid]
      exact jsonInt64_formatInt x
  | string =>
    obtain ⟨s, hs, ha⟩ := bind_eq_ok_iff.1 h
    obtain ⟨hbounded, rfl⟩ := checkString_eq_ok hs
    cases ha
    refine ⟨by simpa [Writable] using hbounded.2, ?_⟩
    unfold decodeJSONScalar
    rw [tokenOf, Json.isNull_quote, if_neg Bool.false_ne_true]
    rw [Json.decodeString_quote hbounded.2]
    exact hs
  | binaryBlob =>
    cases h
    have hutf8 : ValidUtf8 (Base64.encodeToString x) :=
      validUtf8_of_ascii fun b hb => (Base64.encodeToString_ascii hb).1
    refine ⟨by simpa [Writable] using hutf8, ?_⟩
    unfold decodeJSONScalar
    rw [tokenOf, Json.isNull_quote, if_neg Bool.false_ne_true]
    rw [Json.decodeString_quote hutf8]
    dsimp only
    rw [Base64.decodeString_encodeToString]
    rfl
  | dateTime =>
    obtain ⟨ts, hts, ha⟩ := bind_eq_ok_iff.1 h
    cases ha
    refine ⟨by simpa [Writable] using validUtf8_formatMilli ts, ?_⟩
    unfold decodeJSONScalar
    obtain ⟨-, rfl⟩ := checkDateTime_eq_ok_iff.1 hts
    exact decodeJSONDateTime_formatMilli hts

/-! ## JSON values -/

theorem decodeJSONValue_scalar (t : ScalarType) (raw : Token) :
    decodeJSONValue raw t.valueType = (do
      let x ← decodeJSONScalar t raw
      .ok (.scalar t x)) := by
  cases t <;> rfl

theorem decodeJSONValue_array (t : ScalarType) {raw : Bytes} {elems : List Token}
    (h : (Token.array raw elems).isNull = false) :
    decodeJSONValue (.array raw elems) t.arrayType = (do
      let xs ← collectArray elems (decodeJSONScalar t)
      .ok (.array t xs)) := by
  unfold decodeJSONValue
  rw [h]
  cases t <;> rfl

/-- The elements of an array, one by one. -/
theorem decodeJSONElems_jsonify {t : ScalarType} {xs : List t.Carrier} {elems : List Any}
    (h : List.Forall₂ (fun x a => jsonifyScalar t x = .ok a) xs elems) (d : Nat) :
    WritableElems d elems ∧ List.Forall₂ (fun raw x => decodeJSONScalar t raw = .ok x)
      (tokensOf true elems) (xs.map (truncateScalar t)) := by
  induction h with
  | nil => exact ⟨by simp [WritableElems], .nil⟩
  | cons hx _ ih =>
    obtain ⟨hwritable, hdecode⟩ := decodeJSONScalar_jsonify hx d
    exact ⟨⟨hwritable, ih.1⟩, .cons hdecode ih.2⟩

theorem decodeJSONValue_jsonify {l : Leaf} {a : Any} (h : jsonifyLeaf l = .ok a) (d : Nat) :
    Writable (d + 1) a ∧ decodeJSONValue (tokenOf true a) l.valueType = .ok l.truncate := by
  cases l with
  | scalar t x =>
    obtain ⟨hwritable, hdecode⟩ := decodeJSONScalar_jsonify h (d + 1)
    refine ⟨hwritable, ?_⟩
    rw [Leaf.valueType, decodeJSONValue_scalar, hdecode]
    rfl
  | array t xs =>
    obtain ⟨elems, helems, ha⟩ := bind_eq_ok_iff.1 h
    obtain ⟨hlength, helems⟩ := collectArray_ok.1 helems
    cases ha
    obtain ⟨hwritable, hdecode⟩ := decodeJSONElems_jsonify helems d
    refine ⟨by simpa [Writable] using hwritable, ?_⟩
    have hnull : (tokenOf true (.array elems)).isNull = false := by
      exact beq_eq_false_iff_ne.2 fun heq => absurd (List.cons.inj heq).1 (by decide)
    rw [tokenOf] at hnull ⊢
    rw [Leaf.valueType, decodeJSONValue_array t hnull]
    refine bind_eq_ok_iff.2 ⟨_, collectArray_ok.2 ⟨?_, hdecode⟩, rfl⟩
    rw [hdecode.length_eq, List.length_map]
    exact hlength

/-! ## JSON objects -/

/-- An object over declared leaves: its keys are identifiers, its entries have the declared types, and
no required key is missing. -/
structure Declared (leaves : Leaves) (obj : SortedMap Bytes Entry) : Prop where
  identifiers : ∀ e ∈ obj.entries, validIdentifier e.1 = true
  entries : ∀ e ∈ obj.entries, ∃ leaf l, leaves.lookup e.1 = some leaf ∧ e.2 = .leaf l ∧
    l.valueType = leaf.valueType
  required : ∀ e ∈ leaves, e.2.required = true → (obj.lookup e.1).isSome = true

variable {leaves : Leaves} {obj : SortedMap Bytes Entry}

theorem Declared.leaves_ne_nil (h : Declared leaves obj) (hne : obj.entries ≠ []) : leaves ≠ [] := by
  obtain ⟨e, he⟩ := List.exists_mem_of_ne_nil _ hne
  obtain ⟨leaf, l, hleaf, -⟩ := h.entries e he
  rintro rfl
  cases hleaf

variable {key : Bytes}

theorem jsonifyEntry_eq_ok_iff {e : Entry} {a : Any} :
    jsonifyEntry key e = .ok a ↔ ∃ l, e = .leaf l ∧ jsonifyLeaf l = .ok a := by
  cases e with
  | leaf l => simp [jsonifyEntry, annotate, mapError_eq_ok_iff]
  | nested entries => simp [jsonifyEntry, rejectf]

/-- The members of a written object are the members it was written from. -/
theorem rawMembers_membersOf {members : SortedMap Bytes Any} (h : ∀ m ∈ members.entries, ValidUtf8 m.1) :
    rawMembers (membersOf true members.entries) = members.map (tokenOf true) := by
  have hmembers : ∀ ms : List (Bytes × Any), (∀ m ∈ ms, ValidUtf8 m.1) →
      ((membersOf true ms).filterMap fun m => (Json.unquote m.1).map fun key => (key, m.2)) =
        ms.map fun m => (m.1, tokenOf true m.2) := by
    intro ms hms
    induction ms with
    | nil => rfl
    | cons m ms ih =>
      rw [List.forall_mem_cons] at hms
      rw [membersOf, List.filterMap_cons, Json.unquote_quote hms.1 true, ih hms.2]
      rfl
  rw [rawMembers, hmembers members.entries h]
  exact SortedMap.ofList_sorted (members.map (tokenOf true))

variable {es : List (Bytes × Entry)}

/-- The entries of an object, one by one. -/
theorem decodeJSONEntries_jsonify {ms : List (Bytes × Any)} (d : Nat)
    (h : List.Forall₂ (fun e m => m.1 = e.1 ∧ jsonifyEntry e.1 e.2 = .ok m.2) es ms)
    (hdeclared : ∀ e ∈ es, ∃ leaf l, leaves.lookup e.1 = some leaf ∧ e.2 = .leaf l ∧
      l.valueType = leaf.valueType)
    (hutf8 : ∀ e ∈ es, ValidUtf8 e.1) :
    WritableMembers (d + 1) ms ∧ (∀ m ∈ ms, ValidUtf8 m.1) ∧
      List.Forall₂ (fun m e => e.1 = m.1 ∧ decodeJSONEntry leaves m.1 m.2 = .ok e.2)
        (ms.map fun m => (m.1, tokenOf true m.2)) (es.map fun e => (e.1, e.2.truncate)) := by
  induction h with
  | nil => exact ⟨by simp [WritableMembers], by simp, .nil⟩
  | @cons e m es ms hm _ ih =>
    rw [List.forall_mem_cons] at hdeclared hutf8
    obtain ⟨leaf, l, hleaf, hl, htype⟩ := hdeclared.1
    obtain ⟨hkey, hentry⟩ := hm
    obtain ⟨l', hl', hjsonify⟩ := jsonifyEntry_eq_ok_iff.1 hentry
    cases hl.symm.trans hl'
    obtain ⟨hwritable, hdecode⟩ := decodeJSONValue_jsonify hjsonify d
    obtain ⟨hrest, hkeys, hentries⟩ := ih hdeclared.2 hutf8.2
    obtain ⟨k, a⟩ := m
    obtain rfl : k = e.1 := hkey
    rw [WritableMembers, List.forall_mem_cons, List.map_cons, List.map_cons]
    refine ⟨⟨hutf8.1, hwritable, hrest⟩, ⟨hutf8.1, hkeys⟩, .cons ⟨rfl, ?_⟩ hentries⟩
    unfold decodeJSONEntry
    rw [hleaf]
    dsimp only
    rw [← htype, hdecode, hl]
    rfl

theorem validUtf8_of_validIdentifier {s : Bytes} (h : validIdentifier s = true) : ValidUtf8 s := by
  have hascii : ∀ first (c : UInt8), ¬ c < 0x80 → identByte first c = false := by
    intro first c hc
    have hnat : 128 ≤ c.toNat := by simpa [UInt8.lt_iff_toNat_lt] using hc
    have hne : ¬ c = 95 := by
      rintro rfl
      exact absurd hnat (by decide)
    simp only [identByte, Bool.or_eq_false_iff, Bool.and_eq_false_iff, decide_eq_false_iff_not,
      UInt8.le_iff_toNat_le, beq_eq_false_iff_ne, UInt8.reduceToNat]
    exact ⟨⟨⟨by omega, by omega⟩, hne⟩, by omega⟩
  apply validUtf8_of_ascii
  intro b hb
  by_contra hlt
  exact not_mem_of_validIdentifier h (hascii true b hlt) (hascii false b hlt) hb

theorem decodeJSONObject_jsonify {a : Any}
    (h : jsonifyValue (.object obj) = .ok a) (hdeclared : Declared leaves obj) (d : Nat) :
    obj.entries ≠ [] ∧ Writable (d + 2) a ∧
      decodeJSONObject (tokenOf true a) leaves = .ok (.object (obj.map Entry.truncate)) := by
  unfold jsonifyValue at h
  dsimp only at h
  split_ifs at h with hnil
  · cases h
  obtain ⟨members, hmembers, ha⟩ := bind_eq_ok_iff.1 h
  cases ha
  obtain ⟨hwritable, hkeys, hentries⟩ := decodeJSONEntries_jsonify d
    (SortedMap.traverseEntries_ok.1 (SortedMap.traverse_ok.1 hmembers)) hdeclared.entries
    fun e he => validUtf8_of_validIdentifier (hdeclared.identifiers e he)
  refine ⟨hnil, by simpa [Writable] using hwritable, ?_⟩
  have hne : (members.map (tokenOf true)).entries ≠ [] := by
    intro heq
    have hentries' := hentries
    rw [show members.entries.map (fun m => (m.1, tokenOf true m.2)) = [] from heq,
      List.forall₂_nil_left_iff] at hentries'
    exact hnil (List.map_eq_nil_iff.1 hentries')
  rw [tokenOf, decodeJSONObject, rawMembers_membersOf hkeys, if_neg hne]
  exact bind_eq_ok_iff.2 ⟨obj.map Entry.truncate,
    SortedMap.traverse_ok.2 (SortedMap.traverseEntries_ok.2 hentries), rfl⟩

/-! ## JSON documents -/

/-- A timestamp that fits the window, in whole milliseconds. -/
theorem truncateMilli_of_aligned (h : t.nanos % 1000000 = 0) : t.truncateMilli = t := by
  unfold Time.truncateMilli
  rw [h, Int.sub_zero]

/-- The document of a value that can be written. -/
theorem scanDocument_envelope {members : List (Bytes × Any)} (h : WritableMembers 9999 members) :
    Json.scanDocument (marshal true (.object members)) =
      some (.object (marshal true (.object members)) (membersOf true members)) := by
  have hwritable : Writable Json.maxNestingDepth (.object members) := by
    exact h
  rw [Json.scanDocument_marshal hwritable, tokenOf]

theorem decodeJSONEnvelope_v {jv : Any} (h : Writable 9999 jv) :
    decodeJSONEnvelope (marshal true (.object [(utf8 "v", jv)])) = .ok (tokenOf true jv, none) := by
  have hv : ValidUtf8 (utf8 "v") := validUtf8_of_ascii (by decide +kernel)
  unfold decodeJSONEnvelope
  rw [scanDocument_envelope (by simpa [WritableMembers] using ⟨hv, h⟩)]
  simp only [Option.bind_some, Json.decodeStruct, membersOf, Json.decodeMembers, Option.bind_eq_bind,
    Json.unquote_quote hv true]
  rfl

theorem decodeJSONEnvelope_vt {jv : Any} (h : Writable 9999 jv) {ts : Time} (ht : checkDateTime ts = .ok t) :
    decodeJSONEnvelope (marshal true (.object [(utf8 "v", jv), (utf8 "t", .string t.formatMilli)])) =
      .ok (tokenOf true jv, some t) := by
  have hv : ValidUtf8 (utf8 "v") := validUtf8_of_ascii (by decide +kernel)
  have hkey : ValidUtf8 (utf8 "t") := validUtf8_of_ascii (by decide +kernel)
  unfold decodeJSONEnvelope
  rw [scanDocument_envelope (by
    simpa [WritableMembers, Writable] using ⟨hv, h, hkey, validUtf8_formatMilli t⟩)]
  simp only [Option.bind_some, Json.decodeStruct, membersOf, Json.decodeMembers, Option.bind_eq_bind,
    Json.unquote_quote hv true, Json.unquote_quote hkey true, tokenOf]
  change (do
    let ts ← parseJSONTimestamp (.literal (quote true t.formatMilli))
    .ok (tokenOf true jv, some ts)) = _
  refine bind_eq_ok_iff.2 ⟨t, ?_, rfl⟩
  rw [parseJSONTimestamp, decodeJSONDateTime_formatMilli ht]
  rfl

/-- What is written as JSON is a JSON object. -/
theorem detectFormat_marshal (members : List (Bytes × Any)) :
    detectFormat (marshal true (.object members)) = .json := by
  have hlast : (marshal true (.object members)).getLast? = some 125 := by
    exact List.getLast?_concat
  unfold detectFormat
  rw [hlast, if_neg (by simp [marshal]), if_neg (by simp), marshal]
  rfl

variable {p : Bytes}

variable {ts : Option Time}

/-- What `encodeJSON` writes is the envelope of the value and the timestamp. -/
theorem encodeJSON_spec {v : Value} (h : encodeJSON v ts = .ok p)
    (haligned : ∀ t, ts = some t → t.nanos % 1000000 = 0) :
    ∃ jv, jsonifyValue v = .ok jv ∧ detectFormat p = .json ∧
      (Writable 9999 jv → decodeJSONEnvelope p = .ok (tokenOf true jv, ts)) := by
  obtain ⟨jv, hjv, h⟩ := bind_eq_ok_iff.1 h
  refine ⟨jv, hjv, ?_⟩
  cases ts with
  | none =>
    cases h
    exact ⟨detectFormat_marshal _, decodeJSONEnvelope_v⟩
  | some ts =>
    obtain ⟨t, ht, h⟩ := bind_eq_ok_iff.1 h
    cases h
    have hts : t = ts := by
      obtain ⟨-, rfl⟩ := checkDateTime_eq_ok_iff.1 ht
      exact truncateMilli_of_aligned (haligned ts rfl)
    refine ⟨detectFormat_marshal _, fun hwritable => ?_⟩
    rw [← hts]
    exact decodeJSONEnvelope_vt hwritable ht

/-! ## BSON scalars -/

section Bson

open Astrate.GoLib.Bson

theorem appendBSONHeader_eq (dst key body : Bytes) (typ : UInt8) :
    appendBSONHeader dst typ key ++ body = dst ++ elemBytes ⟨key, typ, body⟩ := by
  simp [appendBSONHeader, elemBytes]

/-- The milliseconds of a datetime that passed the check. -/
theorem dateTimeFromMillis_unixMilli (h : checkDateTime t = .ok r) :
    dateTimeFromMillis (Int64.ofInt r.unixMilli) = .ok r := by
  obtain ⟨hbounds, rfl⟩ := checkDateTime_eq_ok_iff.1 h
  simp only [minDateTime, maxDateTime, Time.ofUnixMilli, minDateTimeMillis, maxDateTimeMillis] at hbounds
  have htoInt : (Int64.ofInt t.truncateMilli.unixMilli).toInt = t.truncateMilli.unixMilli := by
    apply Int64.toInt_ofInt_of_le <;> simp only [Time.truncateMilli, Time.unixMilli] <;> omega
  refine dateTimeFromMillis_eq_ok_iff.2 ⟨?_, ?_⟩
  · rw [htoInt]
    simp only [minDateTimeMillis, maxDateTimeMillis, Time.truncateMilli, Time.unixMilli]
    omega
  · rw [htoInt]
    simp only [Time.ofUnixMilli, Time.truncateMilli, Time.unixMilli, Time.mk.injEq]
    omega

variable {d : Driver} (hd : d.Reads)

include hd

variable {dst : Bytes}

/-- What a scalar is written as: an element whose value is read back as the scalar. -/
theorem appendBSONScalar_spec {t : ScalarType} {x : t.Carrier} (h : appendBSONScalar dst key t x = .ok p) :
    ∃ rv, p = dst ++ elemBytes ⟨key, rv⟩ ∧ WellFormedBody rv.type rv.value ∧
      decodeBSONScalar d t rv = .ok (truncateScalar t x) := by
  cases t with
  | double =>
    obtain ⟨f, hf, h⟩ := bind_eq_ok_iff.1 h
    obtain ⟨hfin, rfl⟩ := checkDouble_eq_ok_iff.1 hf
    cases h
    refine ⟨_, appendBSONHeader_eq .., .double _, ?_⟩
    rw [decodeBSONScalar, if_pos rfl, hd.doubleOK]
    exact hf
  | integer =>
    cases h
    refine ⟨_, appendBSONHeader_eq .., .int32 _, ?_⟩
    rw [decodeBSONScalar, if_pos rfl, hd.int32OK]
    rfl
  | boolean =>
    cases h
    refine ⟨_, appendBSONHeader_eq .., .boolean _, ?_⟩
    rw [decodeBSONScalar, hd.booleanOK]
    rfl
  | longInteger =>
    cases h
    refine ⟨_, appendBSONHeader_eq .., .int64 _, ?_⟩
    rw [decodeBSONScalar, if_pos rfl, hd.int64OK]
    rfl
  | string =>
    obtain ⟨s, hs, h⟩ := bind_eq_ok_iff.1 h
    obtain ⟨⟨hlength, -⟩, rfl⟩ := checkString_eq_ok hs
    cases h
    have hlen : List.length x + 1 ≤ maxInt32 := by
      have hmax : maxStringLen + 1 ≤ maxInt32 := by decide
      omega
    refine ⟨⟨typeString, leBytes 4 (List.length x + 1) ++ (x ++ [0])⟩, ?_, .string x hlen, ?_⟩
    · rw [← appendBSONHeader_eq]
      simp
    · rw [decodeBSONScalar, hd.stringValueOK x hlen]
      exact hs
  | binaryBlob =>
    unfold appendBSONScalar at h
    dsimp only at h
    split_ifs at h with hbig
    · cases h
    · cases h
      have hlen : List.length x ≤ maxInt32 := by omega
      refine ⟨⟨typeBinary, leBytes 4 (List.length x) ++ 0 :: x⟩, ?_, .binary 0 x hlen, ?_⟩
      · rw [← appendBSONHeader_eq]
        simp
      · rw [decodeBSONScalar, hd.binaryOK x hlen]
        rfl
  | dateTime =>
    obtain ⟨ts, hts, h⟩ := bind_eq_ok_iff.1 h
    cases h
    refine ⟨_, appendBSONHeader_eq .., .dateTime _, ?_⟩
    rw [decodeBSONScalar, hd.dateTimeOK]
    obtain ⟨-, rfl⟩ := checkDateTime_eq_ok_iff.1 hts
    exact dateTimeFromMillis_unixMilli hts

/-! ## BSON containers -/

variable {elems : List Elem}

omit hd in
/-- Closing a document patches the length that was left open at its start. -/
theorem finishBSONDoc_spec (h : finishBSONDoc (dst ++ [0, 0, 0, 0] ++ elemsBytes elems) dst.length = .ok p) :
    p = dst ++ docBytes elems ∧ (docBytes elems).length ≤ maxInt32 := by
  have hsize : (dst ++ [0, 0, 0, 0] ++ elemsBytes elems ++ [0]).length - dst.length =
      (elemsBytes elems).length + 5 := by
    simp only [List.length_append, List.length_cons, List.length_nil]
    omega
  have htake : (dst ++ [0, 0, 0, 0] ++ elemsBytes elems ++ [0]).take dst.length = dst := by
    simp
  have hdrop : (dst ++ [0, 0, 0, 0] ++ elemsBytes elems ++ [0]).drop (dst.length + 4) =
      elemsBytes elems ++ [0] := by
    simp
  unfold finishBSONDoc at h
  dsimp only at h
  rw [hsize] at h
  split_ifs at h with hbig
  cases h
  rw [htake, hdrop, length_docBytes]
  refine ⟨?_, by omega⟩
  rw [docBytes, List.append_assoc]

theorem appendBSONElems_spec {t : ScalarType} {xs : List t.Carrier} : ∀ {i : Nat} {dst p : Bytes},
    appendBSONElems t i dst xs = .ok p →
      ∃ vals, p = dst ++ elemsBytes (indexedFrom i vals) ∧
        (∀ v ∈ vals, WellFormedBody v.type v.value) ∧
        List.Forall₂ (fun v x => decodeBSONScalar d t v = .ok x) vals (xs.map (truncateScalar t)) := by
  induction xs with
  | nil =>
    intro i dst p h
    cases h
    exact ⟨[], by simp [indexedFrom, elemsBytes], by simp, .nil⟩
  | cons x xs ih =>
    intro i dst p h
    obtain ⟨dst', hdst', h⟩ := bind_eq_ok_iff.1 h
    obtain ⟨rv, rfl, hbody, hdecode⟩ := appendBSONScalar_spec hd (mapError_eq_ok_iff.1 hdst')
    obtain ⟨vals, rfl, hvals, hdecodes⟩ := ih h
    refine ⟨rv :: vals, ?_, List.forall_mem_cons.2 ⟨hbody, hvals⟩, .cons hdecode hdecodes⟩
    rw [indexedFrom, elemsBytes, elemsBytes, List.flatMap_cons, List.append_assoc]

omit hd in
theorem decodeBSONValue_scalar (t : ScalarType) (rv : RawValue) :
    decodeBSONValue d rv t.valueType = (do
      let x ← decodeBSONScalar d t rv
      .ok (.scalar t x)) := by
  cases t <;> rfl

variable {rv : RawValue}

omit hd in
theorem decodeBSONValue_array (t : ScalarType) {arr : Bytes} {vals : List RawValue}
    (harr : d.arrayOK rv = some arr) (hvals : d.values arr = some vals) :
    decodeBSONValue d rv t.arrayType = (do
      let xs ← collectArray vals (decodeBSONScalar d t)
      .ok (.array t xs)) := by
  unfold decodeBSONValue
  rw [harr]
  dsimp only
  rw [hvals]
  cases t <;> rfl

/-- What a leaf is written as: an element whose value is read back as the leaf. -/
theorem appendBSONLeaf_spec {l : Leaf} (h : appendBSONLeaf dst key l = .ok p) :
    ∃ rv, p = dst ++ elemBytes ⟨key, rv⟩ ∧ WellFormedBody rv.type rv.value ∧
      decodeBSONValue d rv l.valueType = .ok l.truncate := by
  cases l with
  | scalar t x =>
    obtain ⟨rv, hp, hbody, hdecode⟩ := appendBSONScalar_spec hd h
    refine ⟨rv, hp, hbody, ?_⟩
    rw [Leaf.valueType, decodeBSONValue_scalar, hdecode]
    rfl
  | array t xs =>
    unfold appendBSONLeaf appendBSONSlice at h
    dsimp only at h
    split_ifs at h with hlong
    · cases h
    obtain ⟨doc, hdoc, h⟩ := bind_eq_ok_iff.1 h
    obtain ⟨vals, rfl, hvals, hdecodes⟩ := appendBSONElems_spec hd hdoc
    obtain ⟨rfl, hlength⟩ := finishBSONDoc_spec h
    have hbody : WellFormedBody typeArray (docBytes (indexedFrom 0 vals)) :=
      .array vals hlength hvals
    have hwf : WellFormed (indexedFrom 0 vals) := by
      refine ⟨fun e he => ?_, hlength⟩
      exact ⟨(mem_indexedFrom he).1, hvals _ (mem_indexedFrom he).2⟩
    refine ⟨⟨typeArray, _⟩, appendBSONHeader_eq .., hbody, ?_⟩
    rw [Leaf.valueType, decodeBSONValue_array t (hd.arrayOK _ hbody) (hd.values _ hwf)]
    refine bind_eq_ok_iff.2 ⟨_, collectArray_ok.2 ⟨?_, hdecodes⟩, rfl⟩
    rw [hdecodes.length_eq, List.length_map]
    omega

/-- The entries of an object: elements under their keys whose values are read back. -/
theorem appendBSONEntries_spec
    (hdeclared : ∀ e ∈ es, ∃ leaf l, leaves.lookup e.1 = some leaf ∧ e.2 = .leaf l ∧
      l.valueType = leaf.valueType) : ∀ {dst p : Bytes}, appendBSONEntries dst es = .ok p →
      ∃ elems, p = dst ++ elemsBytes elems ∧ (∀ e ∈ elems, e.WellFormed) ∧
        List.Forall₂ (fun (elem : Elem) (e : Bytes × Entry) => elem.key = e.1 ∧
          ∃ leaf l, leaves.lookup e.1 = some leaf ∧ e.2 = .leaf l ∧
            decodeBSONValue d elem.value leaf.valueType = .ok l)
          elems (es.map fun e => (e.1, e.2.truncate)) := by
  induction es with
  | nil =>
    intro dst p h
    cases h
    exact ⟨[], by simp [elemsBytes], by simp, .nil⟩
  | cons e es ih =>
    intro dst p h
    rw [List.forall_mem_cons] at hdeclared
    obtain ⟨leaf, l, hleaf, hl, htype⟩ := hdeclared.1
    obtain ⟨key, entry⟩ := e
    obtain rfl : entry = .leaf l := hl
    unfold appendBSONEntries at h
    split_ifs at h with hkey
    · cases h
    obtain ⟨dst', hdst', h⟩ := bind_eq_ok_iff.1 h
    obtain ⟨rv, rfl, hbody, hdecode⟩ := appendBSONLeaf_spec hd (mapError_eq_ok_iff.1 hdst')
    obtain ⟨elems, rfl, hwf, helems⟩ := ih hdeclared.2 h
    have hzero : 0 ∉ key := fun hz => hkey (.inr hz)
    refine ⟨⟨key, rv⟩ :: elems, ?_, List.forall_mem_cons.2 ⟨⟨hzero, hbody⟩, hwf⟩,
      .cons ⟨rfl, leaf, l.truncate, hleaf, rfl, htype ▸ hdecode⟩ helems⟩
    rw [elemsBytes, elemsBytes, List.flatMap_cons, List.append_assoc]

/-- The loop over the elements of an object, by induction on them: the map so far lies below. -/
theorem decodeBSONElements_spec
    (h : List.Forall₂ (fun (elem : Elem) (e : Bytes × Entry) => elem.key = e.1 ∧
      ∃ leaf l, leaves.lookup e.1 = some leaf ∧ e.2 = .leaf l ∧
        decodeBSONValue d elem.value leaf.valueType = .ok l) elems es)
    (hwf : ∀ e ∈ elems, e.WellFormed) : ∀ out : SortedMap Bytes Entry,
      (out.entries ++ es).Pairwise (fun a b => a.1 < b.1) →
      decodeBSONElements d leaves (elems.map elemBytes) out =
        .ok (es.foldl (fun m e => m.insert e.1 e.2) out) := by
  induction h with
  | nil => exact fun _ _ => rfl
  | @cons elem e elems es he _ ih =>
    obtain ⟨hkey, leaf, l, hleaf, hl, hdecode⟩ := he
    rw [List.forall_mem_cons] at hwf
    intro out hsorted
    have hfresh : ¬ (out.lookup e.1).isSome = true := by
      rw [Bool.not_eq_true, Option.isSome_eq_false_iff, Option.isNone_iff_eq_none, SortedMap.lookup,
        List.lookup_eq_none_iff]
      intro a ha
      have hlt : a.1 < e.1 := (List.pairwise_append.1 hsorted).2.2 a ha e List.mem_cons_self
      rw [bne_iff_ne]
      rintro heq
      rw [heq] at hlt
      exact Std.lt_irrefl hlt
    have hinsert : (out.insert e.1 e.2).entries = out.entries ++ [e] :=
      SortedMap.insertEntry_of_lt fun a ha =>
        (List.pairwise_append.1 hsorted).2.2 a ha e List.mem_cons_self
    rw [List.map_cons, decodeBSONElements, hd.keyErr elem hwf.1, hkey]
    dsimp only
    rw [hleaf]
    dsimp only
    rw [if_neg hfresh, hd.valueErr elem hwf.1]
    refine bind_eq_ok_iff.2 ⟨l, mapError_eq_ok_iff.2 hdecode, ?_⟩
    rw [← hl, List.foldl_cons]
    apply ih hwf.2
    rw [hinsert, List.append_assoc]
    exact hsorted

/-- What a value is written as: an element whose value is read back as the value. -/
theorem appendBSONObject_spec (h : appendBSONObject dst key obj = .ok p) (hdeclared : Declared leaves obj) :
    obj.entries ≠ [] ∧ ∃ rv, p = dst ++ elemBytes ⟨key, rv⟩ ∧ WellFormedBody rv.type rv.value ∧
      decodeBSONObject d rv leaves = .ok (.object (obj.map Entry.truncate)) := by
  unfold appendBSONObject at h
  split_ifs at h with hnil
  · cases h
  obtain ⟨doc, hdoc, h⟩ := bind_eq_ok_iff.1 h
  obtain ⟨elems, rfl, hwf, helems⟩ := appendBSONEntries_spec hd hdeclared.entries hdoc
  obtain ⟨rfl, hlength⟩ := finishBSONDoc_spec h
  have hbody : WellFormedBody typeEmbeddedDocument (docBytes elems) :=
    .document elems hlength (fun e he => (hwf e he).1) fun e he => (hwf e he).2
  have hne : ¬ elems.map elemBytes = [] := by
    intro heq
    rw [List.map_eq_nil_iff.1 heq, List.forall₂_nil_left_iff, List.map_eq_nil_iff] at helems
    exact hnil helems
  refine ⟨hnil, ⟨typeEmbeddedDocument, _⟩, appendBSONHeader_eq .., hbody, ?_⟩
  unfold decodeBSONObject
  rw [hd.documentOK _ hbody]
  dsimp only
  rw [hd.elements _ ⟨hwf, hlength⟩]
  dsimp only
  rw [if_neg hne]
  refine bind_eq_ok_iff.2 ⟨_, decodeBSONElements_spec hd helems hwf SortedMap.empty ?_, ?_⟩
  · exact (obj.map Entry.truncate).sorted
  · have hout := SortedMap.ofList_sorted (obj.map Entry.truncate)
    rw [← hout]
    rfl

/-! ## BSON documents -/

omit hd in
theorem docBytes_head (elems : List Elem) : (docBytes elems).take 4 = leBytes 4 (docBytes elems).length := by
  rw [length_docBytes, docBytes, List.take_left' (length_leBytes 4 _)]

omit hd in
/-- The length of a document is its first four octets. -/
theorem readLE_docBytes (h : (docBytes elems).length ≤ maxInt32) :
    readLE ((docBytes elems).take 4) = (docBytes elems).length := by
  rw [docBytes_head]
  apply readLE_leBytes_of_lt
  exact Nat.lt_of_le_of_lt h (by decide)

omit hd in
theorem detectFormat_docBytes (h : (docBytes elems).length ≤ maxInt32) :
    detectFormat (docBytes elems) = .bson := by
  have hframed : FramedBSON (docBytes elems) :=
    ⟨(docBytes elems).take 4, elemsBytes elems, by rw [docBytes_head, length_docBytes, docBytes,
      List.append_assoc], by rw [docBytes_head, length_leBytes], readLE_docBytes h⟩
  exact hframed.detectFormat_eq h

omit hd in
theorem docBytes_length_ok (hwf : WellFormed elems) :
    ¬ ((docBytes elems).length < 5 ∨ readLE ((docBytes elems).take 4) ≠ (docBytes elems).length) := by
  have hlength := length_docBytes elems
  rw [readLE_docBytes hwf.length_le]
  omega

theorem decodeBSONEnvelope_v (hwf : WellFormed [⟨utf8 "v", rv⟩]) :
    decodeBSONEnvelope d (docBytes [⟨utf8 "v", rv⟩]) = .ok (rv, none) := by
  unfold decodeBSONEnvelope
  rw [if_neg (docBytes_length_ok hwf), hd.validate _ hwf, hd.lookupErr _ _ hwf, hd.lookupErr _ _ hwf]
  rfl

theorem decodeBSONEnvelope_vt {ts : Time} (ht : checkDateTime ts = .ok t)
    (hwf : WellFormed [⟨utf8 "v", rv⟩, ⟨utf8 "t", typeDateTime,
      leBytes 8 (Int64.ofInt t.unixMilli).toUInt64.toNat⟩]) :
    decodeBSONEnvelope d (docBytes [⟨utf8 "v", rv⟩, ⟨utf8 "t", typeDateTime,
      leBytes 8 (Int64.ofInt t.unixMilli).toUInt64.toNat⟩]) = .ok (rv, some t) := by
  have hv : d.lookupErr (docBytes [⟨utf8 "v", rv⟩, ⟨utf8 "t", typeDateTime,
      leBytes 8 (Int64.ofInt t.unixMilli).toUInt64.toNat⟩]) (utf8 "v") = some rv :=
    hd.lookupErr _ _ hwf
  have ht' : d.lookupErr (docBytes [⟨utf8 "v", rv⟩, ⟨utf8 "t", typeDateTime,
      leBytes 8 (Int64.ofInt t.unixMilli).toUInt64.toNat⟩]) (utf8 "t") =
      some ⟨typeDateTime, leBytes 8 (Int64.ofInt t.unixMilli).toUInt64.toNat⟩ :=
    hd.lookupErr _ _ hwf
  unfold decodeBSONEnvelope
  rw [if_neg (docBytes_length_ok hwf), hd.validate _ hwf, hv, ht']
  dsimp only
  rw [hd.dateTimeOK]
  exact bind_eq_ok_iff.2 ⟨t, dateTimeFromMillis_unixMilli ht, rfl⟩

/-- What `encodeBSON` writes is the envelope of the value and the timestamp. -/
theorem encodeBSON_spec {v : Value} (h : encodeBSON v ts = .ok p)
    (haligned : ∀ t, ts = some t → t.nanos % 1000000 = 0) :
    ∃ doc, appendBSONElement [0, 0, 0, 0] (utf8 "v") v = .ok doc ∧
      ∀ rv, doc = [0, 0, 0, 0] ++ elemBytes ⟨utf8 "v", rv⟩ → WellFormedBody rv.type rv.value →
        detectFormat p = .bson ∧ decodeBSONEnvelope d p = .ok (rv, ts) := by
  obtain ⟨doc, hdoc, h⟩ := bind_eq_ok_iff.1 h
  refine ⟨doc, hdoc, ?_⟩
  rintro rv rfl hbody
  have hv : (⟨utf8 "v", rv⟩ : Elem).WellFormed := 
    ⟨show (0 : UInt8) ∉ utf8 "v" by decide, hbody⟩
  cases ts with
  | none =>
    have helems : [0, 0, 0, 0] ++ elemBytes ⟨utf8 "v", rv⟩ =
        [] ++ [0, 0, 0, 0] ++ elemsBytes [⟨utf8 "v", rv⟩] := by
      simp [elemsBytes]
    rw [helems] at h
    obtain ⟨rfl, hlength⟩ := @finishBSONDoc_spec p [] _ h
    have hwf : WellFormed [⟨utf8 "v", rv⟩] := ⟨by simpa using hv, hlength⟩
    exact ⟨detectFormat_docBytes hlength, decodeBSONEnvelope_v hd hwf⟩
  | some ts =>
    obtain ⟨t, ht, h⟩ := bind_eq_ok_iff.1 h
    have hts : t = ts := by
      obtain ⟨-, rfl⟩ := checkDateTime_eq_ok_iff.1 ht
      exact truncateMilli_of_aligned (haligned ts rfl)
    have helems : appendBSONMillis (appendBSONHeader
        ([0, 0, 0, 0] ++ elemBytes ⟨utf8 "v", rv⟩) typeDateTime (utf8 "t")) t.unixMilli =
        [] ++ [0, 0, 0, 0] ++ elemsBytes [⟨utf8 "v", rv⟩, ⟨utf8 "t", typeDateTime,
          leBytes 8 (Int64.ofInt t.unixMilli).toUInt64.toNat⟩] := by
      rw [appendBSONMillis, appendBSONHeader_eq]
      simp [elemsBytes]
    rw [helems] at h
    obtain ⟨rfl, hlength⟩ := @finishBSONDoc_spec p [] _ h
    have hwf : WellFormed [⟨utf8 "v", rv⟩, ⟨utf8 "t", typeDateTime,
        leBytes 8 (Int64.ofInt t.unixMilli).toUInt64.toNat⟩] := by
      refine ⟨?_, hlength⟩
      intro e he
      simp only [List.mem_cons, List.not_mem_nil, or_false] at he
      rcases he with rfl | rfl
      · exact hv
      · exact ⟨show (0 : UInt8) ∉ utf8 "t" by decide, .dateTime _⟩
    rw [← hts]
    exact ⟨detectFormat_docBytes hlength, decodeBSONEnvelope_vt hd ht hwf⟩

end Bson

/-! ## The codec -/

theorem gate_of_le {dec : Decoder} {f : Format} (hlimit : (p.length : Int) ≤ dec.limit)
    (hf : detectFormat p = f) (hvalid : f ≠ .invalid) : dec.gate p = .ok f := by
  unfold Decoder.gate
  rw [if_neg (by omega), hf, if_neg hvalid]

/-- A timestamp where one is declared, and none where none is. -/
theorem finishDecode_isSome (val : Option Value) (ts : Option Time) (f : Format) :
    finishDecode val ts f ts.isSome = .ok ⟨val, ts, f⟩ := by
  cases ts <;> rfl

/-- No required key is missing, so the object is complete. -/
theorem finishObject_declared (hdeclared : Declared leaves obj) (hne : leaves ≠ [])
    (hexplicit : ∀ e ∈ leaves, e.2.explicitTimestamp = ts.isSome) (f : Format) :
    finishObject leaves (some (.object (obj.map Entry.truncate))) ts f =
      .ok ⟨some (.object (obj.map Entry.truncate)), ts, f⟩ := by
  have hnone : missingRequired leaves (some (.object (obj.map Entry.truncate))) = [] := by
    refine missingRequired_eq_nil_iff.2 fun e he hrequired => ?_
    rw [SortedMap.lookup_map, Option.isSome_map]
    exact hdeclared.required e he hrequired
  have hpolicy : objectExplicitTimestamp leaves = ts.isSome := by
    cases leaves with
    | nil => exact absurd rfl hne
    | cons e es => exact hexplicit e List.mem_cons_self
  unfold finishObject
  rw [hnone, hpolicy, if_neg (not_not.2 rfl)]
  exact finishDecode_isSome ..

section Encoded

variable {d : Bson.Driver} {dec : Decoder} {ts : Option Time}
  (haligned : ∀ t, ts = some t → t.nanos % 1000000 = 0) {p : Bytes} (hlimit : (p.length : Int) ≤ dec.limit)

include haligned hlimit

/-- An object in JSON, with any driver. -/
theorem object_encode_json (hencode : encode (some (.object obj)) ts .json = .ok p)
    (hdeclared : Declared leaves obj) (hexplicit : ∀ e ∈ leaves, e.2.explicitTimestamp = ts.isSome) :
    detectFormat p = .json ∧
      dec.object d p leaves = .ok ⟨some (.object (obj.map Entry.truncate)), ts, .json⟩ := by
  obtain ⟨jv, hjv, hformat, henvelope⟩ := encodeJSON_spec hencode haligned
  obtain ⟨hnil, hwritable, hdecode⟩ := decodeJSONObject_jsonify hjv hdeclared 9997
  have hne := hdeclared.leaves_ne_nil hnil
  refine ⟨hformat, ?_⟩
  unfold Decoder.object
  rw [if_neg hne]
  refine bind_eq_ok_iff.2 ⟨_, gate_of_le hlimit hformat (by decide), ?_⟩
  exact bind_eq_ok_iff.2 ⟨_, henvelope hwritable, bind_eq_ok_iff.2 ⟨_, hdecode,
    finishObject_declared hdeclared hne hexplicit .json⟩⟩

variable (hd : d.Reads) {f : Format} (hf : f = .bson ∨ f = .json)

include hd hf

theorem individual_encode {l : Leaf} (hencode : encode (some (.leaf l)) ts f = .ok p)
    {m : CompiledMapping} (htype : m.valueType = l.valueType)
    (hexplicit : m.explicitTimestamp = ts.isSome) :
    detectFormat p = f ∧ dec.individual d p m = .ok ⟨some (.leaf l.truncate), ts, f⟩ := by
  have hfinish : ∀ f, finishDecode (some (.leaf l.truncate)) ts f m.explicitTimestamp =
      .ok ⟨some (.leaf l.truncate), ts, f⟩ := by
    intro f
    rw [hexplicit]
    exact finishDecode_isSome ..
  rcases hf with rfl | rfl
  · obtain ⟨doc, hdoc, hspec⟩ := encodeBSON_spec hd hencode haligned
    obtain ⟨rv, hdoc, hbody, hdecode⟩ := appendBSONLeaf_spec hd hdoc
    obtain ⟨hformat, henvelope⟩ := hspec rv hdoc hbody
    rw [← htype] at hdecode
    refine ⟨hformat, bind_eq_ok_iff.2 ⟨_, gate_of_le hlimit hformat (by decide), ?_⟩⟩
    exact bind_eq_ok_iff.2 ⟨_, henvelope, bind_eq_ok_iff.2 ⟨_, hdecode, hfinish .bson⟩⟩
  · obtain ⟨jv, hjv, hformat, henvelope⟩ := encodeJSON_spec hencode haligned
    obtain ⟨hwritable, hdecode⟩ := decodeJSONValue_jsonify hjv 9998
    rw [← htype] at hdecode
    refine ⟨hformat, bind_eq_ok_iff.2 ⟨_, gate_of_le hlimit hformat (by decide), ?_⟩⟩
    exact bind_eq_ok_iff.2 ⟨_, henvelope hwritable, bind_eq_ok_iff.2 ⟨_, hdecode, hfinish .json⟩⟩

theorem object_encode (hencode : encode (some (.object obj)) ts f = .ok p)
    (hdeclared : Declared leaves obj) (hexplicit : ∀ e ∈ leaves, e.2.explicitTimestamp = ts.isSome) :
    detectFormat p = f ∧ dec.object d p leaves = .ok ⟨some (.object (obj.map Entry.truncate)), ts, f⟩ := by
  rcases hf with rfl | rfl
  · obtain ⟨doc, hdoc, hspec⟩ := encodeBSON_spec hd hencode haligned
    obtain ⟨hnil, rv, hdoc, hbody, hdecode⟩ := appendBSONObject_spec hd hdoc hdeclared
    obtain ⟨hformat, henvelope⟩ := hspec rv hdoc hbody
    have hne := hdeclared.leaves_ne_nil hnil
    refine ⟨hformat, ?_⟩
    unfold Decoder.object
    rw [if_neg hne]
    refine bind_eq_ok_iff.2 ⟨_, gate_of_le hlimit hformat (by decide), ?_⟩
    exact bind_eq_ok_iff.2 ⟨_, henvelope, bind_eq_ok_iff.2 ⟨_, hdecode,
      finishObject_declared hdeclared hne hexplicit .bson⟩⟩
  · exact object_encode_json haligned hlimit hencode hdeclared hexplicit

end Encoded

/-- The round trip. Whatever is written in one of the two formats is sniffed as that format and decoded,
against a mapping or leaves of its type, as the value with its datetimes in whole milliseconds, the
timestamp and the format. -/
theorem decode_encode {d : Bson.Driver} (hd : d.Reads) (dec : Decoder) {f : Format}
    (hf : f = .bson ∨ f = .json) {ts : Option Time}
    (haligned : ∀ t, ts = some t → t.nanos % 1000000 = 0) {v : Value} {p : Bytes}
    (hencode : encode (some v) ts f = .ok p) (hlimit : (p.length : Int) ≤ dec.limit) :
    (∀ l, v = .leaf l → ∀ m : CompiledMapping, m.valueType = l.valueType →
      m.explicitTimestamp = ts.isSome →
      detectFormat p = f ∧ dec.individual d p m = .ok ⟨some v.truncate, ts, f⟩) ∧
    ∀ obj, v = .object obj → ∀ leaves, Declared leaves obj →
      (∀ e ∈ leaves, e.2.explicitTimestamp = ts.isSome) →
      detectFormat p = f ∧ dec.object d p leaves = .ok ⟨some v.truncate, ts, f⟩ := by
  constructor
  · rintro l rfl m htype hexplicit
    exact individual_encode haligned hlimit hd hf hencode htype hexplicit
  · rintro obj rfl leaves hdeclared hexplicit
    exact object_encode haligned hlimit hd hf hencode hdeclared hexplicit

/-- An array with a timestamp in BSON, and an object in JSON. -/
theorem decode_encode_both :
    (∃ p, encode (some (.leaf (.array .integer [1, -2]))) (some ⟨5000000⟩) .bson = .ok p ∧
      detectFormat p = .bson ∧
      Decoder.individual Bson.reader {} p
        (InterfaceSchema.compileMapping
          { endpoint := utf8 "/levels", type := .integerArray, explicitTimestamp := true }) =
          .ok ⟨some (.leaf (.array .integer [1, -2])), some ⟨5000000⟩, .bson⟩) ∧
    ∃ p, encode (some (.object ⟨[(utf8 "on", .leaf (.scalar .boolean true))],
        List.pairwise_singleton _ _⟩)) none .json = .ok p ∧
      detectFormat p = .json ∧
      Decoder.object Bson.reader {} p [(utf8 "on", InterfaceSchema.compileMapping
        { endpoint := utf8 "/lamp/on", type := .boolean, required := true })] =
        .ok ⟨some (.object ⟨[(utf8 "on", .leaf (.scalar .boolean true))],
          List.pairwise_singleton _ _⟩), none, .json⟩ := by
  constructor
  · obtain ⟨p, hp⟩ : ∃ p, encode (some (.leaf (.array .integer [1, -2]))) (some ⟨5000000⟩) .bson =
        .ok p := ⟨_, rfl⟩
    have hlimit : (p.length : Int) ≤ Decoder.limit {} := by
      cases hp
      decide
    exact ⟨p, hp, (decode_encode Bson.reader_reads {} (.inl rfl) (by rintro t ⟨⟩; rfl) hp hlimit).1 _ rfl
      _ rfl rfl⟩
  · obtain ⟨p, hp⟩ : ∃ p, encode (some (.object ⟨[(utf8 "on", .leaf (.scalar .boolean true))],
        List.pairwise_singleton _ _⟩)) none .json = .ok p := ⟨_, rfl⟩
    have hlimit : (p.length : Int) ≤ Decoder.limit {} := by
      cases hp
      decide
    refine ⟨p, hp, (decode_encode Bson.reader_reads {} (.inr rfl) (by rintro t ⟨⟩) hp hlimit).2 _ rfl
      _ ⟨?_, ?_, ?_⟩ ?_⟩
    · decide
    · simp [Leaf.valueType, ScalarType.valueType, InterfaceSchema.compileMapping]
    · decide
    · simp [InterfaceSchema.compileMapping]

end Astrate.Payload
