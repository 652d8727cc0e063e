import Astrate.GoLib.Bson

/-!
# A BSON reader

A driver that reads the documents of `Bson`: it cuts elements off by the length their type and their
first octets announce. `reader_reads` says that it meets `Driver.Reads`, so what is proved for every
such driver is proved for one that exists.
-/

set_option autoImplicit false

namespace Astrate.GoLib.Bson

/-! ## Cutting elements -/

/-- The length of a body, from its type and its first octets. -/
def bodyLength (t : UInt8) (s : Bytes) : Option Nat :=
  if t = typeDouble ∨ t = typeDateTime ∨ t = typeInt64 then some 8
  else if t = typeInt32 then some 4
  else if t = typeBoolean then some 1
  else if t = typeString then some (4 + readLE (s.take 4))
  else if t = typeEmbeddedDocument ∨ t = typeArray then some (readLE (s.take 4))
  else if t = typeBinary then some (5 + readLE (s.take 4))
  else none

/-- An element from the front. -/
def readElem : Bytes → Option (Elem × Bytes)
  | [] => none
  | t :: s => do
      let k ← cutByte 0 s
      let n ← bodyLength t k.2
      if n ≤ k.2.length then some (⟨k.1, ⟨t, k.2.take n⟩⟩, k.2.drop n) else none

/-- Elements up to the terminator. -/
def readElems : Nat → Bytes → Option (List Elem)
  | 0, s => if s = [0] then some [] else none
  | fuel + 1, s =>
    if s = [0] then some []
    else do
      let e ← readElem s
      let es ← readElems fuel e.2
      some (e.1 :: es)

/-- The elements of a document whose length prefix is right. -/
def readDoc (p : Bytes) : Option (List Elem) :=
  if readLE (p.take 4) = p.length then readElems p.length (p.drop 4) else none

theorem take_leBytes (k n : Nat) (s : Bytes) : (leBytes k n ++ s).take k = leBytes k n := by
  rw [List.take_append_of_le_length (by simp), List.take_of_length_le (by simp)]

theorem drop_leBytes (k n : Nat) (s : Bytes) : (leBytes k n ++ s).drop k = s := by
  rw [List.drop_append_of_le_length (by simp), List.drop_of_length_le (by simp), List.nil_append]

theorem maxInt32_lt {n : Nat} (h : n ≤ maxInt32) : n < 256 ^ 4 :=
  lt_of_le_of_lt h (by decide)

variable {elems : List Elem} {data : Bytes} {t : UInt8}

theorem readLE_take_docBytes (h : (docBytes elems).length ≤ maxInt32)
    (s : Bytes) : readLE ((docBytes elems ++ s).take 4) = (docBytes elems).length := by
  rw [docBytes, List.append_assoc, take_leBytes, ← docBytes, ← length_docBytes,
    readLE_leBytes_of_lt (maxInt32_lt h)]

/-- A body announces its own length. -/
theorem bodyLength_append (h : WellFormedBody t data) (s : Bytes) :
    bodyLength t (data ++ s) = some data.length := by
  cases h with
  | double n => simp [bodyLength]
  | string str hlen =>
    have htake := take_leBytes 4 (str.length + 1) ((str ++ [0]) ++ s)
    rw [← List.append_assoc] at htake
    have h4 : bodyLength typeString (leBytes 4 (str.length + 1) ++ (str ++ [0]) ++ s) =
        some (4 + readLE ((leBytes 4 (str.length + 1) ++ (str ++ [0]) ++ s).take 4)) := rfl
    rw [h4, htake, readLE_leBytes_of_lt (maxInt32_lt hlen)]
    simp
  | document elems hlen =>
    have h4 : bodyLength typeEmbeddedDocument (docBytes elems ++ s) =
        some (readLE ((docBytes elems ++ s).take 4)) := rfl
    rw [h4, readLE_take_docBytes hlen]
  | array vals hlen =>
    have h4 : bodyLength typeArray (docBytes (indexedFrom 0 vals) ++ s) =
        some (readLE ((docBytes (indexedFrom 0 vals) ++ s).take 4)) := rfl
    rw [h4, readLE_take_docBytes hlen]
  | binary subtype bin hlen =>
    have htake := take_leBytes 4 bin.length (subtype :: bin ++ s)
    rw [← List.append_assoc] at htake
    have h4 : bodyLength typeBinary (leBytes 4 bin.length ++ subtype :: bin ++ s) =
        some (5 + readLE ((leBytes 4 bin.length ++ subtype :: bin ++ s).take 4)) := rfl
    rw [h4, htake, readLE_leBytes_of_lt (maxInt32_lt hlen)]
    simp only [List.length_append, length_leBytes, List.length_cons, Option.some.injEq]
    omega
  | boolean b => rfl
  | dateTime n => simp [bodyLength]
  | int32 n => simp [bodyLength, typeInt32, typeDouble, typeDateTime, typeInt64]
  | int64 n => simp [bodyLength]

theorem readElem_elemBytes {e : Elem} (h : e.WellFormed) (s : Bytes) :
    readElem (elemBytes e ++ s) = some (e, s) := by
  have hcut : cutByte 0 (e.key ++ 0 :: (e.value.value ++ s)) = some (e.key, e.value.value ++ s) :=
    (cutByte_eq_some_iff 0 _ _ _).2 ⟨rfl, h.1⟩
  simp only [elemBytes, List.cons_append, List.append_assoc, readElem, hcut, Option.bind_eq_bind,
    Option.bind_some, bodyLength_append h.2, List.length_append, Nat.le_add_right, if_true,
    List.take_left, List.drop_left]

theorem readElems_elemsBytes (h : ∀ e ∈ elems, e.WellFormed) {fuel : Nat}
    (hfuel : elems.length ≤ fuel) : readElems fuel (elemsBytes elems ++ [0]) = some elems := by
  induction elems generalizing fuel with
  | nil => cases fuel <;> rfl
  | cons e elems ih =>
    rw [List.forall_mem_cons] at h
    cases fuel with
    | zero => cases hfuel
    | succ fuel =>
      have hne : elemsBytes (e :: elems) ++ [0] ≠ [0] := by
        intro heq
        have := congrArg List.length heq
        simp [elemsBytes, elemBytes] at this
      have hsplit : elemsBytes (e :: elems) ++ [0] =
          elemBytes e ++ (elemsBytes elems ++ [0]) := by
        simp [elemsBytes]
      rw [readElems, if_neg hne, hsplit, readElem_elemBytes h.1]
      simp only [Option.bind_eq_bind, Option.bind_some, ih h.2 (Nat.le_of_succ_le_succ hfuel)]

theorem length_le_elemsBytes (elems : List Elem) : elems.length ≤ (elemsBytes elems).length := by
  induction elems with
  | nil => exact Nat.le_refl _
  | cons e elems ih =>
    have : (elemsBytes (e :: elems)).length =
        (elemBytes e).length + (elemsBytes elems).length := by
      simp [elemsBytes]
    simp only [elemBytes, List.length_cons] at this ⊢
    omega

/-- A well-formed document is read as its elements. -/
theorem readDoc_docBytes (h : WellFormed elems) :
    readDoc (docBytes elems) = some elems := by
  have hprefix := readLE_take_docBytes h.length_le []
  rw [List.append_nil] at hprefix
  have hfuel : elems.length ≤ (docBytes elems).length := by
    have := length_le_elemsBytes elems
    rw [length_docBytes]
    omega
  rw [readDoc, if_pos hprefix, docBytes, drop_leBytes, ← docBytes]
  exact readElems_elemsBytes h.each hfuel

/-! ## Validation -/

/-- Whether a body is one of its type, embedded documents and the indexes of arrays included; the
fuel bounds the nesting. -/
def validBody : Nat → UInt8 → Bytes → Bool
  | 0, _, _ => false
  | fuel + 1, t, data =>
    if t = typeEmbeddedDocument then
      match readDoc data with
      | some es => es.all fun e => validBody fuel e.value.type e.value.value
      | none => false
    else if t = typeArray then
      match readDoc data with
      | some es =>
        es == indexedFrom 0 (es.map Elem.value) &&
          es.all fun e => validBody fuel e.value.type e.value.value
      | none => false
    else bodyLength t data == some data.length

theorem length_value_lt {e : Elem} (h : e ∈ elems) :
    e.value.value.length < (docBytes elems).length := by
  have hsub : (elemBytes e).length ≤ (elemsBytes elems).length :=
    (List.sublist_flatten_of_mem (List.mem_map_of_mem h)).length_le
  rw [length_docBytes]
  simp only [elemBytes, List.length_cons, List.length_append] at hsub
  omega

theorem map_value_indexedFrom (i : Nat) (vals : List RawValue) :
    (indexedFrom i vals).map Elem.value = vals := by
  induction vals generalizing i with
  | nil => rfl
  | cons v vals ih => simp [indexedFrom, ih]

theorem wellFormed_indexedFrom {vals : List RawValue} (hlen : (docBytes (indexedFrom 0 vals)).length ≤ maxInt32)
    (hvals : ∀ v ∈ vals, WellFormedBody v.type v.value) : WellFormed (indexedFrom 0 vals) := by
  refine ⟨fun e he => ?_, hlen⟩
  obtain ⟨hkey, hmem⟩ := mem_indexedFrom he
  exact ⟨hkey, hvals e.value hmem⟩

/-- A body that embeds no document is valid when it announces its length. -/
theorem validBody_scalar (h : WellFormedBody t data)
    (hdoc : t ≠ typeEmbeddedDocument) (harr : t ≠ typeArray) {fuel : Nat}
    (hfuel : data.length < fuel) : validBody fuel t data = true := by
  obtain ⟨fuel, rfl⟩ : ∃ n, fuel = n + 1 := ⟨fuel - 1, by omega⟩
  have hlen := bodyLength_append h []
  rw [List.append_nil] at hlen
  simp only [validBody, hdoc, harr, if_false, hlen, BEq.rfl]

/-- Well-formed bodies are valid, with fuel for their length. -/
theorem validBody_of_wellFormed (h : WellFormedBody t data) :
    ∀ {fuel : Nat}, data.length < fuel → validBody fuel t data = true := by
  induction h with
  | document elems hlen hkeys hvalues ih =>
    intro fuel hfuel
    obtain ⟨fuel, rfl⟩ : ∃ n, fuel = n + 1 := ⟨fuel - 1, by omega⟩
    have hread : readDoc (docBytes elems) = some elems :=
      readDoc_docBytes ⟨fun e he => ⟨hkeys e he, hvalues e he⟩, hlen⟩
    simp only [validBody, if_true, hread, List.all_eq_true]
    intro e he
    exact ih e he (by have := length_value_lt he; omega)
  | array vals hlen hvals ih =>
    intro fuel hfuel
    obtain ⟨fuel, rfl⟩ : ∃ n, fuel = n + 1 := ⟨fuel - 1, by omega⟩
    have hread : readDoc (docBytes (indexedFrom 0 vals)) = some (indexedFrom 0 vals) :=
      readDoc_docBytes (wellFormed_indexedFrom hlen hvals)
    have hne : typeArray ≠ typeEmbeddedDocument := by decide
    simp only [validBody, hne, if_false, if_true, hread, map_value_indexedFrom, BEq.rfl,
      Bool.true_and, List.all_eq_true]
    intro e he
    exact ih e.value (mem_indexedFrom he).2 (by have := length_value_lt he; omega)
  | double n => exact validBody_scalar (.double n) (by decide) (by decide)
  | string str hstr => exact validBody_scalar (.string str hstr) (by decide) (by decide)
  | binary subtype bin hbin =>
    exact validBody_scalar (.binary subtype bin hbin) (by decide) (by decide)
  | boolean b => exact validBody_scalar (.boolean b) (by decide) (by decide)
  | dateTime n => exact validBody_scalar (.dateTime n) (by decide) (by decide)
  | int32 n => exact validBody_scalar (.int32 n) (by decide) (by decide)
  | int64 n => exact validBody_scalar (.int64 n) (by decide) (by decide)

/-! ## The reader as a driver -/

/-- The body of a value of a given type. -/
def bodyOf (t : UInt8) (v : RawValue) : Option Bytes := if v.type = t then some v.value else none

/-- The names the driver prints for the types. -/
def typeNames : List (UInt8 × Bytes) :=
  [(typeDouble, utf8 "double"), (typeString, utf8 "string"),
    (typeEmbeddedDocument, utf8 "embedded document"), (typeArray, utf8 "array"),
    (typeBinary, utf8 "binary"), (typeBoolean, utf8 "boolean"),
    (typeDateTime, utf8 "UTC datetime"), (typeInt32, utf8 "32-bit integer"),
    (typeInt64, utf8 "64-bit integer")]

/-- The driver that reads by the specification. -/
def reader : Driver where
  typeName t := (typeNames.lookup t).getD (utf8 "invalid")
  validate p := validBody (p.length + 1) typeEmbeddedDocument p
  lookupErr p key := do
    let es ← readDoc p
    (es.find? (·.key == key)).map Elem.value
  elements p := (readDoc p).map fun es => es.map elemBytes
  keyErr s := (readElem s).map fun e => e.1.key
  valueErr s := (readElem s).map fun e => e.1.value
  values p := (readDoc p).map fun es => es.map Elem.value
  arrayOK := bodyOf typeArray
  documentOK := bodyOf typeEmbeddedDocument
  doubleOK v := (bodyOf typeDouble v).map fun s => ⟨UInt64.ofNat (readLE s)⟩
  int32OK v := (bodyOf typeInt32 v).map fun s => (UInt32.ofNat (readLE s)).toInt32
  int64OK v := (bodyOf typeInt64 v).map fun s => (UInt64.ofNat (readLE s)).toInt64
  booleanOK v := (bodyOf typeBoolean v).map fun s => s == [1]
  stringValueOK v := (bodyOf typeString v).map fun s => (s.drop 4).dropLast
  binaryOK v := (bodyOf typeBinary v).bind fun s =>
    match s.drop 4 with
    | [] => none
    | subtype :: data => some (subtype, data)
  dateTimeOK v := (bodyOf typeDateTime v).map fun s => (UInt64.ofNat (readLE s)).toInt64

theorem bodyOf_self (t : UInt8) (data : Bytes) : bodyOf t ⟨t, data⟩ = some data := if_pos rfl

theorem int64_of_leBytes (i : Int64) : (UInt64.ofNat (readLE (leBytes 8 i.toUInt64.toNat))).toInt64 = i := by
  rw [readLE_leBytes_of_lt i.toUInt64.toNat_lt, UInt64.ofNat_toNat]
  rfl

/-- The reader reads every well-formed document. -/
theorem reader_reads : reader.Reads where
  validate elems h := by
    have hbody : WellFormedBody typeEmbeddedDocument (docBytes elems) :=
      .document elems h.length_le (fun e he => (h.each e he).1) fun e he => (h.each e he).2
    simp only [reader, validBody_of_wellFormed hbody (Nat.lt_succ_self _)]
  lookupErr elems key h := by
    simp only [reader, readDoc_docBytes h, Option.bind_eq_bind, Option.bind_some]
  elements elems h := by
    simp only [reader, readDoc_docBytes h, Option.map_some]
  keyErr e h := by
    have := readElem_elemBytes h []
    rw [List.append_nil] at this
    simp only [reader, this, Option.map_some]
  valueErr e h := by
    have := readElem_elemBytes h []
    rw [List.append_nil] at this
    simp only [reader, this, Option.map_some]
  values vals h := by
    simp only [reader, readDoc_docBytes h, Option.map_some, map_value_indexedFrom]
  arrayOK data _ := by simp only [reader, bodyOf_self]
  documentOK data _ := by simp only [reader, bodyOf_self]
  doubleOK f := by
    simp only [reader, bodyOf_self, Option.map_some,
      readLE_leBytes_of_lt (k := 8) f.bits.toNat_lt, UInt64.ofNat_toNat]
  int32OK i := by
    simp only [reader, bodyOf_self, Option.map_some,
      readLE_leBytes_of_lt (k := 4) i.toUInt32.toNat_lt, UInt32.ofNat_toNat]
    rfl
  int64OK i := by
    simp only [reader, bodyOf_self, Option.map_some, int64_of_leBytes]
  booleanOK b := by cases b <;> rfl
  stringValueOK str _ := by
    simp only [reader, bodyOf_self, Option.map_some, drop_leBytes, List.dropLast_concat]
  binaryOK data _ := by
    simp only [reader, bodyOf_self, Option.bind_some, drop_leBytes]
  dateTimeOK i := by
    simp only [reader, bodyOf_self, Option.map_some, int64_of_leBytes]

end Astrate.GoLib.Bson
