import Astrate.Engine.AckOrder
import Astrate.Engine.Upgrade

/-!
# Values the database refuses

The decoder accepts every UTF-8 string, and so the character U+0000, which PostgreSQL stores neither in
a text column nor in a `jsonb` document: it refuses the row with an error of class 22. For the batcher
such an error is final, and it acknowledges the message of the operation without a row and without a
rejection (`nul_value_dropped`). `stored_iff_no_nul` says that this happens to no other message: with a
database that refuses exactly U+0000, an accepted message that is acknowledged has been stored exactly
when neither its path nor a string of its value holds that character.
-/

set_option autoImplicit false

namespace Astrate.Engine

open Astrate.GoLib
open Astrate.GoLib.Json (Any Writable WritableElems WritableMembers marshal maxNestingDepth scanDocument)
open Astrate.InterfaceSchema (CompiledInterface CompiledMapping)
open Astrate.Payload (Leaf Entry Value ScalarType)

/-! ## The character U+0000 -/

def textHasNul (s : Bytes) : Bool := s.contains 0

/-- Whether a string or a key of a JSON document holds the character. -/
def documentHasNul (js : Bytes) : Bool := (scanDocument js).any fun t => t.strings.any textHasNul

/-- Whether a text or `jsonb` column of a row holds it. -/
def Row.hasNul : Row → Bool
  | .property p => textHasNul p.path || documentHasNul p.value
  | .unset key => textHasNul key.path
  | .individual r =>
    textHasNul r.path || (r.valueString.any textHasNul || r.valueArray.any documentHasNul)
  | .object r => textHasNul r.path || documentHasNul r.value

/-- Whether a row of the call holds it. -/
def StoreCall.hasNul : StoreCall → Bool
  | .upsertProperty _ p => (Row.property p).hasNul
  | .unsetProperty _ key => (Row.unset key).hasNul
  | .appendDatastreams ds =>
    (ds.individual.any fun r => (Row.individual r.2).hasNul) ||
      ds.objects.any fun r => (Row.object r.2).hasNul

/-- A database that refuses a call for good exactly when a row of it holds U+0000. It may fail
transiently at any time. -/
structure RefusesNul {σ : Type} (persist : StoreCall → σ → Except StoreError Unit × σ) : Prop where
  stores : ∀ call env, (persist call env).1 = .ok () → call.hasNul = false
  refuses : ∀ call env err, (persist call env).1 = .error err → isPermanentCommitError err = true →
    call.hasNul = true

/-! ## The strings of a value -/

/-- The strings of a leaf. -/
def leafStrings : Leaf → List Bytes
  | .scalar .string s => [s]
  | .array .string ss => ss
  | _ => []

mutual

/-- The strings of an entry. -/
def entryStrings : Entry → List Bytes
  | .leaf l => leafStrings l
  | .nested entries => entriesStrings entries

/-- The keys and the strings of the entries. -/
def entriesStrings : List (Bytes × Entry) → List Bytes
  | [] => []
  | (k, e) :: es => k :: (entryStrings e ++ entriesStrings es)

end

/-- The strings of a value, keys included. -/
def valueStrings : Value → List Bytes
  | .leaf l => leafStrings l
  | .object entries => entriesStrings entries.entries

/-- Whether the path or the value of a publish holds U+0000. -/
def PersistOp.hasNul (op : PersistOp) : Bool :=
  textHasNul op.path || op.value.any fun v => (valueStrings v).any textHasNul

theorem textHasNul_eq_false {s : Bytes} (h : 0 ∉ s) : textHasNul s = false := by
  simpa [textHasNul] using h

/-- The texts that numbers, datetimes and binary data are written as do not hold the character. -/
theorem any_strings_jsonableScalar (t : ScalarType) (x : t.Carrier) :
    (jsonableScalar t x).strings.any textHasNul = (leafStrings (.scalar t x)).any textHasNul := by
  have hsingle : ∀ {s : Bytes}, 0 ∉ s → (Any.string s).strings.any textHasNul = false := by
    intro s hs
    simp [Any.strings, textHasNul_eq_false hs]
  cases t with
  | double => rfl
  | integer => rfl
  | boolean => rfl
  | string => rfl
  | longInteger =>
    rw [jsonableScalar]
    split_ifs
    · exact hsingle fun hmem => absurd (Payload.printable_formatInt hmem).1 (by decide)
    · rfl
  | binaryBlob => exact hsingle (Base64.zero_not_mem_encodeToString x)
  | dateTime => exact hsingle fun hmem => absurd (Payload.printable_formatMilli hmem).1 (by decide)

theorem any_strings_jsonableLeaf (l : Leaf) :
    (jsonableLeaf l).strings.any textHasNul = (leafStrings l).any textHasNul := by
  cases l with
  | scalar t x => exact any_strings_jsonableScalar t x
  | array t xs =>
    -- Element by element; only strings have strings.
    have helems : ∀ xs : List t.Carrier, (Any.elemStrings (xs.map (jsonableScalar t))).any textHasNul =
        xs.any fun x => (leafStrings (.scalar t x)).any textHasNul := by
      intro xs
      induction xs with
      | nil => rfl
      | cons x xs ih =>
        rw [List.map_cons, Any.elemStrings, List.any_append, any_strings_jsonableScalar, ih, List.any_cons]
    rw [jsonableLeaf, Any.strings, helems]
    cases t <;> simp [leafStrings]

mutual

theorem any_strings_jsonableEntry : ∀ e : Entry,
    (jsonableEntry e).strings.any textHasNul = (entryStrings e).any textHasNul
  | .leaf l => by
      exact any_strings_jsonableLeaf l
  | .nested entries => by
      exact any_strings_jsonableEntries entries

theorem any_strings_jsonableEntries : ∀ es : List (Bytes × Entry),
    (Any.memberStrings (jsonableEntries es)).any textHasNul = (entriesStrings es).any textHasNul
  | [] => rfl
  | (k, e) :: es => by
      rw [jsonableEntries, Any.memberStrings, entriesStrings, List.any_cons, List.any_append,
        any_strings_jsonableEntry e, any_strings_jsonableEntries es, List.any_cons, List.any_append]

end

theorem any_strings_jsonable (v : Value) :
    (jsonable v).strings.any textHasNul = (valueStrings v).any textHasNul := by
  cases v with
  | leaf l => exact any_strings_jsonableLeaf l
  | object entries => exact any_strings_jsonableEntries entries.entries

/-! ## Documents of decoded values -/

theorem writable_jsonableScalar {t : ScalarType} {x : t.Carrier} (h : Payload.ScalarBounded t x)
    (d : Nat) : Writable d (jsonableScalar t x) := by
  cases t with
  | double => simpa [jsonableScalar, Writable] using Float64.isValidNumber_appendFloat x
  | integer => simpa [jsonableScalar, Writable] using Float64.isValidNumber_formatInt (Int32.toInt x)
  | boolean => simp [jsonableScalar, Writable]
  | longInteger =>
    rw [jsonableScalar]
    split_ifs
    · simpa [Writable] using Payload.validUtf8_formatInt (Int64.toInt x)
    · simpa [Writable] using Float64.isValidNumber_formatInt (Int64.toInt x)
  | string => simpa [jsonableScalar, Writable] using h.2
  | binaryBlob =>
    have hutf8 : ValidUtf8 (Base64.encodeToString x) :=
      validUtf8_of_ascii fun b hb => (Base64.encodeToString_ascii hb).1
    simpa [jsonableScalar, Writable] using hutf8
  | dateTime => simpa [jsonableScalar, Writable] using Payload.validUtf8_formatMilli x

theorem writable_jsonableLeaf {l : Leaf} (h : l.Bounded) (d : Nat) : Writable (d + 1) (jsonableLeaf l) := by
  cases l with
  | scalar t x => exact writable_jsonableScalar h (d + 1)
  | array t xs =>
    have helems : ∀ xs : List t.Carrier, (∀ x ∈ xs, Payload.ScalarBounded t x) →
        WritableElems d (xs.map (jsonableScalar t)) := by
      intro xs hxs
      induction xs with
      | nil => simp [WritableElems]
      | cons x xs ih =>
        rw [List.forall_mem_cons] at hxs
        exact ⟨writable_jsonableScalar hxs.1 d, ih hxs.2⟩
    exact helems xs h.2

theorem writable_jsonableEntries {es : List (Bytes × Entry)} (d : Nat)
    (hkeys : ∀ e ∈ es, ValidUtf8 e.1) (hleaves : ∀ e ∈ es, ∃ l, e.2 = .leaf l ∧ l.Bounded) :
    WritableMembers (d + 1) (jsonableEntries es) := by
  induction es with
  | nil => simp [jsonableEntries, WritableMembers]
  | cons e es ih =>
    obtain ⟨k, entry⟩ := e
    rw [List.forall_mem_cons] at hkeys hleaves
    obtain ⟨l, hl, hbounded⟩ := hleaves.1
    obtain rfl : entry = .leaf l := hl
    exact ⟨hkeys.1, writable_jsonableLeaf hbounded d, ih hkeys.2 hleaves.2⟩

variable {op : PersistOp}

/-- The values of queued operations are written as documents that can be read. -/
theorem Emitted.writable (h : Emitted op) {v : Value} (hv : op.value = some v) :
    Writable maxNestingDepth (jsonable v) := by
  cases h with
  | individual drv dec id msg realmID ci ptr path dp tracked prevExists prev accepted resolved decoded
      eq =>
      subst eq
      obtain ⟨l, rfl, hl⟩ := (individual_stage accepted resolved decoded).value v hv
      exact writable_jsonableLeaf hl.bounded _
  | object drv dec id msg realmID ci path dp accepted aggregated decoded eq =>
    subst eq
    obtain ⟨obj, hobj, htyped⟩ := (object_stage accepted aggregated decoded).value
    obtain rfl : v = .object obj := Option.some.inj (hv.symm.trans hobj)
    obtain ⟨data, iface, ids, hparse, hcompile⟩ := accepted
    have wf := InterfaceSchema.parseInterface_wellFormed hparse
    have hagg : iface.aggregation = .object :=
      (InterfaceSchema.compile_aggregation hcompile).symm.trans aggregated
    change Writable (9998 + 2) (.object (jsonableEntries obj.entries))
    apply writable_jsonableEntries
    · intro e he
      obtain ⟨leaf, l, hleaf, -, -⟩ := htyped.entries e he
      obtain ⟨m, hm, hkey, -⟩ := exists_of_lookup_objectLeavesOf wf hcompile hagg hleaf
      exact hkey ▸ Payload.validUtf8_of_validIdentifier (validIdentifier_leaf wf hm)
    · intro e he
      obtain ⟨leaf, l, -, hentry, hl⟩ := htyped.entries e he
      exact ⟨l, hentry, hl.bounded⟩

/-- The document of a value holds the character when the value does. -/
theorem documentHasNul_of_encode {v : Option Value} {js : Bytes} (hjs : encodeValueJSON v = .ok js)
    (hwritable : ∀ w, v = some w → Writable maxNestingDepth (jsonable w)) :
    documentHasNul js = v.any fun w => (valueStrings w).any textHasNul := by
  cases v with
  | none =>
    obtain rfl := Except.ok.inj hjs
    decide +kernel
  | some w =>
    have hw := hwritable w rfl
    obtain rfl : marshal true (jsonable w) = js := by
      unfold encodeValueJSON at hjs
      dsimp only at hjs
      split at hjs
      · cases hjs
      · exact Except.ok.inj hjs
    rw [documentHasNul, Json.scanDocument_marshal hw, Option.any_some, Json.strings_tokenOf _ _ hw,
      any_strings_jsonable, Option.any_some]

/-! ## Rows -/

/-- An unset has no value. -/
theorem Emitted.value_of_unset (h : Emitted op) {m : CompiledMapping}
    (haction : op.action = .propertyUnset m) : op.value = none := by
  cases h with
  | individual drv dec id msg realmID ci ptr path dp tracked prevExists prev accepted resolved decoded
      eq =>
      subst eq
      simp only [newOp, opAction] at haction
      split_ifs at haction with hunset
      exact Option.isNone_iff_eq_none.1 hunset.2
  | object drv dec id msg realmID ci path dp accepted aggregated decoded eq =>
    subst eq
    cases haction

/-- The column of a scalar: only strings are text. -/
theorem hasNul_setColumn (op : PersistOp) (m : CompiledMapping) (t : ScalarType) (x : t.Carrier) :
    (Row.individual (setColumn (rowHeader op m) t x)).hasNul =
      (textHasNul op.path || (leafStrings (.scalar t x)).any textHasNul) := by
  cases t <;> simp [Row.hasNul, setColumn, rowHeader, leafStrings]

/-- The row of a queued operation holds the character when its path or its value does. -/
theorem Emitted.row_hasNul (h : Emitted op) {row : Row} (hrow : op.row = .ok row) : row.hasNul = op.hasNul := by
  have hdocument : ∀ {js}, encodeValueJSON op.value = .ok js →
      documentHasNul js = op.value.any fun v => (valueStrings v).any textHasNul :=
    fun hjs => documentHasNul_of_encode hjs fun _ hv => h.writable hv
  unfold PersistOp.row at hrow
  cases haction : op.action with
  | propertySet m =>
    rw [haction] at hrow
    obtain ⟨p, hp, rfl⟩ := map_eq_ok_iff.1 hrow
    obtain ⟨js, hjs, heq⟩ := bind_eq_ok_iff.1 hp
    cases heq
    rw [Row.hasNul, PersistOp.hasNul, hdocument hjs]
  | propertyUnset m =>
    rw [haction] at hrow
    cases hrow
    rw [Row.hasNul, PersistOp.hasNul, h.value_of_unset haction]
    exact (Bool.or_false _).symm
  | individual m =>
    rw [haction] at hrow
    obtain ⟨r, hr, rfl⟩ := map_eq_ok_iff.1 hrow
    unfold individualRow at hr
    split_ifs at hr with harray
    · obtain ⟨js, hjs, heq⟩ := bind_eq_ok_iff.1 hr
      cases heq
      simp [Row.hasNul, PersistOp.hasNul, rowHeader, hdocument hjs]
    · split at hr
      · rename_i t x hvalue
        split_ifs at hr
        · cases hr
          rw [hasNul_setColumn, PersistOp.hasNul, hvalue]
          rfl
        · cases hr
      · cases hr
  | object =>
    rw [haction] at hrow
    obtain ⟨r, hr, rfl⟩ := map_eq_ok_iff.1 hrow
    unfold objectRow at hr
    split at hr
    · obtain ⟨js, hjs, heq⟩ := bind_eq_ok_iff.1 hr
      cases heq
      rw [Row.hasNul, PersistOp.hasNul, hdocument hjs]
    · cases hr

theorem Row.hasNul_call (row : Row) (id : Nat) : (row.call id).hasNul = row.hasNul := by
  cases row <;> simp [Row.call, StoreCall.hasNul]

/-- A call without the character persists no row with it. -/
theorem StoreCall.Persists.row_hasNul {call : StoreCall} (h : call.Persists op)
    (hcall : call.hasNul = false) : ∃ row, op.row = .ok row ∧ row.hasNul = false := by
  cases call with
  | upsertProperty id p => exact ⟨_, h.2, hcall⟩
  | unsetProperty id key => exact ⟨_, h.2, hcall⟩
  | appendDatastreams ds =>
    simp only [StoreCall.hasNul, Bool.or_eq_false_iff, List.any_eq_false] at hcall
    rcases h with ⟨r, hrow, hmem⟩ | ⟨r, hrow, hmem⟩
    · exact ⟨_, hrow, by simpa using hcall.1 _ hmem⟩
    · exact ⟨_, hrow, by simpa using hcall.2 _ hmem⟩

/-! ## The contract -/

section Contract

variable {σ : Type} {e : EnginePorts σ}

/-- A concluded operation is stored when it does not hold the character. -/
theorem Concluded.stored_of_hasNul {pre : List Event} (hdb : RefusesNul e.persist)
    (h : Concluded e.toBatchPort pre op) (hop : Emitted op) (hnul : op.hasNul = false) : Stored pre op := by
  cases h with
  | committed call env returned persists answer => exact ⟨call, returned, persists⟩
  | refused row err env converts attempt permanent answer =>
    -- The database refuses nothing else.
    have hrefused := hdb.refuses _ _ _ answer permanent
    rw [Row.hasNul_call, hop.row_hasNul converts, hnul] at hrefused
    cases hrefused

/-- A message is received once. -/
theorem received_unique {q : Prop} {log : List Event} (h : EachAfter (Timely e q) log) {id : Nat}
    {m m' : InboundMessage} (hm : .received id m ∈ log) (hm' : .received id m' ∈ log) : m = m' := by
  rcases h.pair hm hm' with heq | ⟨pre, hpre, hmem⟩ | ⟨pre, hpre, hmem⟩
  · exact (Event.received.inj heq).2
  · exact absurd hmem (hpre m')
  · exact absurd hmem (hpre m)

/-- A queued message is not rejected. -/
theorem not_rejected_of_queued {q : Prop} {log : List Event} (h : EachAfter (Timely e q) log)
    (hop : .queued op ∈ log) (reason : String) (detail : List FmtError) :
    .rejected op.ack reason detail ∉ log := by
  intro hmem
  rcases h.pair hop hmem with heq | ⟨pre, hpre, hrejected⟩ | ⟨pre, hpre, hqueued⟩
  · cases heq
  · exact hpre.2 reason detail hrejected
  · exact hpre op (mem_queuedOps.2 hqueued) rfl

end Contract

/-- A database that never fails and refuses exactly U+0000, as a character it cannot translate. -/
def nulDatabase : StoreCall → Unit → Except StoreError Unit × Unit :=
  fun call env => if call.hasNul then (.error (.pg (utf8 "22P05")), env) else (.ok (), env)

theorem nulDatabase_refuses : RefusesNul nulDatabase where
  stores := by
    intro call env h
    unfold nulDatabase at h
    split_ifs at h with hnul
    exact Bool.eq_false_iff.2 hnul
  refuses := by
    intro call env err h _
    unfold nulDatabase at h
    split_ifs at h with hnul
    exact hnul

/-- Which accepted values are dropped, with a database that refuses exactly U+0000: every data message
that is acknowledged was rejected or accepted, and an accepted one was stored, or else rejected, exactly
when neither its path nor its value holds the character. -/
theorem stored_iff_no_nul {σ : Type} (e : EnginePorts σ) (hdb : RefusesNul e.persist) (env : σ)
    (parks : List Park) (inputs : List Input) {pre post : List Event} {id : Nat}
    (hlog : (runShard e env parks inputs).events = pre ++ .acked id :: post) :
    (∀ m, .received id m ∈ pre → m.CarriesData →
      (∃ reason detail, .rejected id reason detail ∈ pre) ∨ ∃ op, .queued op ∈ pre ∧ op.ack = id) ∧
    ∀ op, .queued op ∈ pre → op.ack = id →
      ((Stored pre op ∨ ∃ reason detail, .rejected id reason detail ∈ pre) ↔ op.hasNul = false) := by
  have htimely : EachAfter (Timely e False) (runShard e env parks inputs).events :=
    (runShard_halted e env parks inputs).timely fun h => h.elim
  have hpre : EachAfter (Timely e False) pre := (hlog ▸ htimely).left
  constructor
  · intro m hm hdata
    cases (runShard_sound e env parks inputs).justified pre id post hlog with
    | rejected reason detail h => exact .inl ⟨reason, detail, h⟩
    | operation op queued ack cause => exact .inr ⟨op, queued, ack⟩
    | noData m' kind how received topic due consumed =>
      rw [received_unique hpre hm received] at hdata
      exact absurd hdata topic
  · rintro op hop rfl
    obtain ⟨before, after, hsplit⟩ := List.append_of_mem hop
    have hemitted : Emitted op := (hpre before _ after hsplit).1
    obtain ⟨hconcluded, -⟩ := htimely pre _ post hlog op (mem_queuedOps.2 hop) rfl
    constructor
    · rintro (⟨call, hcall, hpersists⟩ | ⟨reason, detail, hrejected⟩)
      · -- What the database has stored does not hold the character.
        obtain ⟨before, after, hsplit⟩ := List.append_of_mem hcall
        obtain ⟨env', hanswer⟩ := hpre before _ after hsplit
        obtain ⟨row, hrow, hnul⟩ := hpersists.row_hasNul (hdb.stores call env' hanswer)
        rw [← hemitted.row_hasNul hrow]
        exact hnul
      · exact absurd hrejected (not_rejected_of_queued hpre hop reason detail)
    · exact fun hnul => .inl (hconcluded.stored_of_hasNul hdb hemitted hnul)

/-- The log of a shard that is given one mode. -/
def nulLog (payload : Bytes) : List Event :=
  (runShard (soleEngine rooms_accepted nulDatabase) () [] [.message (kitchenMessage payload)]).events

theorem stored_iff_no_nul_cold : ∃ ci, ∃ h : Accepted ci, ∃ op pre post,
    RefusesNul (soleEngine h nulDatabase).persist ∧
    (runShard (soleEngine h nulDatabase) () [] [.message (kitchenMessage coldPayload)]).events =
      pre ++ .acked 0 :: post ∧
    .queued op ∈ pre ∧ op.ack = 0 ∧ op.hasNul = false ∧
    (Stored pre op ∨ ∃ reason detail, .rejected 0 reason detail ∈ pre) := by
  have hlog : nulLog coldPayload = (nulLog coldPayload).take 4 ++ .acked 0 :: (nulLog coldPayload).drop 5 :=
    eq_append_acked (by decide +kernel)
  obtain ⟨op, hop, hread⟩ : ∃ op, .queued op ∈ (nulLog coldPayload).take 4 ∧ (op.ack, op.hasNul) = (0, false) :=
    exists_queued (by decide +kernel)
  obtain ⟨hack, hnul⟩ := Prod.mk.inj hread
  exact ⟨roomsCompiled, rooms_accepted, op, _, _, nulDatabase_refuses, hlog, hop, hack, hnul,
    ((stored_iff_no_nul (soleEngine rooms_accepted nulDatabase) nulDatabase_refuses () [] _ hlog).2 op hop
      hack).2 hnul⟩

def nulPayload : Bytes := utf8 "\x7b\"v\":\"\\u0000\"\x7d"

/-- The decoder accepts a mode that is the one character U+0000. The database refuses its row, and the
message is acknowledged, with nothing stored and nothing rejected. -/
theorem nul_value_dropped : ∃ ci, ∃ h : Accepted ci, ∃ op pre post,
    RefusesNul (soleEngine h nulDatabase).persist ∧
    Payload.Decoder.individual Bson.reader {} nulPayload modeMapping = .ok (modeValue [0]) ∧
    (runShard (soleEngine h nulDatabase) () [] [.message (kitchenMessage nulPayload)]).events =
      pre ++ .acked 0 :: post ∧
    .queued op ∈ pre ∧ op.ack = 0 ∧ ¬ Stored pre op ∧ ∀ reason detail, .rejected 0 reason detail ∉ pre := by
  have hdecode : Payload.Decoder.individual Bson.reader {} nulPayload modeMapping =
      .ok (modeValue [0]) := by decide +kernel
  have hlog : nulLog nulPayload = (nulLog nulPayload).take 4 ++ .acked 0 :: (nulLog nulPayload).drop 5 :=
    eq_append_acked (by decide +kernel)
  obtain ⟨op, hop, hack⟩ : ∃ op, .queued op ∈ (nulLog nulPayload).take 4 ∧ op.ack = 0 :=
    exists_queued (by decide +kernel)
  have hnone : ((nulLog nulPayload).take 4).all (fun
      | .returned _ r => !r.isOk
      | .rejected .. => false
      | _ => true) = true := by decide +kernel
  rw [List.all_eq_true] at hnone
  refine ⟨roomsCompiled, rooms_accepted, op, _, _, nulDatabase_refuses, hdecode, hlog, hop, hack, ?_, ?_⟩
  · rintro ⟨call, hcall, -⟩
    cases hnone _ hcall
  · intro reason detail hmem
    cases hnone _ hmem

end Astrate.Engine
