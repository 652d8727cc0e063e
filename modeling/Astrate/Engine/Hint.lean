import Astrate.GoLib.Cell
import Astrate.Store.Devices

/-!
# The payload format hint

The format in which a device is written to follows the format it writes in. `noteFormat` flips the hint to json
at a JSON payload, and back to bson at the first payload after an emptyCache if that is BSON. The hint is stored
with the device; that an emptyCache came is remembered in the cached state of the device alone.

`prescribed` is the rule itself, over the messages of the device. The stored hint follows it as long as the cached
state is not dropped between an emptyCache and the payload that answers it (`hint_follows_rule`); a disconnect in
between makes the hint stay json (`hint_forgets_emptyCache`).
-/

set_option autoImplicit false

namespace Astrate.Engine.Hint

open Astrate.GoLib
open Astrate.Payload (Format)
open Astrate.Store (Device)

/-- The messages of a device that are handled with its cached state. -/
inductive Message where
  | data (f : Format)
  | emptyCache
  | introspection (intro : Introspection)
  | capabilities (purgeCompression : Bytes)
  | producerProperties
  deriving DecidableEq

/-- The state that `deviceCache.get` makes of the row of a device. -/
def load (d : Device) : DeviceState where
  introspection := d.introspection.entries
  formatHint := d.payloadFormatHint

/-- What a message does to the cached state and to the row. The introspection of the row is left out here. -/
def handle : Message → DeviceState → Device → DeviceState × Device × Message
  | .data f, dev, d =>
    ((dev.noteFormat f).1,
      match (dev.noteFormat f).2 with
      | none => d
      | some flip => { d with payloadFormatHint := flip },
      .data f)
  | .emptyCache, dev, d => ({ dev with resetHintOnBSON := true }, d, .emptyCache)
  | .introspection intro, dev, d => ({ dev with introspection := intro }, d, .introspection intro)
  | .capabilities format, dev, d => ({ dev with purgeCompression := format }, d, .capabilities format)
  | .producerProperties, dev, d => (dev, d, .producerProperties)

/-- The messages of one device, all of them let in. -/
def handler : Handler Device DeviceState Message Message where
  accept _ := true
  load := load
  handle := handle

/-! ## The rule -/

/-- The hint, and whether an emptyCache waits for a payload that answers it. -/
structure Rule where
  hint : FormatHint
  armed : Bool := false
  deriving DecidableEq, Repr

/-- A JSON payload sets json; the first payload after an emptyCache sets bson if it is BSON; anything else changes
nothing. -/
def Rule.after (r : Rule) : Message → Rule
  | .data .json => ⟨.json, false⟩
  | .data .bson => ⟨if r.armed then .bson else r.hint, false⟩
  | .emptyCache => { r with armed := true }
  | _ => r

/-- What the rule prescribes after these messages. -/
def prescribed (hint : FormatHint) (ms : List Message) : Rule := ms.foldl Rule.after { hint := hint }

/-- No emptyCache waits for its payload, and none is being handled, when the cached state is dropped. -/
def Unarmed (hint : FormatHint) (s : Cell Device DeviceState Message Message) : CellAction Message → Prop
  | .evict => (prescribed hint s.done).armed = false ∧ s.current.map Prod.fst ≠ some .emptyCache
  | _ => True

instance (hint : FormatHint) (s : Cell Device DeviceState Message Message) (a : CellAction Message) :
    Decidable (Unarmed hint s a) := by
  cases a <;> (dsimp only [Unarmed]; infer_instance)

/-- The cached state and the row are as the rule says. -/
structure Follows (hint : FormatHint) (done : List Message) (d : Device) (dev : DeviceState) : Prop where
  row : d.payloadFormatHint = (prescribed hint done).hint
  cached : dev.formatHint = (prescribed hint done).hint
  armed : dev.resetHintOnBSON = (prescribed hint done).armed

variable {hint : FormatHint} {done : List Message} {d : Device} {dev : DeviceState}

theorem prescribed_concat (hint : FormatHint) (done : List Message) (m : Message) :
    prescribed hint (done ++ [m]) = (prescribed hint done).after m := by
  rw [prescribed, List.foldl_append]
  rfl

/-- A loaded state remembers no emptyCache. -/
theorem follows_load_iff (h : d.payloadFormatHint = (prescribed hint done).hint) :
    Follows hint done d (load d) ↔ (prescribed hint done).armed = false := by
  constructor
  · exact fun hf => hf.armed.symm
  · exact fun harmed => ⟨h, h, harmed.symm⟩

/-- `noteFormat` does what the rule says. -/
theorem Follows.note (h : Follows hint done d dev) (f : Format) :
    Follows hint (done ++ [.data f]) (handle (.data f) dev d).2.1 (dev.noteFormat f).1 := by
  obtain ⟨hrow, hcached, harmed⟩ := h
  cases f with
  | json =>
    rw [handle, DeviceState.noteFormat]
    split_ifs with hjson
    · exact ⟨by rw [prescribed_concat, hrow, ← hcached, hjson]; rfl, by rw [prescribed_concat]; exact hjson,
        by rw [prescribed_concat]; rfl⟩
    · exact ⟨by rw [prescribed_concat]; rfl, by rw [prescribed_concat]; rfl, by rw [prescribed_concat]; rfl⟩
  | bson =>
    rw [handle, DeviceState.noteFormat]
    split_ifs with hreset hbson
    · rw [harmed] at hreset
      refine ⟨?_, ?_, ?_⟩ <;> rw [prescribed_concat, Rule.after, if_pos hreset]
      · rw [hrow, ← hcached, hbson]
      · exact hbson
    · rw [harmed] at hreset
      refine ⟨?_, ?_, ?_⟩ <;> rw [prescribed_concat, Rule.after, if_pos hreset]
    · rw [harmed] at hreset
      refine ⟨?_, ?_, ?_⟩ <;> rw [prescribed_concat, Rule.after, if_neg hreset]
      · exact hrow
      · exact hcached
      · exact harmed.trans (by simpa using hreset)
  | empty | invalid =>
    exact ⟨by rw [prescribed_concat]; exact hrow, by rw [prescribed_concat]; exact hcached,
      by rw [prescribed_concat]; exact harmed⟩

theorem Follows.handle (h : Follows hint done d dev) (m : Message) :
    Follows hint (done ++ [(Hint.handle m dev d).2.2]) (Hint.handle m dev d).2.1 (Hint.handle m dev d).1 := by
  cases m with
  | data f => exact h.note f
  | emptyCache =>
    exact ⟨by rw [prescribed_concat]; exact h.row, by rw [prescribed_concat]; exact h.cached,
      by rw [prescribed_concat]; rfl⟩
  | introspection | capabilities | producerProperties =>
    exact ⟨by rw [prescribed_concat]; exact h.row, by rw [prescribed_concat]; exact h.cached,
      by rw [prescribed_concat]; exact h.armed⟩

/-- Apart from an emptyCache no message arms the rule. -/
theorem armed_after {r : Rule} (h : r.armed = false) {m : Message} (hm : m ≠ .emptyCache) :
    (r.after m).armed = false := by
  cases m with
  | data f => cases f <;> first | rfl | exact h
  | emptyCache => exact absurd rfl hm
  | introspection | capabilities | producerProperties => exact h

theorem handle_record (m : Message) (dev : DeviceState) (d : Device) : (Hint.handle m dev d).2.2 = m := by
  cases m <;> rfl

/-! ## Whole runs -/

section Run

variable {s : Cell Device DeviceState Message Message}

/-- Where nothing waits, a state can be loaded anew. -/
theorem recoverable_of_unarmed (hs : Cell.Kept handler (Follows hint) (fun _ => True) s)
    (hunarmed : Unarmed hint s .evict) : s.Recoverable handler (Follows hint) := by
  obtain ⟨o, ho⟩ := hs.exists_good
  refine ⟨(follows_load_iff ho.row).2 hunarmed.1, fun m i o hcurrent hobject => ?_⟩
  obtain ⟨-, ⟨o', ho', hgood⟩, -⟩ := hs.current m i hcurrent
  cases hobject.symm.trans ho'
  refine (follows_load_iff (hgood.handle m).row).2 ?_
  rw [handle_record, prescribed_concat]
  refine armed_after hunarmed.1 fun heq => hunarmed.2 ?_
  rw [hcurrent, heq]
  rfl

theorem careful_of_unarmed (hs : Cell.Kept handler (Follows hint) (fun _ => True) s) {a : CellAction Message}
    (ha : Unarmed hint s a) : s.Careful handler (Follows hint) (fun _ => True) a := by
  cases a with
  | begin m => exact fun _ => trivial
  | finish => trivial
  | abort => trivial
  | evict => exact recoverable_of_unarmed hs ha

/-- Whenever the cached state is not dropped between an emptyCache and the payload that answers it, the stored hint
is the one that the rule prescribes for the messages so far. -/
theorem hint_follows_rule (d : Device) (schedule : List (CellAction Message))
    (s : Cell Device DeviceState Message Message) (hrun : exec (Cell.step handler) { row := d } schedule = some s)
    (hunarmed : Throughout (Cell.step handler) (Unarmed d.payloadFormatHint) { row := d } schedule) :
    s.row.payloadFormatHint = (prescribed d.payloadFormatHint s.done).hint := by
  have hinit : Follows d.payloadFormatHint [] d (load d) := ⟨rfl, rfl, rfl⟩
  have hkept := Cell.kept_exec (fun _ _ _ m _ hgood => hgood.handle m) (fun _ _ hs ha => careful_of_unarmed hs ha)
    hinit hunarmed hrun
  obtain ⟨o, ho⟩ := hkept.exists_good
  exact ho.row

/-- A JSON device empties its cache, writes BSON, and is dropped from the cache on either side. -/
def answeredSchedule : List (CellAction Message) :=
  [.begin (.data .json), .finish, .evict, .begin .emptyCache, .finish, .begin (.data .empty), .finish,
   .begin (.data .bson), .finish, .evict, .begin .producerProperties, .finish]

theorem hint_follows_rule_answered :
    ∃ s, exec (Cell.step handler) { row := { credentialsSecretHash := [] } } answeredSchedule = some s ∧
      s.row.payloadFormatHint = .bson ∧ (prescribed .bson s.done).hint = .bson := by
  have hrun : ((exec (Cell.step handler) { row := { credentialsSecretHash := [] } } answeredSchedule).map
      fun s => s.row.payloadFormatHint) = some .bson := by
    decide +kernel
  obtain ⟨s, hs, hbson⟩ := Option.map_eq_some_iff.1 hrun
  have hrule := hint_follows_rule _ answeredSchedule s hs (by decide +kernel)
  exact ⟨s, hs, hbson, hrule.symm.trans hbson⟩

/-- The device disconnects between its emptyCache and the BSON payload: the rule says bson, and json stays. -/
theorem hint_forgets_emptyCache :
    ∃ s, exec (Cell.step handler) { row := { credentialsSecretHash := [] } }
        [.begin (.data .json), .finish, .begin .emptyCache, .finish, .evict, .begin (.data .bson), .finish] =
          some s ∧
      s.done = [.data .json, .emptyCache, .data .bson] ∧ s.row.payloadFormatHint = .json ∧
      (prescribed .bson s.done).hint = .bson := by
  have hrun : ((exec (Cell.step handler) { row := { credentialsSecretHash := [] } }
      [.begin (.data .json), .finish, .begin .emptyCache, .finish, .evict, .begin (.data .bson), .finish]).map
        fun s => (s.done, s.row.payloadFormatHint)) = some ([.data .json, .emptyCache, .data .bson], .json) := by
    decide +kernel
  obtain ⟨s, hs, heq⟩ := Option.map_eq_some_iff.1 hrun
  obtain ⟨hdone, hjson⟩ := Prod.mk.inj heq
  exact ⟨s, hs, hdone, hjson, by rw [hdone]; rfl⟩

end Run

end Astrate.Engine.Hint
