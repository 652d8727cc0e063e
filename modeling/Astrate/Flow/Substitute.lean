import Astrate.Flow.Pipeline

/-!
# Placeholders

`internal/flow/substitute.go`: the string values of a definition have their `${config.KEY}` placeholders
replaced by the values of a configuration.

A map is walked in no fixed order, so which error `SubstituteConfig` returns if there are several is not
fixed either; here it is the first in the order of the keys. Whether there is one does not depend on it.
-/

set_option autoImplicit false

namespace Astrate.Flow

open Astrate.GoLib
open Astrate.GoLib.Json (Generic decodeAny scanDocument)

/-- `[A-Za-z_]` -/
def isKeyStart (c : UInt8) : Bool := (65 ≤ c && c ≤ 90) || (97 ≤ c && c ≤ 122) || c == 95

/-- `[A-Za-z0-9_]` -/
def isKeyByte (c : UInt8) : Bool := isKeyStart c || isDigit c

/-- How every placeholder starts. -/
def configStart : Bytes := utf8 "$\x7bconfig."

/-- The key of a placeholder that `s` starts with. -/
def configPlaceholder (s : Bytes) : Option Bytes := do
  let rest ← cutPrefix configStart s
  let key := rest.takeWhile isKeyByte
  let c ← key.head?
  if isKeyStart c && (rest.drop key.length).head? == some 125 then some key else none

/-- The text of a configuration value. A number is printed as an integer if it is one that an `int64`
holds; a `json.Number` is in no decoded value. -/
def configValueString : Generic → Except FmtError Bytes
  | .string s => .ok s
  | .number f =>
    if f.integral && f.ltInt 9223372036854775808 && !f.ltInt (-9223372036854775808) then
      .ok (formatInt f.toInt)
    else .ok f.formatPlain
  | .bool b => .ok (if b then utf8 "true" else utf8 "false")
  | .null => errorf "value is null (stringable string/number/bool required)" []
  | .array _ =>
    errorf "value has type %T (stringable string/number/bool required)" [.str (utf8 "[]interface \x7b\x7d")]
  | .object _ =>
    errorf "value has type %T (stringable string/number/bool required)"
      [.str (utf8 "map[string]interface \x7b\x7d")]

/-- What a placeholder is replaced by. -/
def placeholderValue (config : Config) (key : Bytes) : Except FmtError Bytes :=
  match config.lookup key with
  | none =>
    errorf "flow: missing config key %q for placeholder $\x7bconfig.%s\x7d" [.str key, .str key]
  | some v =>
    (configValueString v).mapError fun e => ⟨"flow: config key %q: " ++ e.format, .str key :: e.args⟩

/-- `ReplaceAllStringFunc`: the octets of a match are skipped once it has been replaced. -/
def replaceAll (config : Config) : Nat → Bytes → Except FmtError Bytes
  | _, [] => .ok []
  | skip + 1, _ :: s => replaceAll config skip s
  | 0, c :: s =>
    match configPlaceholder (c :: s) with
    | none => (replaceAll config 0 s).map (c :: ·)
    | some key => do
        let v ← placeholderValue config key
        let rest ← replaceAll config (configStart.length + key.length) s
        .ok (v ++ rest)

/-- `strings.Contains` -/
def containsBytes (s sub : Bytes) : Bool := s.tails.any fun t => sub.isPrefixOf t

/-- `replacePlaceholders`. -/
def replacePlaceholders (s : Bytes) (config : Config) : Except FmtError Bytes := do
  let out ← replaceAll config 0 s
  if containsBytes out configStart then
    errorf "flow: unresolved or invalid config placeholder in %q" [.str s]
  else .ok out

mutual

/-- A member of an object or an element of an array. -/
def substituteChild (config : Config) : Generic → Except FmtError Generic
  | .string s => (replacePlaceholders s config).map .string
  | .array elems => (substituteElems config elems).map .array
  | .object members => (substituteMembers config members).map .object
  | .null => .ok .null
  | .bool b => .ok (.bool b)
  | .number f => .ok (.number f)

def substituteElems (config : Config) : List Generic → Except FmtError (List Generic)
  | [] => .ok []
  | e :: es => do
      let e' ← substituteChild config e
      let es' ← substituteElems config es
      .ok (e' :: es')

def substituteMembers (config : Config) : List (Bytes × Generic) → Except FmtError (List (Bytes × Generic))
  | [] => .ok []
  | (k, v) :: ms => do
      let v' ← substituteChild config v
      let ms' ← substituteMembers config ms
      .ok ((k, v') :: ms')

end

/-- The walk starts at the document; one that is a string is left as it is. -/
def walkSubstitute (config : Config) : Generic → Except FmtError Generic
  | .string s => .ok (.string s)
  | v => substituteChild config v

/-- `SubstituteConfig`. -/
def substituteConfig (definition : Bytes) (config : Config) : Except FmtError Bytes :=
  if definition.isEmpty then errorf "flow: empty pipeline definition" []
  else
    match (scanDocument definition).bind decodeAny with
    | none => errorf "flow: pipeline definition does not parse: %w" [.err]
    | some root => (walkSubstitute config root).map fun v => Json.marshal true v.toAny

/-! ## Errors -/

/-- The formats of the errors of `SubstituteConfig`. -/
def substituteFormats : List String :=
  ["flow: empty pipeline definition", "flow: pipeline definition does not parse: %w",
    "flow: missing config key %q for placeholder $\x7bconfig.%s\x7d",
    "flow: unresolved or invalid config placeholder in %q",
    "flow: config key %q: value is null (stringable string/number/bool required)",
    "flow: config key %q: value has type %T (stringable string/number/bool required)"]

theorem placeholderValue_errors (config : Config) (key : Bytes) :
    ErrorsIn substituteFormats (placeholderValue config key) := by
  rw [placeholderValue]
  cases config.lookup key with
  | none => exact errorsIn_errorf (by decide) _
  | some v =>
    cases v with
    | string s => exact errorsIn_ok s
    | bool b => exact errorsIn_ok _
    | number f =>
      simp only [configValueString]
      split_ifs
      · exact errorsIn_ok _
      · exact errorsIn_ok _
    | null => exact errorsIn_errorf (by decide) _
    | array _ => exact errorsIn_errorf (by decide) _
    | object _ => exact errorsIn_errorf (by decide) _

theorem replaceAll_errors (config : Config) (skip : Nat) (s : Bytes) :
    ErrorsIn substituteFormats (replaceAll config skip s) := by
  induction s generalizing skip with
  | nil =>
    cases skip with
    | zero => exact errorsIn_ok _
    | succ skip => exact errorsIn_ok _
  | cons c s ih =>
    cases skip with
    | succ skip => exact ih skip
    | zero =>
      rw [replaceAll]
      cases configPlaceholder (c :: s) with
      | none => exact (ih 0).map _
      | some key =>
        exact (placeholderValue_errors config key).bind fun v =>
          (ih _).bind fun rest => errorsIn_ok _

theorem replacePlaceholders_errors (s : Bytes) (config : Config) :
    ErrorsIn substituteFormats (replacePlaceholders s config) := by
  refine (replaceAll_errors config 0 s).bind fun out => ?_
  split_ifs
  · exact errorsIn_errorf (by decide) _
  · exact errorsIn_ok _

mutual

theorem substituteChild_errors (config : Config) : ∀ v : Generic,
    ErrorsIn substituteFormats (substituteChild config v)
  | .string s => (replacePlaceholders_errors s config).map _
  | .array elems => (substituteElems_errors config elems).map _
  | .object members => (substituteMembers_errors config members).map _
  | .null => errorsIn_ok _
  | .bool _ => errorsIn_ok _
  | .number _ => errorsIn_ok _

theorem substituteElems_errors (config : Config) : ∀ es : List Generic,
    ErrorsIn substituteFormats (substituteElems config es)
  | [] => errorsIn_ok _
  | e :: es =>
    (substituteChild_errors config e).bind fun _ =>
      (substituteElems_errors config es).bind fun _ => errorsIn_ok _

theorem substituteMembers_errors (config : Config) : ∀ ms : List (Bytes × Generic),
    ErrorsIn substituteFormats (substituteMembers config ms)
  | [] => errorsIn_ok _
  | (_, v) :: ms =>
    (substituteChild_errors config v).bind fun _ =>
      (substituteMembers_errors config ms).bind fun _ => errorsIn_ok _

end

theorem substituteConfig_errors (definition : Bytes) (config : Config) :
    ErrorsIn substituteFormats (substituteConfig definition config) := by
  rw [substituteConfig]
  split_ifs
  · exact errorsIn_errorf (by decide) _
  · cases (scanDocument definition).bind decodeAny with
    | none => exact errorsIn_errorf (by decide) _
    | some root =>
      apply ErrorsIn.map
      cases root with
      | string s => exact errorsIn_ok _
      | null => exact errorsIn_ok _
      | bool b => exact errorsIn_ok _
      | number f => exact errorsIn_ok _
      | array elems => exact substituteChild_errors config _
      | object members => exact substituteChild_errors config _

/-! ## Definitions without placeholders -/

mutual

/-- No string in the value has the start of a placeholder. -/
def plainValue : Generic → Bool
  | .string s => !containsBytes s configStart
  | .array elems => plainElems elems
  | .object members => plainMembers members
  | .null => true
  | .bool _ => true
  | .number _ => true

def plainElems : List Generic → Bool
  | [] => true
  | e :: es => plainValue e && plainElems es

def plainMembers : List (Bytes × Generic) → Bool
  | [] => true
  | (_, v) :: ms => plainValue v && plainMembers ms

end

theorem containsBytes_cons {c : UInt8} {s sub : Bytes} (h : containsBytes (c :: s) sub = false) :
    sub.isPrefixOf (c :: s) = false ∧ containsBytes s sub = false := by
  rw [containsBytes, List.tails_cons, List.any_cons, Bool.or_eq_false_iff] at h
  exact h

theorem replaceAll_plain (config : Config) {s : Bytes} (h : containsBytes s configStart = false) :
    replaceAll config 0 s = .ok s := by
  induction s with
  | nil => rfl
  | cons c s ih =>
    obtain ⟨hstart, hrest⟩ := containsBytes_cons h
    have hnone : configPlaceholder (c :: s) = none := by
      rw [configPlaceholder, cutPrefix, if_neg (by rw [hstart]; exact Bool.false_ne_true)]
      rfl
    rw [replaceAll, hnone, ih hrest]
    rfl

theorem replacePlaceholders_plain (config : Config) {s : Bytes} (h : containsBytes s configStart = false) :
    replacePlaceholders s config = .ok s := by
  rw [replacePlaceholders, replaceAll_plain config h]
  simp [bind, Except.bind, h]

mutual

theorem substituteChild_plain (config : Config) : ∀ v : Generic, plainValue v = true →
    substituteChild config v = .ok v
  | .string s, h => by
      rw [plainValue, Bool.not_eq_true'] at h
      rw [substituteChild, replacePlaceholders_plain config h]
      rfl
  | .array elems, h => by
      rw [substituteChild, substituteElems_plain config elems h]
      rfl
  | .object members, h => by
      rw [substituteChild, substituteMembers_plain config members h]
      rfl
  | .null, _ => rfl
  | .bool _, _ => rfl
  | .number _, _ => rfl

theorem substituteElems_plain (config : Config) : ∀ es : List Generic, plainElems es = true →
    substituteElems config es = .ok es
  | [], _ => rfl
  | e :: es, h => by
      rw [plainElems, Bool.and_eq_true] at h
      rw [substituteElems, substituteChild_plain config e h.1, substituteElems_plain config es h.2]
      rfl

theorem substituteMembers_plain (config : Config) : ∀ ms : List (Bytes × Generic),
    plainMembers ms = true → substituteMembers config ms = .ok ms
  | [], _ => rfl
  | (k, v) :: ms, h => by
      rw [plainMembers, Bool.and_eq_true] at h
      rw [substituteMembers, substituteChild_plain config v h.1, substituteMembers_plain config ms h.2]
      rfl

end

/-- The definition has no placeholders. -/
def plainDefinition (definition : Bytes) : Bool :=
  ((scanDocument definition).bind decodeAny).all plainValue

/-- Without placeholders the configuration does not matter. -/
theorem substituteConfig_plain {definition : Bytes} (h : plainDefinition definition = true)
    (config config' : Config) : substituteConfig definition config = substituteConfig definition config' := by
  rw [substituteConfig, substituteConfig]
  cases hroot : (scanDocument definition).bind decodeAny with
  | none => rfl
  | some root =>
    rw [plainDefinition, hroot, Option.all_some] at h
    have hwalk : ∀ c : Config, walkSubstitute c root = .ok root := by
      intro c
      cases root with
      | string s => rfl
      | null => rfl
      | bool b => rfl
      | number f => rfl
      | array elems => exact substituteChild_plain c _ h
      | object members => exact substituteChild_plain c _ h
    dsimp only
    rw [hwalk, hwalk]

end Astrate.Flow
