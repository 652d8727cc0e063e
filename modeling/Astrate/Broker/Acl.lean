import Astrate.Broker.Identity
import Astrate.InterfaceSchema.Types

/-!
# The access matrix

`checkACL` of `internal/broker/aclhook.go`: what a device may publish, subscribe to and be delivered.
`checkACL_write_iff` and `checkACL_read_iff` say what is granted. Whatever the ownership map, a device
stays in its own subtree (`acl_isolated`).
-/

set_option autoImplicit false

namespace Astrate.Broker

open Astrate.GoLib
open Astrate.InterfaceSchema (Ownership)

def maxTopicBytes : Nat := 512

/-- The control topics a device may publish to, below its base. -/
def publishWords : List Bytes :=
  [utf8 "capabilities", utf8 "control/emptyCache", utf8 "control/producer/properties"]

def consumerProperties : Bytes := utf8 "control/consumer/properties"

/-- The interface a delivery topic names: what precedes its first slash, if it has one. -/
def deliveryIface (rest : Bytes) : Bytes := ((cutByte 47 rest).map Prod.fst).getD rest

/-- `checkACL`. Read checks are about filters when there is a wildcard, and about deliveries
otherwise. -/
def checkACL (base topic : Bytes) (write : Bool) (ownership : Bytes → Option Ownership) : Bool :=
  if topic = [] ∨ topic.length > maxTopicBytes then false
  else if write then
    if topic = base then true
    else
      match cutPrefix (base ++ [47]) topic with
      | none => false
      | some rest =>
        if publishWords.contains rest then true
        else
          match cutByte 47 rest with
          | none => false
          | some (iface, path) => if path = [] then false else ownership iface = some .device
  else
    match cutPrefix (base ++ [47]) topic with
    | none => false
    | some rest =>
      if topic.contains 43 || topic.contains 35 then true
      else if rest = consumerProperties then true
      else ownership (deliveryIface rest) = some .server

theorem cutPrefix_base {base topic rest : Bytes} :
    cutPrefix (base ++ [47]) topic = some rest ↔ topic = base ++ 47 :: rest := by
  rw [cutPrefix_eq_some_iff, List.append_assoc]
  rfl

/-- A topic below the base is found by cutting the base off. -/
theorem exists_below {base topic : Bytes} {P : Bytes → Prop} :
    (∃ rest, topic = base ++ 47 :: rest ∧ P rest) ↔ ∃ rest ∈ cutPrefix (base ++ [47]) topic, P rest := by
  simp only [Option.mem_def, cutPrefix_base]

/-- What follows the base of a granted publish. -/
def MayPublish (ownership : Bytes → Option Ownership) (rest : Bytes) : Prop :=
  rest ∈ publishWords ∨
    ∃ iface path, rest = iface ++ 47 :: path ∧ 47 ∉ iface ∧ path ≠ [] ∧
      ownership iface = some .device

theorem checkACL_write_iff {base topic : Bytes} {ownership : Bytes → Option Ownership} :
    checkACL base topic true ownership = true ↔
      topic ≠ [] ∧ topic.length ≤ maxTopicBytes ∧
        (topic = base ∨ ∃ rest, topic = base ++ 47 :: rest ∧ MayPublish ownership rest) := by
  rw [checkACL]
  by_cases hbad : topic = [] ∨ topic.length > maxTopicBytes
  · rw [if_pos hbad]
    refine iff_of_false Bool.false_ne_true ?_
    rintro ⟨hne, hlength, -⟩
    rcases hbad with hnil | hlong
    · exact hne hnil
    · omega
  rw [if_neg hbad, if_pos rfl]
  obtain ⟨hne, hlength⟩ := not_or.1 hbad
  rw [and_iff_right hne, and_iff_right (by omega : topic.length ≤ maxTopicBytes)]
  by_cases hbase : topic = base
  · simp [hbase]
  rw [if_neg hbase, or_iff_right hbase, exists_below]
  cases cutPrefix (base ++ [47]) topic with
  | none => simp
  | some rest =>
    simp only [Option.mem_def, Option.some.injEq, exists_eq_left', MayPublish]
    by_cases hword : rest ∈ publishWords
    · simp [hword]
    rw [if_neg (by simpa using hword), or_iff_right hword]
    cases hiface : cutByte 47 rest with
    | none =>
      refine iff_of_false Bool.false_ne_true ?_
      rintro ⟨iface, path, rfl, -⟩
      exact (cutByte_eq_none_iff 47 _).1 hiface (by simp)
    | some p =>
      obtain ⟨iface, path⟩ := p
      obtain ⟨hsplit, hfree⟩ := (cutByte_eq_some_iff 47 rest iface path).1 hiface
      dsimp only
      constructor
      · intro hgranted
        split_ifs at hgranted with hpath
        exact ⟨iface, path, hsplit, hfree, hpath, of_decide_eq_true hgranted⟩
      · rintro ⟨iface', path', hsplit', hfree', hpath, hown⟩
        rw [(cutByte_eq_some_iff 47 rest iface' path').2 ⟨hsplit', hfree'⟩, Option.some.injEq,
          Prod.mk.injEq] at hiface
        rw [← hiface.1, ← hiface.2, if_neg hpath]
        exact decide_eq_true hown

theorem checkACL_read_iff {base topic : Bytes} {ownership : Bytes → Option Ownership} :
    checkACL base topic false ownership = true ↔
      topic.length ≤ maxTopicBytes ∧ ∃ rest, topic = base ++ 47 :: rest ∧
        (43 ∈ topic ∨ 35 ∈ topic ∨ rest = consumerProperties ∨
          ownership (deliveryIface rest) = some .server) := by
  rw [checkACL]
  by_cases hbad : topic = [] ∨ topic.length > maxTopicBytes
  · rw [if_pos hbad]
    refine iff_of_false Bool.false_ne_true ?_
    rintro ⟨hlength, rest, rfl, -⟩
    rcases hbad with hnil | hlong
    · simp at hnil
    · omega
  rw [if_neg hbad, if_neg Bool.false_ne_true,
    and_iff_right (by have := (not_or.1 hbad).2; omega : topic.length ≤ maxTopicBytes), exists_below]
  cases cutPrefix (base ++ [47]) topic with
  | none => simp
  | some rest =>
    by_cases hplus : 43 ∈ topic
    · simp [hplus]
    · by_cases hhash : 35 ∈ topic
      · simp [hhash]
      · by_cases hconsumer : rest = consumerProperties
        · simp [hconsumer]
        · simp [hplus, hhash, hconsumer]

/-! ## Isolation -/

/-- A granted publish or filter lies in the device's own subtree; no granted publish is at or below the
base of another device, and no granted filter matches such a topic. -/
theorem acl_isolated {cnA cnB : Bytes} {a b : Identity} (ha : parseCN cnA = .ok a)
    (hb : parseCN cnB = .ok b) (hne : a ≠ b) (ownership : Bytes → Option Ownership) :
    (∀ topic, checkACL a.baseTopic topic true ownership = true →
      Under a.baseTopic topic ∧ ¬ Under b.baseTopic topic) ∧
    ∀ filter, checkACL a.baseTopic filter false ownership = true →
      (∃ rest, filter = a.baseTopic ++ 47 :: rest) ∧
        ∀ topic, topicMatches filter topic = true → ¬ Under b.baseTopic topic := by
  have hva := validRealmName_of_parseCN ha
  have hvb := validRealmName_of_parseCN hb
  have hdisjoint : ∀ topic, Under a.baseTopic topic → ¬ Under b.baseTopic topic :=
    fun topic h h' => hne (Identity.eq_of_under hva hvb h h')
  constructor
  · intro topic hgranted
    have hunder : Under a.baseTopic topic := by
      obtain ⟨-, -, htopic⟩ := checkACL_write_iff.1 hgranted
      rcases htopic with rfl | ⟨rest, rfl, -⟩
      · exact .inl rfl
      · exact .inr ⟨rest, rfl⟩
    exact ⟨hunder, hdisjoint topic hunder⟩
  · intro filter hgranted
    obtain ⟨-, rest, rfl, -⟩ := checkACL_read_iff.1 hgranted
    refine ⟨⟨rest, rfl⟩, fun topic hmatch => hdisjoint topic ?_⟩
    -- The levels of the base are literal: no wildcard can occur in an identity.
    have hplus : 43 ∉ a.baseTopic := Identity.not_mem_cn hva (by decide) (by decide) (by decide)
    exact under_of_topicMatches hplus hmatch

/-- Two devices of one realm, and the filter for everything below the first. -/
theorem acl_isolated_neighbours :
    parseCN (utf8 "acme/AAAAAAAAAAAAAAAAAAAAAA") = .ok ⟨utf8 "acme", Vector.replicate 16 0⟩ ∧
      parseCN (utf8 "acme/_____________________w") = .ok ⟨utf8 "acme", Vector.replicate 16 255⟩ ∧
      ∀ topic, topicMatches (utf8 "acme/AAAAAAAAAAAAAAAAAAAAAA/#") topic = true →
        ¬ Under (utf8 "acme/_____________________w") topic := by
  have ha : parseCN (utf8 "acme/AAAAAAAAAAAAAAAAAAAAAA") =
      .ok ⟨utf8 "acme", Vector.replicate 16 0⟩ := by decide +kernel
  have hb : parseCN (utf8 "acme/_____________________w") =
      .ok ⟨utf8 "acme", Vector.replicate 16 255⟩ := by decide +kernel
  have hgranted : checkACL (Identity.baseTopic ⟨utf8 "acme", Vector.replicate 16 0⟩)
      (utf8 "acme/AAAAAAAAAAAAAAAAAAAAAA/#") false (fun _ => none) = true := by decide +kernel
  exact ⟨ha, hb, ((acl_isolated ha hb (by decide +kernel) fun _ => none).2 _ hgranted).2⟩

end Astrate.Broker
