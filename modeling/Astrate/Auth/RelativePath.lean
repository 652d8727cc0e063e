import Mathlib.Data.List.DropRight
import Astrate.Broker.Identity

/-!
# Authorization paths

`internal/auth/middleware.go`: the path that claims are matched against is what follows the first segment
that is the realm, or `v1` where there is none. It is the rest of the route unless the segments before have
the same text, as a realm may be called `flow` or `v1`, or the rest ends in `/` (`relativePath_anchored`).
-/

set_option autoImplicit false

namespace Astrate.Auth

open Astrate.GoLib

/-- `strings.Trim` with `/`. -/
def trimSlashes (s : Bytes) : Bytes := (s.dropWhile (· == 47)).rdropWhile (· == 47)

/-- The loop of `RelativePath`. -/
def relativePathLoop (base : Bytes) : List Bytes → Option Bytes
  | [] => none
  | s :: segments => if s = base then some ([47].intercalate segments) else relativePathLoop base segments

/-- `RelativePath`. -/
def relativePath (urlPath base : Bytes) : Option Bytes :=
  relativePathLoop base ((trimSlashes urlPath).splitOn 47)

/-- The first segments of the routes. -/
def services : List Bytes :=
  [utf8 "appengine", utf8 "astrate", utf8 "flow", utf8 "housekeeping", utf8 "pairing", utf8 "realmmanagement"]

/-- `/<segment>/…/<segment>/<rest>`. -/
def route (segments : List Bytes) (rest : Bytes) : Bytes := 47 :: ([47].intercalate segments ++ 47 :: rest)

theorem intercalate_cons (s : Bytes) (l : List Bytes) :
    [47].intercalate (s :: l) = s ++ if l = [] then [] else 47 :: [47].intercalate l := by
  cases l <;> simp [List.intercalate]

/-- What the loop returns is the end of the text. -/
theorem relativePathLoop_suffix {base r : Bytes} {segments : List Bytes}
    (h : relativePathLoop base segments = some r) : r <:+ [47].intercalate segments := by
  induction segments with
  | nil => cases h
  | cons s segments ih =>
    rw [intercalate_cons]
    have hrest : [47].intercalate segments <:+
        s ++ if segments = [] then [] else 47 :: [47].intercalate segments := by
      refine List.IsSuffix.trans ?_ (List.suffix_append ..)
      split_ifs with hnil
      · rw [hnil]
        exact List.nil_suffix
      · exact List.suffix_cons ..
    unfold relativePathLoop at h
    split_ifs at h
    · cases h
      exact hrest
    · exact (ih h).trans hrest

theorem length_lt_intercalate (before after : List Bytes) {base : Bytes} (hbase : base ≠ []) :
    ([47].intercalate after).length < ([47].intercalate (before ++ base :: after)).length := by
  induction before with
  | nil =>
    have hpos := List.length_pos_of_ne_nil hbase
    rw [List.nil_append, intercalate_cons]
    cases after <;> simp <;> omega
  | cons s before ih =>
    rw [List.cons_append, intercalate_cons]
    simp
    omega

theorem relativePathLoop_append {base : Bytes} (hbase : base ≠ []) (before after : List Bytes) :
    relativePathLoop base (before ++ base :: after) = some ([47].intercalate after) ↔ base ∉ before := by
  induction before with
  | nil => simp [relativePathLoop]
  | cons s before ih =>
    rw [List.cons_append, relativePathLoop, List.mem_cons, not_or]
    split_ifs with hs
    · -- The text that is returned still has the base in it.
      have hlong := length_lt_intercalate before after hbase
      simp only [Option.some.injEq, hs, ne_eq, not_true, false_and, iff_false]
      intro heq
      rw [heq] at hlong
      exact lt_irrefl _ hlong
    · rw [ih]
      exact (and_iff_right (Ne.symm hs)).symm

theorem dropWhile_of_split {s : Bytes} (h : [] ∉ s.splitOn 47) (t : Bytes) :
    (47 :: (s ++ t)).dropWhile (· == 47) = s ++ t := by
  cases s with
  | nil => simp at h
  | cons c s =>
    by_cases hc : c = 47
    · rw [hc, ← List.nil_append (47 :: s), splitOn_append_cons] at h
      simp at h
    · simp [hc]

theorem getLast?_of_split {s : Bytes} (h : [] ∉ s.splitOn 47) : s.getLast? ≠ some 47 := by
  intro hlast
  obtain ⟨s, rfl⟩ := List.getLast?_eq_some_iff.1 hlast
  rw [splitOn_append_cons] at h
  simp at h

theorem rdropWhile_of_last {s : Bytes} (h : s.getLast? ≠ some 47) : s.rdropWhile (· == 47) = s := by
  rw [List.rdropWhile_eq_self_iff]
  exact fun hne hlast => h (beq_iff_eq.1 hlast ▸ List.getLast?_eq_some_getLast hne)

theorem relativePath_route (before : List Bytes) {base rest : Bytes}
    (hsegments : ∀ s ∈ before ++ [base], s ≠ [] ∧ 47 ∉ s) :
    relativePath (route (before ++ [base]) rest) base = some rest ↔
      base ∉ before ∧ rest.getLast? ≠ some 47 := by
  have hbase := (hsegments base (by simp)).1
  have hsplit := List.splitOn_intercalate 47 (fun s hs => (hsegments s hs).2) (by simp)
  have hempty : [] ∉ ([47].intercalate (before ++ [base])).splitOn 47 := by
    rw [hsplit]
    exact fun h => (hsegments _ h).1 rfl
  by_cases hrest : rest.getLast? = some 47
  · -- The trimmed path does not end in a slash, and neither does an end of it.
    refine iff_of_false (fun h => ?_) (fun h => h.2 hrest)
    have hsuffix := relativePathLoop_suffix h
    rw [List.intercalate_splitOn] at hsuffix
    obtain ⟨s, hs⟩ := hsuffix
    have hlast : (trimSlashes (route (before ++ [base]) rest)).getLast? = some 47 := by
      rw [← hs, List.getLast?_append, hrest]
      rfl
    have hne : trimSlashes (route (before ++ [base]) rest) ≠ [] := by
      rintro hnil
      rw [hnil] at hlast
      cases hlast
    rw [List.getLast?_eq_some_getLast hne, Option.some.injEq] at hlast
    exact List.rdropWhile_last_not (· == 47) _ hne (beq_iff_eq.2 hlast)
  · rw [relativePath, trimSlashes, route, dropWhile_of_split hempty, and_iff_left hrest,
      ← relativePathLoop_append hbase before (if rest = [] then [] else rest.splitOn 47)]
    cases rest with
    | nil =>
      rw [List.rdropWhile_concat_pos _ _ _ (by rfl), rdropWhile_of_last (getLast?_of_split hempty), hsplit]
      rfl
    | cons r rest =>
      rw [rdropWhile_of_last (by simpa [List.getLast?_append] using hrest), splitOn_append_cons, hsplit,
        List.append_assoc, List.singleton_append, if_neg (by simp), List.intercalate_splitOn]

/-- **Authorization paths.** The path is the rest on a route of an instance exactly if the rest does not end in
`/`, and on a route of a realm exactly if, in addition, the realm has neither the name of the service nor
`v1`. -/
theorem relativePath_anchored (service rest : Bytes) (hservice : service ∈ services) :
    (∀ realm, Broker.validRealmName realm = true →
      (relativePath (route [service, utf8 "v1", realm] rest) realm = some rest ↔
        realm ≠ service ∧ realm ≠ utf8 "v1" ∧ rest.getLast? ≠ some 47)) ∧
    (relativePath (route [service, utf8 "v1"] rest) (utf8 "v1") = some rest ↔ rest.getLast? ≠ some 47) := by
  have hall : ∀ s ∈ services, s ≠ [] ∧ 47 ∉ s ∧ s ≠ utf8 "v1" := by decide
  obtain ⟨hne, hslash, hv1⟩ := hall service hservice
  have hversion : utf8 "v1" ≠ [] ∧ 47 ∉ utf8 "v1" := by decide
  refine ⟨fun realm hrealm => ?_, ?_⟩
  · have hrealmSlash : 47 ∉ realm := Broker.not_mem_realm hrealm (by decide)
    have hrealmNe : realm ≠ [] := by
      rintro rfl
      cases hrealm
    refine (relativePath_route [service, utf8 "v1"]
      (by simp [hne, hslash, hversion, hrealmNe, hrealmSlash])).trans ?_
    simp [and_assoc]
  · refine (relativePath_route [service] (by simp [hne, hslash, hversion])).trans ?_
    simp [hv1.symm]

theorem relativePath_anchored_agent :
    relativePath (route [utf8 "pairing", utf8 "v1", utf8 "test"] (utf8 "agent/devices")) (utf8 "test") =
      some (utf8 "agent/devices") :=
  ((relativePath_anchored _ _ (by decide)).1 _ (by decide)).2 (by decide)

/-- In the realm `flow` the path begins with the version and the realm; and a slash at the end is lost. -/
theorem relativePath_service_realm : Broker.validRealmName (utf8 "flow") = true ∧
    relativePath (route [utf8 "flow", utf8 "v1", utf8 "flow"] (utf8 "flows")) (utf8 "flow") =
      some (utf8 "v1/flow/flows") ∧
    relativePath (route [utf8 "housekeeping", utf8 "v1"] (utf8 "realms/")) (utf8 "v1") = some (utf8 "realms") := by
  decide +kernel

end Astrate.Auth
