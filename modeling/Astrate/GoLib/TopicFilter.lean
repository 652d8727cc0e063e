import Astrate.GoLib.Bytes

/-!
# Topic filters

MQTT topics are levels separated by slashes. In a filter `+` stands for any one level and a final `#`
for the level before it and everything below. A filter that starts with literal levels only matches
topics that start with the same levels (`under_of_topicMatches`).
-/

set_option autoImplicit false

namespace Astrate.GoLib

/-- The levels of a topic or filter. -/
def topicLevels (t : Bytes) : List Bytes := t.splitOn 47

/-- A topic at or below another one. -/
def Under (base topic : Bytes) : Prop := topic = base ∨ ∃ rest, topic = base ++ 47 :: rest

/-- A filter matches a topic, level by level. -/
def matchTopicLevels : List Bytes → List Bytes → Bool
  | [], [] => true
  | f :: fs, [] => f = [35] && fs.isEmpty
  | f :: fs, t :: ts =>
    (f = [35] && fs.isEmpty) || ((f = [43] || f = t) && matchTopicLevels fs ts)
  | [], _ :: _ => false

/-- A filter matches a topic; a leading wildcard does not match a topic that starts with `$`. -/
def topicMatches (filter topic : Bytes) : Bool :=
  !((filter.head? = some 35 || filter.head? = some 43) && topic.head? = some 36) &&
    matchTopicLevels (topicLevels filter) (topicLevels topic)

/-! ## Joining and splitting -/

theorem topicLevels_append (base rest : Bytes) :
    topicLevels (base ++ 47 :: rest) = topicLevels base ++ topicLevels rest :=
  splitOn_append_cons base rest

/-- The levels determine the topic. -/
theorem topicLevels_inj {s t : Bytes} (h : topicLevels s = topicLevels t) : s = t := by
  have hjoin := congrArg (List.intercalate [47]) h
  rwa [topicLevels, topicLevels, List.intercalate_splitOn, List.intercalate_splitOn] at hjoin

/-- A topic whose levels start with those of another one is at or below it. -/
theorem under_of_topicLevels {base topic : Bytes} {ts : List Bytes}
    (h : topicLevels topic = topicLevels base ++ ts) : Under base topic := by
  by_cases hnil : ts = []
  · left
    rw [hnil, List.append_nil] at h
    exact topicLevels_inj h
  · right
    refine ⟨List.intercalate [47] ts, topicLevels_inj ?_⟩
    have hfree : ∀ l ∈ ts, 47 ∉ l := by
      intro l hl
      apply not_mem_of_mem_splitOn topic
      rw [show topic.splitOn 47 = topicLevels topic from rfl, h]
      exact List.mem_append_right _ hl
    have hjoin : topicLevels (List.intercalate [47] ts) = ts := List.splitOn_intercalate 47 hfree hnil
    rw [topicLevels_append, h, hjoin]

/-! ## Literal levels -/

theorem matchTopicLevels_append {fs rest ts : List Bytes} (hrest : rest ≠ [])
    (hfs : ∀ f ∈ fs, f ≠ [43]) (h : matchTopicLevels (fs ++ rest) ts = true) : ∃ ts', ts = fs ++ ts' := by
  induction fs generalizing ts with
  | nil => exact ⟨ts, rfl⟩
  | cons f fs ih =>
    -- A level that has others behind it is not the final `#`.
    have hmore : (fs ++ rest).isEmpty = false := by
      cases fs with
      | nil => simpa using hrest
      | cons _ _ => rfl
    cases ts with
    | nil =>
      rw [List.cons_append, matchTopicLevels, hmore, Bool.and_false] at h
      cases h
    | cons t ts =>
      rw [List.cons_append, matchTopicLevels, hmore, Bool.and_false, Bool.false_or,
        Bool.and_eq_true, Bool.or_eq_true, decide_eq_true_eq, decide_eq_true_eq] at h
      obtain ⟨hlevel, h⟩ := h
      obtain ⟨ts', rfl⟩ := ih (fun g hg => hfs g (List.mem_cons_of_mem _ hg)) h
      rcases hlevel with hplus | rfl
      · exact absurd hplus (hfs f List.mem_cons_self)
      · exact ⟨ts', rfl⟩

/-- What a filter below a base without wildcards matches is at or below that base. -/
theorem under_of_topicMatches {base rest topic : Bytes} (hplus : 43 ∉ base)
    (h : topicMatches (base ++ 47 :: rest) topic = true) : Under base topic := by
  have hlevels := (Bool.and_eq_true_iff.1 h).2
  rw [topicLevels_append] at hlevels
  obtain ⟨ts, hts⟩ := matchTopicLevels_append (List.splitOn_ne_nil 47 rest) (by
    rintro f hf rfl
    -- A level `+` would stand in `base`.
    exact hplus ((mem_splitOn (by decide)).2 ⟨_, hf, List.mem_singleton_self 43⟩)) hlevels
  exact under_of_topicLevels hts

end Astrate.GoLib
