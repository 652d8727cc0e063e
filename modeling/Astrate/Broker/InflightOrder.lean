import Astrate.GoLib.Bytes
import Astrate.GoLib.Map
import Mathlib.Data.List.Chain
import Mathlib.Data.List.Sort

/-!
# The order in which a stored queue is replayed

`normalizeInflightOrder` of `internal/broker/sessionstore.go` prepares the offline queues for the MQTT
server after a restart: each client's records are sorted by `Seq` and their `Created` seconds made
strictly increasing. The server then sorts a client's messages by `uint16(Created)` alone, so the queueing
order survives exactly where the truncation keeps the order of these seconds (`replay_in_seq_order`).
-/

set_option autoImplicit false

namespace Astrate.Broker

open Astrate.GoLib

section

variable {κ : Type}

/-- `storage.Message`; the fields that loading only copies are its content. -/
structure InflightMessage (κ : Type) where
  client : Bytes
  created : Int64
  content : κ
  deriving DecidableEq

/-- `storedMessage`, without the expiry, which is checked before. -/
structure StoredMessage (κ : Type) extends InflightMessage κ where
  seq : Nat

/-- The key of the server's replay sort, `uint16(Created)`. -/
def InflightMessage.replayKey (m : InflightMessage κ) : Int := m.created.toInt % 65536

/-- `byClient[id]`: the records of a client, in the order of the list. -/
def recordsOf (id : Bytes) (recs : List (StoredMessage κ)) : List (StoredMessage κ) :=
  recs.filter (·.client == id)

/-- The insertion sort by `Seq`. The sorted front of the slice is kept with its end first, for a record
moves forward from that end while the record before it has the larger `Seq`. -/
def sortBySeq (group : List (StoredMessage κ)) : List (StoredMessage κ) :=
  (group.foldl (fun front r => front.orderedInsert (fun a b => b.seq ≤ a.seq) r) []).reverse

/-- The loop that rewrites `Created`; there is no previous value before the first record. -/
def clampCreated (prev : Option Int64) : List (StoredMessage κ) → List (InflightMessage κ)
  | [] => []
  | r :: rs =>
    let created := (prev.filter (r.created ≤ ·)).elim r.created (· + 1)
    { r.toInflightMessage with created := created } :: clampCreated (some created) rs

/-- The clients come in the order of their first records. -/
def normalizeInflightOrder (recs : List (StoredMessage κ)) : List (InflightMessage κ) :=
  (recs.map (·.client)).eraseDups.flatMap fun id => clampCreated none (sortBySeq (recordsOf id recs))

/-! ## Grouping and sorting -/

theorem sortBySeq_perm (group : List (StoredMessage κ)) : (sortBySeq group).Perm group := by
  unfold sortBySeq
  rw [← List.foldr_reverse]
  exact (List.reverse_perm _).trans ((List.perm_insertionSort _ _).trans (List.reverse_perm _))

/-- Records with different `Seq` end up in strictly increasing order. -/
theorem sortBySeq_increasing {group : List (StoredMessage κ)} (h : group.Pairwise (·.seq ≠ ·.seq)) :
    (sortBySeq group).Pairwise (·.seq < ·.seq) := by
  have hle : (sortBySeq group).Pairwise (·.seq ≤ ·.seq) := by
    unfold sortBySeq
    rw [← List.foldr_reverse, List.pairwise_reverse]
    exact List.pairwise_insertionSort (fun a b : StoredMessage κ => b.seq ≤ a.seq) _
  have hne := (sortBySeq_perm group).symm.pairwise h fun hab => Ne.symm hab
  exact hle.imp₂ (fun _ _ hab hn => lt_of_le_of_ne hab hn) hne

theorem client_of_mem_clampCreated {rs : List (StoredMessage κ)} {m : InflightMessage κ} :
    ∀ {prev : Option Int64}, m ∈ clampCreated prev rs → ∃ r ∈ rs, m.client = r.client := by
  induction rs with
  | nil => exact nofun
  | cons r rs ih =>
    intro prev h
    rcases List.mem_cons.1 h with rfl | h
    · exact ⟨r, List.mem_cons_self, rfl⟩
    · obtain ⟨r', hr', hm⟩ := ih h
      exact ⟨r', List.mem_cons_of_mem _ hr', hm⟩

/-- The messages of a client. -/
def messagesOf (id : Bytes) (msgs : List (InflightMessage κ)) : List (InflightMessage κ) :=
  msgs.filter (·.client == id)

/-- Each client has one part of the result, with the messages of its own. -/
theorem messagesOf_flatMap {f : Bytes → List (InflightMessage κ)} (hf : ∀ c, ∀ m ∈ f c, m.client = c)
    (id : Bytes) (clients : List Bytes) :
    messagesOf id (clients.eraseDups.flatMap f) = if id ∈ clients then f id else [] := by
  induction hn : clients.length using Nat.strong_induction_on generalizing clients with
  | _ n ih =>
    cases clients with
    | nil => rfl
    | cons c clients =>
      have hless : (clients.filter fun b => !b == c).length < n :=
        hn ▸ Nat.lt_succ_of_le (List.length_filter_le _ clients)
      have hrest := ih _ hless _ rfl
      rw [List.eraseDups_cons, List.flatMap_cons, messagesOf, List.filter_append, ← messagesOf, ← messagesOf,
        hrest]
      by_cases hc : c = id
      · subst hc
        rw [messagesOf, List.filter_eq_self.2 fun m hm => beq_iff_eq.2 (hf c m hm)]
        simp
      · have hnil : messagesOf id (f c) = [] := by
          refine List.filter_eq_nil_iff.2 fun m hm h => hc ?_
          rw [← hf c m hm, beq_iff_eq.1 h]
        simp [hnil, Ne.symm hc]

/-- What a client gets is what becomes of its group. -/
theorem messagesOf_normalizeInflightOrder (recs : List (StoredMessage κ)) (id : Bytes) :
    messagesOf id (normalizeInflightOrder recs) = clampCreated none (sortBySeq (recordsOf id recs)) := by
  have hclient : ∀ c, ∀ m ∈ clampCreated none (sortBySeq (recordsOf c recs)), m.client = c := by
    intro c m hm
    obtain ⟨r, hr, hmr⟩ := client_of_mem_clampCreated hm
    have hr := (List.mem_filter.1 ((sortBySeq_perm _).subset hr)).2
    rw [hmr, beq_iff_eq.1 hr]
  unfold normalizeInflightOrder
  rw [messagesOf_flatMap hclient]
  split_ifs with hid
  · rfl
  · have hnone : recordsOf id recs = [] := by
      refine List.filter_eq_nil_iff.2 fun r hr h => hid ?_
      exact List.mem_map.2 ⟨r, hr, beq_iff_eq.1 h⟩
    rw [hnone]
    rfl

/-! ## Rewritten seconds -/

/-- The message of a record, at its own second or a later one. -/
def Raised (r : StoredMessage κ) (m : InflightMessage κ) : Prop :=
  m = { r.toInflightMessage with created := m.created } ∧ r.created.toInt ≤ m.created.toInt

/-- The seconds that the loop is after, as integers without a largest one: from `floor` on, one apart. -/
def seconds : Int → List (StoredMessage κ) → List Int
  | _, [] => []
  | floor, r :: rs => max r.created.toInt floor :: seconds (max r.created.toInt floor + 1) rs

/-- The least increasing seconds that are not before those of the records. -/
structure LeastSeconds (queue : List (StoredMessage κ)) (ds : List Int) : Prop where
  notBefore : List.Forall₂ (fun r d => r.created.toInt ≤ d) queue ds
  increasing : ds.Pairwise (· < ·)
  least : ∀ es, List.Forall₂ (fun r e => r.created.toInt ≤ e) queue es → es.Pairwise (· < ·) →
    List.Forall₂ (· ≤ ·) ds es

theorem le_of_mem_seconds {rs : List (StoredMessage κ)} {d : Int} :
    ∀ {floor : Int}, d ∈ seconds floor rs → floor ≤ d := by
  induction rs with
  | nil => exact nofun
  | cons r rs ih =>
    intro floor h
    rcases List.mem_cons.1 h with rfl | h
    · exact le_max_right ..
    · have := ih h
      omega

theorem leastSeconds (queue : List (StoredMessage κ)) :
    LeastSeconds queue (seconds (-9223372036854775808) queue) := by
  have hleast : ∀ (rs : List (StoredMessage κ)) (floor : Int) (es : List Int),
      List.Forall₂ (fun r e => r.created.toInt ≤ e) rs es → (∀ e ∈ es, floor ≤ e) → es.Pairwise (· < ·) →
        List.Forall₂ (· ≤ ·) (seconds floor rs) es := by
    intro rs
    induction rs with
    | nil => exact fun floor es h _ _ => by cases h; exact .nil
    | cons r rs ih =>
      rintro floor _ (_ | ⟨hr, h⟩) hfloor hpair
      rw [List.pairwise_cons] at hpair
      have he := max_le hr (hfloor _ List.mem_cons_self)
      exact .cons he (ih _ _ h (fun e he' => by have := hpair.1 e he'; omega) hpair.2)
  refine ⟨?_, ?_, fun es h => hleast queue _ es h ?_⟩
  · generalize (-9223372036854775808 : Int) = floor
    induction queue generalizing floor with
    | nil => exact .nil
    | cons r rs ih => exact .cons (le_max_left ..) (ih _)
  · generalize (-9223372036854775808 : Int) = floor
    induction queue generalizing floor with
    | nil => exact .nil
    | cons r rs ih => exact .cons (fun d hd => by have := le_of_mem_seconds hd; omega) (ih _)
  · intro e he
    obtain ⟨r, -, hr⟩ := exists_of_forall₂_right h he
    exact r.created.le_toInt.trans hr

theorem LeastSeconds.unique {queue : List (StoredMessage κ)} {ds ds' : List Int} (h : LeastSeconds queue ds)
    (h' : LeastSeconds queue ds') : ds = ds' := by
  have hle := h.least ds' h'.notBefore h'.increasing
  have hge := h'.least ds h.notBefore h.increasing
  clear h h'
  induction hle with
  | nil => rfl
  | cons hd _ ih =>
    cases hge with
    | cons hd' hge => rw [le_antisymm hd hd', ih hge]

/-- The second of the next message, unless it overflows. -/
theorem created_toInt {prev : Int64} {r : StoredMessage κ}
    (h : max r.created.toInt (prev.toInt + 1) < 9223372036854775808) :
    ((Option.filter (r.created ≤ ·) (some prev)).elim r.created (· + 1)).toInt =
      max r.created.toInt (prev.toInt + 1) := by
  by_cases hle : r.created ≤ prev
  · have hlow := prev.le_toInt
    have hle' := Int64.le_iff_toInt_le.1 hle
    have hsucc : (prev + 1).toInt = prev.toInt + 1 := by
      rw [Int64.toInt_add, Int64.toInt_one]
      exact Int.bmod_eq_of_le (by omega) (by omega)
    simp only [Option.filter, hle, decide_true, if_true, Option.elim_some, hsucc]
    omega
  · have hlt := not_le.1 fun h => hle (Int64.le_iff_toInt_le.2 h)
    simp only [Option.filter, hle, decide_false, Bool.false_eq_true, if_false, Option.elim_none]
    omega

/-- Where no second overflows, the loop gives the messages these seconds. -/
theorem clampCreated_spec (rs : List (StoredMessage κ)) : ∀ prev : Int64,
    (∀ d ∈ seconds (prev.toInt + 1) rs, d < 9223372036854775808) →
      (clampCreated (some prev) rs).map (·.created.toInt) = seconds (prev.toInt + 1) rs ∧
        List.Forall₂ Raised rs (clampCreated (some prev) rs) := by
  induction rs with
  | nil => exact fun prev _ => ⟨rfl, .nil⟩
  | cons r rs ih =>
    intro prev h
    rw [seconds, List.forall_mem_cons] at h
    have hcreated := created_toInt h.1
    obtain ⟨hmap, hall⟩ := ih _ (hcreated ▸ h.2)
    unfold clampCreated seconds
    refine ⟨?_, .cons ⟨rfl, ?_⟩ hall⟩
    · rw [List.map_cons, hmap, hcreated]
    · show _ ≤ Int64.toInt _
      rw [hcreated]
      exact le_max_left ..

/-- A second that overflows has the least key, behind the largest. -/
theorem seconds_lt_of_sorted (rs : List (StoredMessage κ)) : ∀ prev : Int64,
    (prev.toInt % 65536 :: (clampCreated (some prev) rs).map (·.replayKey)).Pairwise (· ≤ ·) →
      ∀ d ∈ seconds (prev.toInt + 1) rs, d < 9223372036854775808 := by
  induction rs with
  | nil => exact nofun
  | cons r rs ih =>
    intro prev h
    have hmax := prev.toInt_lt
    have hr := r.created.toInt_lt
    unfold clampCreated at h
    rw [List.map_cons, List.pairwise_cons, List.forall_mem_cons] at h
    have hfirst : max r.created.toInt (prev.toInt + 1) < 9223372036854775808 := by
      by_contra hover
      have hprev : prev = Int64.maxValue := Int64.toInt_inj.1 (by rw [Int64.toInt_maxValue]; omega)
      have hle : r.created ≤ Int64.maxValue := Int64.le_iff_toInt_le.2 (by rw [← hprev]; omega)
      have hkeys := h.1.1
      simp only [InflightMessage.replayKey, hprev, Option.filter, hle, decide_true, if_true,
        Option.elim_some] at hkeys
      exact absurd hkeys (by decide)
    rw [seconds, List.forall_mem_cons, ← created_toInt hfirst]
    exact ⟨by rw [created_toInt hfirst]; exact hfirst, ih _ h.2⟩

/-- Sorting by keys that increase already changes nothing. -/
theorem replay_unique {msgs replay : List (InflightMessage κ)}
    (h : msgs.Pairwise (·.replayKey < ·.replayKey)) (hperm : replay.Perm msgs)
    (hsorted : replay.Pairwise (·.replayKey ≤ ·.replayKey)) : replay = msgs := by
  refine List.Perm.eq_of_pairwise ?_ hsorted (h.imp le_of_lt) hperm
  intro a b ha hb hab hba
  have hnodup : (msgs.map (·.replayKey)).Nodup := List.pairwise_map.2 (h.imp ne_of_lt)
  exact List.inj_on_of_nodup_map hnodup (hperm.subset ha) hb (le_antisymm hab hba)

/-- The client's messages are those of its records in the order of `Seq`, each once and with nothing but a
later second, and every sort of them by the server's key leaves them in that order. -/
def ReplaysInSeqOrder (recs : List (StoredMessage κ)) (id : Bytes) : Prop :=
  ∃ queue, queue.Perm (recordsOf id recs) ∧ queue.Pairwise (·.seq < ·.seq) ∧
    List.Forall₂ Raised queue (messagesOf id (normalizeInflightOrder recs)) ∧
    ∀ replay, replay.Perm (messagesOf id (normalizeInflightOrder recs)) →
      replay.Pairwise (·.replayKey ≤ ·.replayKey) → replay = messagesOf id (normalizeInflightOrder recs)

/-- A list of different messages that every sort leaves as it is has increasing keys. -/
theorem keys_of_replay_unique {msgs : List (InflightMessage κ)} (hnodup : msgs.Nodup)
    (h : ∀ replay, replay.Perm msgs → replay.Pairwise (·.replayKey ≤ ·.replayKey) → replay = msgs)
    (hsorted : msgs.Pairwise (·.replayKey ≤ ·.replayKey)) : msgs.Pairwise (·.replayKey < ·.replayKey) := by
  have : IsTrans (InflightMessage κ) (·.replayKey < ·.replayKey) := ⟨fun _ _ _ => lt_trans⟩
  refine List.isChain_iff_pairwise.1 (List.isChain_iff_forall_rel_of_append_cons_cons.2 ?_)
  rintro a b l₁ l₂ rfl
  have hle : a.replayKey ≤ b.replayKey := by
    rw [List.pairwise_append, List.pairwise_cons] at hsorted
    exact hsorted.2.1.1 b List.mem_cons_self
  refine hle.lt_of_ne fun heq => ?_
  -- Two neighbours with one key could be exchanged.
  have hswap := h (l₁ ++ b :: a :: l₂) ((List.Perm.swap ..).append_left l₁) ?_
  · rw [List.append_cancel_left_eq, List.cons.injEq] at hswap
    rw [hswap.1] at hnodup
    simp [List.nodup_append] at hnodup
  · simp only [List.pairwise_append, List.pairwise_cons, List.mem_cons, forall_eq_or_imp] at hsorted ⊢
    grind

/-- The whole loop: no second overflows where the keys are sorted, and then the seconds are the least ones. -/
theorem clampCreated_none (queue : List (StoredMessage κ)) :
    ((clampCreated none queue).Pairwise (·.replayKey ≤ ·.replayKey) →
      ∀ d ∈ seconds (-9223372036854775808) queue, d < 9223372036854775808) ∧
    ((∀ d ∈ seconds (-9223372036854775808) queue, d < 9223372036854775808) →
      (clampCreated none queue).map (·.created.toInt) = seconds (-9223372036854775808) queue ∧
        List.Forall₂ Raised queue (clampCreated none queue)) := by
  cases queue with
  | nil => exact ⟨fun _ => nofun, fun _ => ⟨rfl, .nil⟩⟩
  | cons r rs =>
    have hlow : max r.created.toInt (-9223372036854775808) = r.created.toInt := max_eq_left r.created.le_toInt
    rw [seconds, List.forall_mem_cons, hlow]
    refine ⟨fun h => ⟨r.created.toInt_lt, seconds_lt_of_sorted rs _ (List.pairwise_map.2 h)⟩, fun h => ?_⟩
    obtain ⟨hmap, hall⟩ := clampCreated_spec rs r.created h.2
    exact ⟨congrArg _ hmap, .cons ⟨rfl, le_rfl⟩ hall⟩

/-- **Replay.** A client gets its messages in the order of `Seq`, exactly if the least increasing seconds of its
records, in that order, fit into 64 bits and increase modulo 65536. -/
theorem replay_in_seq_order (recs : List (StoredMessage κ)) (id : Bytes) {queue : List (StoredMessage κ)}
    (hperm : queue.Perm (recordsOf id recs)) (hseq : queue.Pairwise (·.seq < ·.seq)) {ds : List Int}
    (hds : LeastSeconds queue ds) :
    ReplaysInSeqOrder recs id ↔ (∀ d ∈ ds, d < 9223372036854775808) ∧ ds.Pairwise (· % 65536 < · % 65536) := by
  obtain rfl : queue = sortBySeq (recordsOf id recs) := by
    have hsorted := sortBySeq_increasing (hperm.pairwise (hseq.imp ne_of_lt) fun h => Ne.symm h)
    refine List.Perm.eq_of_pairwise (fun a b _ _ hab hba => ?_) hseq hsorted
      (hperm.trans (sortBySeq_perm _).symm)
    exact absurd hab (not_lt.2 hba.le)
  obtain rfl := hds.unique (leastSeconds _)
  unfold ReplaysInSeqOrder
  rw [messagesOf_normalizeInflightOrder]
  obtain ⟨hfinite, hspec⟩ := clampCreated_none (sortBySeq (recordsOf id recs))
  have hincreasing := (leastSeconds (sortBySeq (recordsOf id recs))).increasing
  generalize clampCreated none (sortBySeq (recordsOf id recs)) = msgs at hfinite hspec ⊢
  constructor
  · rintro ⟨-, -, -, -, hunique⟩
    have hsorted : msgs.Pairwise (·.replayKey ≤ ·.replayKey) := by
      have hsort := List.pairwise_insertionSort (fun a b : InflightMessage κ => a.replayKey ≤ b.replayKey) msgs
      rwa [hunique _ (List.perm_insertionSort _ msgs) hsort] at hsort
    have hlt := hfinite hsorted
    obtain ⟨hmap, -⟩ := hspec hlt
    rw [← hmap] at hincreasing hlt ⊢
    have hnodup : msgs.Nodup := (List.pairwise_map.1 hincreasing).imp fun h heq => by simp [heq] at h
    exact ⟨hlt, List.pairwise_map.2 (keys_of_replay_unique hnodup hunique hsorted)⟩
  · rintro ⟨hlt, hkeys⟩
    obtain ⟨hmap, hall⟩ := hspec hlt
    rw [← hmap, List.pairwise_map] at hkeys
    exact ⟨_, hperm, hseq, hall, fun _ => replay_unique hkeys⟩

end

/-- Two messages of one client. -/
def twoMessages (first second : Int64) : List (StoredMessage Unit) :=
  [⟨⟨utf8 "dev", first, ()⟩, 1⟩, ⟨⟨utf8 "dev", second, ()⟩, 2⟩]

/-- The second message in the same second gets the next one. -/
theorem replay_same_second : ReplaysInSeqOrder (twoMessages 7 7) (utf8 "dev") :=
  (replay_in_seq_order _ _ (.of_eq (by simp [twoMessages, recordsOf])) (by simp [twoMessages])
    (leastSeconds (twoMessages 7 7))).2 (by decide)

/-- In the last second of a window and in the first of the next: the younger message is replayed first. -/
theorem replay_across_windows :
    (recordsOf (utf8 "dev") (twoMessages 65535 65536)).Pairwise (·.seq ≠ ·.seq) ∧
      ¬ ReplaysInSeqOrder (twoMessages 65535 65536) (utf8 "dev") := by
  constructor
  · simp [twoMessages, recordsOf]
  · rintro ⟨queue, -, -, -, hreplay⟩
    have heq := hreplay (normalizeInflightOrder (twoMessages 65535 65536)).reverse (by decide +kernel)
      (by decide +kernel)
    revert heq
    decide +kernel

end Astrate.Broker
