import Astrate.Broker.Authenticate
import Mathlib.Data.List.Perm.Subperm

/-!
# Pages of devices

`ListDevices` and `ListGroupDevices` return pages with a token for the next one. A client follows the tokens
(`follow`) while devices come and go, so every request meets a table of its own.

The token of `ListDevices` is the last device of the page, and the next page begins behind it: what was
returned lies before the cursor and what is left lies behind it, whatever happens to the table
(`listDevices_stable`).

The token of `ListGroupDevices` is a number of rows. It means the same devices on the next request only if
nothing has changed before it (`listGroupDevices_stable`); the removal of a device that was returned makes the
next page skip one (`listGroupDevices_skips`).
-/

set_option autoImplicit false

namespace Astrate.AppEngine

open Astrate.GoLib

/-- The order of a `uuid` column. -/
def uuidLT (a b : DeviceID) : Prop := a.toList < b.toList

instance (a b : DeviceID) : Decidable (uuidLT a b) := inferInstanceAs (Decidable (a.toList < b.toList))

theorem uuidLT_trans {a b c : DeviceID} (hab : uuidLT a b) (hbc : uuidLT b c) : uuidLT a c :=
  Std.lt_trans hab hbc

theorem uuidLT_ne {a b : DeviceID} (h : uuidLT a b) : a ≠ b := by
  rintro rfl
  exact Std.lt_irrefl h

/-- The ids of a table in their order. -/
structure IdTable where
  ids : List DeviceID
  sorted : ids.Pairwise uuidLT

/-- `DevicePage`, with the ids as they are rendered. -/
structure DevicePage where
  ids : List Bytes
  next : Bytes
  deriving DecidableEq

/-! ## Following tokens -/

section

variable {ε : Type} (list : Nat → Bytes → Except ε DevicePage)

/-- The answer to the `i`-th request of a client that follows the tokens, as long as there is one. -/
def follow : Nat → Option (Except ε DevicePage)
  | 0 => some (list 0 [])
  | i + 1 =>
    match follow i with
    | some (.ok p) => if p.next.isEmpty then none else some (list (i + 1) p.next)
    | _ => none

/-- The ids of an answer. -/
def idsOf : Option (Except ε DevicePage) → List Bytes
  | some (.ok p) => p.ids
  | _ => []

/-- What the first `n` requests returned. -/
def collected (n : Nat) : List Bytes := (List.range n).flatMap fun i => idsOf (follow list i)

end

/-- The page of at most `limit` rows, with its last one if there are more: the query asks for one row more. -/
def pageOf {α : Type} (xs : List α) (limit : Nat) : List α × Option α :=
  let rows := xs.take (limit + 1)
  if limit < rows.length then (rows.take limit, rows[limit - 1]?) else (rows, none)

variable {limit : Nat} {α : Type}

theorem pageOf_of_le {xs : List α} (h : xs.length ≤ limit) :
    pageOf xs limit = (xs, none) := by
  have htake : xs.take (limit + 1) = xs := List.take_of_length_le (by omega)
  simp only [pageOf, htake, if_neg (Nat.not_lt.2 h)]

/-- A page that is not the last one ends with the row of the token. -/
theorem pageOf_of_lt {xs : List α} (hlimit : 1 ≤ limit) (h : limit < xs.length) :
    ∃ front e rest, xs = front ++ e :: rest ∧ front.length + 1 = limit ∧
      pageOf xs limit = (front ++ [e], some e) := by
  obtain ⟨l, rfl⟩ : ∃ l, limit = l + 1 := ⟨limit - 1, by omega⟩
  have hl : l < xs.length := by omega
  refine ⟨xs.take l, xs[l], xs.drop (l + 1), ?_, by simp [Nat.min_eq_left (Nat.le_of_lt hl)], ?_⟩
  · rw [List.getElem_cons_drop, List.take_append_drop]
  · have hlength : l + 1 < (xs.take (l + 1 + 1)).length := by simp; omega
    simp only [pageOf, hlength, if_true, List.take_take, Nat.add_sub_cancel, Prod.mk.injEq]
    refine ⟨?_, ?_⟩
    · rw [Nat.min_eq_left (Nat.le_succ _), List.take_append_getElem]
    · rw [List.getElem?_take_of_lt (by omega), List.getElem?_eq_getElem hl]

/-! ## Devices -/

/-- `DefaultDeviceLimit`. -/
def defaultDeviceLimit : Int := 100

/-- The largest value of an `int`. -/
def maxInt : Int := 9223372036854775807

/-- The rows behind the cursor. -/
def IdTable.after (t : IdTable) : Option DeviceID → List DeviceID
  | none => t.ids
  | some c => t.ids.filter fun d => uuidLT c d

/-- `ListDevices` of the service with that of the store, for the bare ids. -/
def listDevices (t : IdTable) (after : Bytes) (limit : Int) : Except FmtError DevicePage :=
  let limit := if limit ≤ 0 then defaultDeviceLimit else limit
  match (if after.isEmpty then .ok none else (DeviceID.parse after).map some) with
  | .error _ => errorf "%w: invalid cursor" []
  | .ok cursor =>
    -- the sum overflows, and the database refuses a negative limit
    if maxInt < limit + 1 then errorf "store: listing devices: %w" [.err]
    else
      let page := pageOf (t.after cursor) limit.toNat
      .ok ⟨page.1.map DeviceID.string, (page.2.map DeviceID.string).getD []⟩

/-- The cursor is before the device. -/
def Beyond (c : Option DeviceID) (d : DeviceID) : Prop := ∀ e, c = some e → uuidLT e d

variable {c : Option DeviceID}

theorem mem_after {t : IdTable} {d : DeviceID} : d ∈ t.after c ↔ d ∈ t.ids ∧ Beyond c d := by
  cases c with
  | none => simp [IdTable.after, Beyond]
  | some e => simp [IdTable.after, Beyond]

theorem sorted_after (t : IdTable) (c : Option DeviceID) : (t.after c).Pairwise uuidLT := by
  cases c with
  | none => exact t.sorted
  | some e => exact t.sorted.filter _

section

variable (tables : Nat → IdTable) (limit : Nat)

/-- The cursor of the `i`-th request, if it is made. -/
def cursorAt : Nat → Option (Option DeviceID)
  | 0 => some none
  | i + 1 =>
    match cursorAt i with
    | none => none
    | some c => (pageOf ((tables i).after c) limit).2.map some

/-- The devices of the `i`-th page. -/
def devicesAt (i : Nat) : List DeviceID :=
  match cursorAt tables limit i with
  | none => []
  | some c => (pageOf ((tables i).after c) limit).1

def walked (n : Nat) : List DeviceID := (List.range n).flatMap (devicesAt tables limit)

/-- The devices that are there at each of the first `n` requests. -/
def Lasting (n : Nat) (d : DeviceID) : Prop := ∀ i < n, d ∈ (tables i).ids

/-- The devices so far are in order and not behind the cursor; those that last are among them or behind it. -/
structure Walk (n : Nat) : Prop where
  sorted : (walked tables limit n).Pairwise uuidLT
  before : ∀ c, cursorAt tables limit n = some c → ∀ x ∈ walked tables limit n, ∀ d, Beyond c d → uuidLT x d
  left : ∀ c, cursorAt tables limit n = some c →
    ∀ d, Lasting tables n d → d ∈ walked tables limit n ∨ Beyond c d
  complete : cursorAt tables limit n = none → ∀ d, Lasting tables n d → d ∈ walked tables limit n

variable {tables limit}

theorem walked_succ (n : Nat) :
    walked tables limit (n + 1) = walked tables limit n ++ devicesAt tables limit n := by
  simp [walked, List.range_succ]

variable {n : Nat}

theorem Lasting.pred {d : DeviceID} (h : Lasting tables (n + 1) d) :
    Lasting tables n d ∧ d ∈ (tables n).ids :=
  ⟨fun i hi => h i (Nat.lt_succ_of_lt hi), h n (Nat.lt_succ_self n)⟩

/-- Behind the last page nothing is requested. -/
theorem Walk.ended (h : Walk tables limit n) (hc : cursorAt tables limit n = none) :
    Walk tables limit (n + 1) := by
  have hcursor : cursorAt tables limit (n + 1) = none := by rw [cursorAt, hc]
  have hsame : walked tables limit (n + 1) = walked tables limit n := by
    rw [walked_succ, devicesAt, hc, List.append_nil]
  refine ⟨hsame ▸ h.sorted, fun c hc' => ?_, fun c hc' => ?_, fun _ d hd => ?_⟩
  · cases hcursor.symm.trans hc'
  · cases hcursor.symm.trans hc'
  · rw [hsame]
    exact h.complete hc d hd.pred.1

/-- The last page has all that is left. -/
theorem Walk.last (h : Walk tables limit n)
    (hc : cursorAt tables limit n = some c) (hlast : ((tables n).after c).length ≤ limit) :
    Walk tables limit (n + 1) := by
  have hpage := pageOf_of_le hlast
  have hcursor : cursorAt tables limit (n + 1) = none := by
    rw [cursorAt, hc]
    simp [hpage]
  have hsucc : walked tables limit (n + 1) = walked tables limit n ++ (tables n).after c := by
    rw [walked_succ, devicesAt, hc]
    simp only [hpage]
  refine ⟨?_, fun c' hc' => ?_, fun c' hc' => ?_, fun _ d hd => ?_⟩
  · rw [hsucc]
    exact List.pairwise_append.2
      ⟨h.sorted, sorted_after _ _, fun x hx y hy => h.before c hc x hx y (mem_after.1 hy).2⟩
  · cases hcursor.symm.trans hc'
  · cases hcursor.symm.trans hc'
  · rw [hsucc, List.mem_append]
    rcases h.left c hc d hd.pred.1 with hmem | hmem
    · exact Or.inl hmem
    · exact Or.inr (mem_after.2 ⟨hd.pred.2, hmem⟩)

/-- A page that is not the last one ends with the device of the token. -/
theorem Walk.more (h : Walk tables limit n)
    (hc : cursorAt tables limit n = some c) {front rest : List DeviceID} {e : DeviceID}
    (hxs : (tables n).after c = front ++ e :: rest)
    (hpage : pageOf ((tables n).after c) limit = (front ++ [e], some e)) : Walk tables limit (n + 1) := by
  have hcursor : cursorAt tables limit (n + 1) = some (some e) := by
    rw [cursorAt, hc]
    simp [hpage]
  have hsucc : walked tables limit (n + 1) = walked tables limit n ++ (front ++ [e]) := by
    rw [walked_succ, devicesAt, hc]
    simp only [hpage]
  rw [List.append_cons] at hxs
  obtain ⟨hfront, -, hrest⟩ := List.pairwise_append.1 (hxs ▸ sorted_after (tables n) c)
  have hbeyond : ∀ x ∈ front ++ [e], Beyond c x := fun x hx => (mem_after.1 (by
    rw [hxs]
    exact List.mem_append.2 (Or.inl hx))).2
  refine ⟨?_, fun c' hc' x hx d hd => ?_, fun c' hc' d hd => ?_, fun hnone => ?_⟩
  · rw [hsucc]
    exact List.pairwise_append.2 ⟨h.sorted, hfront, fun x hx y hy => h.before c hc x hx y (hbeyond y hy)⟩
  · cases hcursor.symm.trans hc'
    rw [hsucc] at hx
    have hed : uuidLT e d := hd e rfl
    -- what was there before is before the device of the token, and so is the page
    rcases List.mem_append.1 hx with hx | hx
    · exact uuidLT_trans (h.before c hc x hx e (hbeyond e (by simp))) hed
    · rcases List.mem_append.1 hx with hx | hx
      · exact uuidLT_trans ((List.pairwise_append.1 hfront).2.2 x hx e (by simp)) hed
      · cases List.mem_singleton.1 hx
        exact hed
  · cases hcursor.symm.trans hc'
    rw [hsucc, List.mem_append]
    rcases h.left c hc d hd.pred.1 with hmem | hmem
    · exact Or.inl (Or.inl hmem)
    · have hd' := mem_after.2 ⟨hd.pred.2, hmem⟩
      rw [hxs] at hd'
      rcases List.mem_append.1 hd' with hd' | hd'
      · exact Or.inl (Or.inr hd')
      · refine Or.inr fun e' he' => ?_
        cases he'
        exact hrest e (by simp) d hd'
  · cases hcursor.symm.trans hnone

theorem walk (hlimit : 1 ≤ limit) (n : Nat) : Walk tables limit n := by
  induction n with
  | zero =>
    refine ⟨List.Pairwise.nil, fun _ _ _ hx => absurd hx List.not_mem_nil, fun c hc d _ => Or.inr ?_, nofun⟩
    cases hc
    exact nofun
  | succ n ih =>
    cases hc : cursorAt tables limit n with
    | none => exact ih.ended hc
    | some c =>
      by_cases hmore : limit < ((tables n).after c).length
      · obtain ⟨front, e, rest, hxs, -, hpage⟩ := pageOf_of_lt hlimit hmore
        exact ih.more hc hxs hpage
      · exact ih.last hc (Nat.not_lt.1 hmore)

/-- What is behind the device of the token was behind it before, where nothing is inserted. -/
theorem after_subset {t t' : IdTable} (hsub : t'.ids ⊆ t.ids) {front rest : List DeviceID}
    {e : DeviceID} (hxs : t.after c = front ++ e :: rest) : t'.after (some e) ⊆ rest := by
  intro d hd
  obtain ⟨hd', hbehind⟩ := mem_after.1 hd
  have hed : uuidLT e d := hbehind e rfl
  have he : Beyond c e := (mem_after.1 (by rw [hxs]; simp : e ∈ t.after c)).2
  have hmem := mem_after.2 ⟨hsub hd', fun e₀ he₀ => uuidLT_trans (he e₀ he₀) hed⟩
  have hsorted := sorted_after t c
  rw [hxs] at hmem hsorted
  rcases List.mem_append.1 hmem with hmem | hmem
  · exact absurd (uuidLT_trans hed ((List.pairwise_append.1 hsorted).2.2 d hmem e List.mem_cons_self)) Std.lt_irrefl
  · rcases List.mem_cons.1 hmem with rfl | hmem
    · exact absurd hed Std.lt_irrefl
    · exact hmem

/-- Once no device is inserted any more, every page makes what is behind the cursor smaller. -/
theorem left_decreases (hlimit : 1 ≤ limit) {start : Nat}
    (hstart : ∀ i ≥ start, ∀ d ∈ (tables (i + 1)).ids, d ∈ (tables i).ids) (k : Nat)
    (hc : cursorAt tables limit (start + k) = some c) :
    ((tables (start + k)).after c).length + k ≤ (tables start).ids.length := by
  induction k generalizing c with
  | zero =>
    cases c with
    | none => exact Nat.le_refl _
    | some e => exact List.length_filter_le _ _
  | succ k ih =>
    rw [← Nat.add_assoc, cursorAt] at hc
    cases hc₀ : cursorAt tables limit (start + k) with
    | none => simp [hc₀] at hc
    | some c₀ =>
      simp only [hc₀] at hc
      obtain ⟨e, he, rfl⟩ := Option.map_eq_some_iff.1 hc
      by_cases hmore : limit < ((tables (start + k)).after c₀).length
      · obtain ⟨front, e', rest, hxs, -, hpage⟩ := pageOf_of_lt hlimit hmore
        rw [hpage] at he
        cases he
        have hle := ih hc₀
        have hsub := after_subset (hstart _ (Nat.le_add_right start k)) hxs
        have hnodup : ((tables (start + k + 1)).after (some e)).Nodup := (sorted_after _ _).imp uuidLT_ne
        have hlength := (List.subperm_of_subset hnodup hsub).length_le
        rw [hxs, List.length_append, List.length_cons] at hle
        change ((tables (start + k + 1)).after (some e)).length + (k + 1) ≤ _
        omega
      · rw [pageOf_of_le (Nat.not_lt.1 hmore)] at he
        cases he

theorem listDevices_eq (hlimit : 1 ≤ limit) (hmax : (limit : Int) + 1 ≤ maxInt) {t : IdTable} {token : Bytes}
    (htoken : (if token.isEmpty then .ok none else (DeviceID.parse token).map some) = .ok c) :
    listDevices t token limit = .ok ⟨(pageOf (t.after c) limit).1.map DeviceID.string,
      ((pageOf (t.after c) limit).2.map DeviceID.string).getD []⟩ := by
  have hpositive : ¬ (limit : Int) ≤ 0 := by omega
  simp only [listDevices, htoken, if_neg hpositive, if_neg (Int.not_lt.2 hmax), Int.toNat_natCast]

theorem follow_listDevices (hlimit : 1 ≤ limit) (hmax : (limit : Int) + 1 ≤ maxInt) (i : Nat) :
    follow (fun i token => listDevices (tables i) token limit) i =
      (cursorAt tables limit i).map fun c =>
        .ok ⟨(pageOf ((tables i).after c) limit).1.map DeviceID.string,
          ((pageOf ((tables i).after c) limit).2.map DeviceID.string).getD []⟩ := by
  induction i with
  | zero => rw [follow, listDevices_eq hlimit hmax rfl, cursorAt, Option.map_some]
  | succ i ih =>
    rw [follow, ih, cursorAt]
    cases cursorAt tables limit i with
    | none => rfl
    | some c =>
      cases hnext : (pageOf ((tables i).after c) limit).2 with
      | none => simp [hnext]
      | some e =>
        have hne : ¬ e.string.isEmpty = true := by
          rw [List.isEmpty_iff_length_eq_zero, DeviceID.length_string]
          decide
        have htoken : (if e.string.isEmpty then .ok none else (DeviceID.parse e.string).map some) =
            .ok (some e) := by rw [if_neg hne, DeviceID.parse_string, Except.map]
        simp only [Option.map_some, hnext, Option.getD_some, if_neg hne, listDevices_eq hlimit hmax htoken]

theorem collected_listDevices (hlimit : 1 ≤ limit) (hmax : (limit : Int) + 1 ≤ maxInt) (n : Nat) :
    collected (fun i token => listDevices (tables i) token limit) n =
      (walked tables limit n).map DeviceID.string := by
  rw [collected, walked, List.map_flatMap]
  congr 1
  funext i
  rw [follow_listDevices hlimit hmax, devicesAt]
  cases cursorAt tables limit i <;> rfl

end

/-- Following the cursors of `ListDevices`: no request fails, the devices come in strictly increasing order, none
that is there all the time is left out, and once no device is inserted any more there are at most as many further
requests as devices, and one. -/
theorem listDevices_stable (tables : Nat → IdTable) {limit : Int} (hlimit : 1 ≤ limit)
    (hmax : limit + 1 ≤ maxInt) :
    (∀ i err, follow (fun i token => listDevices (tables i) token limit) i ≠ some (.error err)) ∧
    (∀ n, ∃ devices : List DeviceID,
      collected (fun i token => listDevices (tables i) token limit) n = devices.map DeviceID.string ∧
      devices.Pairwise uuidLT ∧
      (follow (fun i token => listDevices (tables i) token limit) n = none →
        ∀ d, (∀ i < n, d ∈ (tables i).ids) → d ∈ devices)) ∧
    ∀ start, (∀ i ≥ start, ∀ d ∈ (tables (i + 1)).ids, d ∈ (tables i).ids) →
      follow (fun i token => listDevices (tables i) token limit)
        (start + (tables start).ids.length + 1) = none := by
  obtain ⟨l, rfl⟩ : ∃ l : Nat, limit = l := ⟨limit.toNat, by omega⟩
  have hl : 1 ≤ l := by omega
  refine ⟨fun i err => ?_, fun n => ⟨walked tables l n, collected_listDevices hl hmax n, (walk hl n).sorted, ?_⟩,
    fun start hstart => ?_⟩
  · rw [follow_listDevices hl hmax]
    cases cursorAt tables l i <;> simp
  · rw [follow_listDevices hl hmax, Option.map_eq_none_iff]
    exact (walk hl n).complete
  · rw [follow_listDevices hl hmax, Option.map_eq_none_iff]
    cases hc : cursorAt tables l (start + (tables start).ids.length + 1) with
    | none => rfl
    | some c =>
      have := left_decreases hl hstart ((tables start).ids.length + 1) (by rw [← Nat.add_assoc]; exact hc)
      omega

/-- A table of three devices of which the first one is deleted behind the first page of one device. -/
theorem listDevices_stable_deletion :
    ∃ tables : Nat → IdTable, (tables 0).ids.length = 3 ∧ (tables 1).ids.length = 2 ∧
      follow (fun i token => listDevices (tables i) token 1) 4 = none := by
  let ids (bs : List UInt8) : List DeviceID := bs.map (Vector.replicate 16)
  let tables : Nat → IdTable := fun i =>
    if i = 0 then ⟨ids [1, 2, 3], by decide⟩ else ⟨ids [2, 3], by decide⟩
  refine ⟨tables, rfl, rfl, (listDevices_stable tables (by decide) (by decide)).2.2 1 fun i hi d hd => ?_⟩
  simpa [tables, Nat.one_le_iff_ne_zero.1 hi] using hd

/-! ## Devices of a group -/

/-- `ListGroupDevices` of the service with that of the store, for the bare ids. -/
def listGroupDevices (group : Option IdTable) (fromToken : Bytes) (limit : Int) : Except FmtError DevicePage :=
  match (if fromToken.isEmpty then some 0 else parseGroupToken fromToken) with
  | none => errorf "from_token: is invalid" []
  | some offset =>
    if limit < 0 then errorf "limit: must be greater than or equal to 0" []
    else
      let limit := if limit = 0 then defaultDeviceLimit else limit
      match group with
      | none => errorf "Group not found" []
      | some t =>
        if maxInt < limit + 1 then errorf "store: listing devices of group: %w" [.err]
        else
          let page := pageOf (t.ids.drop offset) limit.toNat
          .ok ⟨page.1.map DeviceID.string, if page.2.isSome then groupTokenFor (offset + limit.toNat) else []⟩

theorem groupTokenFor_ne_nil (offset : Nat) : (groupTokenFor offset).isEmpty = false := rfl

theorem pageOf_eq (xs : List α) (hlimit : 1 ≤ limit) :
    (pageOf xs limit).1 = xs.take limit ∧ ((pageOf xs limit).2.isSome = true ↔ limit < xs.length) := by
  by_cases h : limit < xs.length
  · obtain ⟨front, e, rest, rfl, hlength, hpage⟩ := pageOf_of_lt hlimit h
    refine ⟨?_, iff_of_true (by rw [hpage]; rfl) h⟩
    have htake : (front ++ [e] ++ rest).take limit = front ++ [e] := List.take_left' (by simpa using hlength)
    rw [hpage, List.append_cons front e rest, htake]
  · rw [pageOf_of_le (Nat.not_lt.1 h)]
    exact ⟨(List.take_of_length_le (Nat.not_lt.1 h)).symm, by simp [h]⟩

section

variable {groups : Nat → IdTable} {limit : Nat}

/-- The token of the request at an offset. -/
def tokenAt (offset : Nat) : Bytes := if offset = 0 then [] else groupTokenFor offset

/-- The answer at an offset. -/
def groupPage (t : IdTable) (limit offset : Nat) : DevicePage :=
  ⟨((t.ids.drop offset).take limit).map DeviceID.string,
    if offset + limit < t.ids.length then groupTokenFor (offset + limit) else []⟩

theorem listGroupDevices_eq (hlimit : 1 ≤ limit) (hmax : (limit : Int) + 1 ≤ maxInt) (t : IdTable) {offset : Nat}
    (hoffset : offset < 4294967296) :
    listGroupDevices (some t) (tokenAt offset) limit = .ok (groupPage t limit offset) := by
  have htoken : (if (tokenAt offset).isEmpty then some 0 else parseGroupToken (tokenAt offset)) = some offset := by
    rw [tokenAt]
    split_ifs with hzero hempty hempty
    · rw [hzero]
    · exact absurd rfl hempty
    · cases (groupTokenFor_ne_nil offset).symm.trans hempty
    · exact parseGroupToken_groupTokenFor hoffset
  obtain ⟨hrows, hmore⟩ := pageOf_eq (t.ids.drop offset) hlimit
  have hnext : (pageOf (t.ids.drop offset) limit).2.isSome = true ↔ offset + limit < t.ids.length := by
    rw [hmore, List.length_drop]
    omega
  simp only [listGroupDevices, htoken, if_neg (show ¬ (limit : Int) < 0 by omega),
    if_neg (show ¬ (limit : Int) = 0 by omega), if_neg (Int.not_lt.2 hmax), Int.toNat_natCast, hrows, hnext,
    groupPage]

/-- Where the traversal is behind `n` requests: on its way with what is before the offset, or at its end with all
members that one request found. -/
theorem follow_group (hlimit : 1 ≤ limit) (hmax : (limit : Int) + 1 ≤ maxInt)
    (hsmall : ∀ i, (groups i).ids.length < 4294967296)
    (hbefore : ∀ i, (groups (i + 1)).ids.take ((i + 1) * limit) = (groups i).ids.take ((i + 1) * limit)) (n : Nat) :
    let list := fun i token => listGroupDevices (some (groups i)) token limit
    (n * limit < 4294967296 ∧ follow list n = some (.ok (groupPage (groups n) limit (n * limit))) ∧
        collected list n = ((groups n).ids.take (n * limit)).map DeviceID.string) ∨
      follow list n = none ∧ ∃ m < n, collected list n = (groups m).ids.map DeviceID.string := by
  intro list
  have hpage : ∀ i offset, offset < 4294967296 →
      list i (tokenAt offset) = .ok (groupPage (groups i) limit offset) :=
    fun i offset => listGroupDevices_eq hlimit hmax (groups i)
  have hcollected : ∀ i, collected list (i + 1) = collected list i ++ idsOf (follow list i) := by
    intro i
    simp [collected, List.range_succ]
  induction n with
  | zero =>
    refine Or.inl ⟨by omega, ?_, by simp [collected]⟩
    rw [Nat.zero_mul, follow]
    exact congrArg some (hpage 0 0 (by decide))
  | succ n ih =>
    rcases ih with ⟨hoffset, hfollow, hsofar⟩ | ⟨hnone, m, hm, hall⟩
    · -- the page adds the next members
      have hsum : collected list (n + 1) =
          ((groups n).ids.take (n * limit) ++ ((groups n).ids.drop (n * limit)).take limit).map DeviceID.string := by
        rw [hcollected, hfollow, hsofar, List.map_append]
        rfl
      rw [← List.take_add, ← Nat.succ_mul] at hsum
      by_cases hmore : n * limit + limit < (groups n).ids.length
      · have hsucc : (n + 1) * limit = n * limit + limit := Nat.succ_mul n limit
        have hsmall' := hsmall n
        refine Or.inl ⟨by omega, ?_, ?_⟩
        · rw [follow, hfollow, ← hpage (n + 1) ((n + 1) * limit) (by omega), tokenAt,
            if_neg (show (n + 1) * limit ≠ 0 by omega), hsucc]
          simp only [groupPage, if_pos hmore, groupTokenFor_ne_nil, Bool.false_eq_true, if_false]
        · rw [hsum, hbefore n]
      · refine Or.inr ⟨?_, n, Nat.lt_succ_self n, ?_⟩
        · rw [follow, hfollow]
          simp only [groupPage, if_neg hmore, List.isEmpty_nil, if_true]
        · rw [hsum, List.take_of_length_le (by rw [Nat.succ_mul]; omega)]
    · refine Or.inr ⟨by rw [follow, hnone], m, Nat.lt_succ_of_lt hm, ?_⟩
      rw [hcollected, hnone, hall]
      exact List.append_nil _

end

/-- Following the tokens of `ListGroupDevices` to the end returns every member that is there all the time exactly
once, if the members up to the offset of a token are the same when it is used, and the group is not larger
than the tokens can say. -/
theorem listGroupDevices_stable {groups : Nat → IdTable} {limit : Nat} (hlimit : 1 ≤ limit)
    (hmax : (limit : Int) + 1 ≤ maxInt) (hsmall : ∀ i, (groups i).ids.length < 4294967296)
    (hbefore : ∀ i, (groups (i + 1)).ids.take ((i + 1) * limit) = (groups i).ids.take ((i + 1) * limit)) {n : Nat}
    (hend : follow (fun i token => listGroupDevices (some (groups i)) token limit) n = none) {d : DeviceID}
    (hmember : ∀ i < n, d ∈ (groups i).ids) :
    (collected (fun i token => listGroupDevices (some (groups i)) token limit) n).count d.string = 1 := by
  rcases follow_group hlimit hmax hsmall hbefore n with ⟨-, hfollow, -⟩ | ⟨-, m, hm, hall⟩
  · cases hend.symm.trans hfollow
  · rw [hall]
    have hnodup : (groups m).ids.Nodup := (groups m).sorted.imp uuidLT_ne
    exact List.count_eq_one_of_mem (hnodup.map fun _ _ => DeviceID.string_inj) (List.mem_map_of_mem (hmember m hm))

/-- The group of the devices whose octets are all one of these. -/
def groupOf (bs : List UInt8) (h : (bs.map (Vector.replicate 16)).Pairwise uuidLT) : IdTable := ⟨_, h⟩

/-- Pages of two, and a device that joins behind the first of them. -/
theorem listGroupDevices_stable_joined :
    ∃ groups : Nat → IdTable, (groups 0).ids.length = 3 ∧ (groups 1).ids.length = 4 ∧
      (collected (fun i token => listGroupDevices (some (groups i)) token 2) 2).count
        (DeviceID.string (Vector.replicate 16 4)) = 1 := by
  refine ⟨fun i => if i = 0 then groupOf [1, 2, 4] (by decide) else groupOf [1, 2, 3, 4] (by decide), rfl, rfl, ?_⟩
  refine listGroupDevices_stable (by decide) (by decide) (fun i => ?_) (fun i => ?_) (by decide +kernel) fun i _ => ?_
  · split_ifs <;> decide
  · cases i <;> rfl
  · split_ifs <;> decide

/-- The first member leaves behind the first page of one: the second one is never returned. -/
theorem listGroupDevices_skips :
    ∃ groups : Nat → IdTable, (∀ i, Vector.replicate 16 2 ∈ (groups i).ids) ∧
      follow (fun i token => listGroupDevices (some (groups i)) token 1) 2 = none ∧
      collected (fun i token => listGroupDevices (some (groups i)) token 1) 2 =
        [DeviceID.string (Vector.replicate 16 1), DeviceID.string (Vector.replicate 16 3)] := by
  refine ⟨fun i => if i = 0 then groupOf [1, 2, 3] (by decide) else groupOf [2, 3] (by decide), fun i => ?_,
    by decide +kernel, by decide +kernel⟩
  cases i with
  | zero => decide
  | succ i => exact List.mem_cons_self

end Astrate.AppEngine
