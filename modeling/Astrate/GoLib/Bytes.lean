import Mathlib.Data.List.Forall2
import Mathlib.Tactic.Common

/-!
# Octet strings

Go strings and byte slices are sequences of octets, and the functions of the `strings` package used
by the program look for single octets in them. This module fixes the carrier `Bytes`, the octets of
a literal (`utf8`) and the cut at the first occurrence of an octet (`cutByte`), the loop body of
every hand-written splitter of the program. `cutByte_eq_some_iff` and `cutByte_eq_none_iff` say what
a cut is; `splitOn_of_cutByte_some` and `splitOn_of_cutByte_none` tie the loop to `List.splitOn`, in
whose terms the specifications are stated.
-/

set_option autoImplicit false

namespace Astrate.GoLib

/-- A Go string or byte slice. -/
abbrev Bytes := List UInt8

/-- The octets of a source literal. -/
def utf8 (s : String) : Bytes := s.toList.flatMap String.utf8EncodeChar

/-! ## Formatted errors -/

/-- An argument of a formatted error: a string, an integer, a double by its bit pattern, an instant in
nanoseconds since the Unix epoch, or an error of a library, whose text is not modelled. -/
inductive FmtArg where
  | str (s : Bytes)
  | int (n : Int)
  | float (bits : UInt64)
  | time (nanos : Int)
  | err
  deriving DecidableEq, Repr

/-- A value of `fmt.Errorf` or `errors.New`: the format text and its arguments, unrendered. -/
structure FmtError where
  format : String
  args : List FmtArg
  deriving DecidableEq, Repr

/-- `fmt.Errorf`. -/
def errorf {α : Type} (format : String) (args : List FmtArg) : Except FmtError α :=
  .error ⟨format, args⟩

variable {ε α : Type} {x : Except ε α}

/-- A sequence of two fallible computations succeeds exactly when both do. -/
theorem bind_eq_ok_iff {β : Type} {f : α → Except ε β} {b : β} :
    x >>= f = .ok b ↔ ∃ a, x = .ok a ∧ f a = .ok b := by
  cases x with
  | error e => simp [bind, Except.bind]
  | ok a => simp [bind, Except.bind]

theorem map_eq_ok_iff {β : Type} {f : α → β} {b : β} : x.map f = .ok b ↔ ∃ a, x = .ok a ∧ f a = b := by
  cases x <;> simp [Except.map]

/-- Wrapping an error does not change when a computation succeeds. -/
theorem mapError_eq_ok_iff {ε' : Type} {f : ε → ε'} {a : α} : x.mapError f = .ok a ↔ x = .ok a := by
  cases x <;> simp [Except.mapError]

theorem toOption_eq_some_iff {a : α} : x.toOption = some a ↔ x = .ok a := by
  cases x <;> simp [Except.toOption]

@[simp] theorem errorf_ne_ok (format : String) (args : List FmtArg) (a : α) : errorf format args ≠ .ok a := by
  simp [errorf]

/-- The errors of a computation have one of these formats. -/
def ErrorsIn {α : Type} (formats : List String) (x : Except FmtError α) : Prop :=
  ∀ e, x = .error e → e.format ∈ formats

section ErrorsIn

variable {α β : Type} {formats : List String} {x : Except FmtError α}

theorem errorsIn_ok (a : α) : ErrorsIn formats (.ok a : Except FmtError α) := by
  intro e h
  cases h

theorem errorsIn_errorf {format : String} (h : format ∈ formats) (args : List FmtArg) :
    ErrorsIn formats (errorf format args : Except FmtError α) := by
  intro e he
  cases he
  exact h

theorem ErrorsIn.bind {f : α → Except FmtError β} (hx : ErrorsIn formats x)
    (hf : ∀ a, ErrorsIn formats (f a)) : ErrorsIn formats (x >>= f) := by
  cases x with
  | error e =>
    intro e' he'
    cases he'
    exact hx e rfl
  | ok a => exact hf a

theorem ErrorsIn.map (f : α → β) (hx : ErrorsIn formats x) : ErrorsIn formats (x.map f) := by
  cases x with
  | error e =>
    intro e' he'
    cases he'
    exact hx e rfl
  | ok a => exact errorsIn_ok (f a)

theorem ErrorsIn.mono {formats' : List String} (hx : ErrorsIn formats x) (h : formats ⊆ formats') :
    ErrorsIn formats' x := fun e he => h (hx e he)

end ErrorsIn

/-! ## Cutting at an octet -/

/-- Cut at the first occurrence of `sep`: the part before it and the part after it, or `none` when
`sep` does not occur (`strings.IndexByte` followed by the two slice expressions). -/
def cutByte (sep : UInt8) : Bytes → Option (Bytes × Bytes)
  | [] => none
  | x :: xs =>
    if x = sep then some ([], xs)
    else (cutByte sep xs).map fun p => (x :: p.1, p.2)

theorem cutByte_eq_some_iff (sep : UInt8) (s a b : Bytes) :
    cutByte sep s = some (a, b) ↔ s = a ++ sep :: b ∧ sep ∉ a := by
  induction s generalizing a with
  | nil => simp [cutByte]
  | cons x xs ih =>
    by_cases hx : x = sep
    · subst hx
      cases a with
      | nil => simp [cutByte]
      | cons y ys => simp [cutByte]; grind
    · cases a with
      | nil => simp [cutByte, hx]
      | cons y ys =>
        have key : cutByte sep (x :: xs) = some (y :: ys, b) ↔
            x = y ∧ cutByte sep xs = some (ys, b) := by
          simp only [cutByte, if_neg hx, Option.map_eq_some_iff, Prod.exists]
          constructor
          · rintro ⟨p, q, hpq, he⟩
            obtain ⟨⟨rfl, rfl⟩, rfl⟩ := he
            exact ⟨rfl, hpq⟩
          · rintro ⟨rfl, h⟩
            exact ⟨ys, b, h, rfl⟩
        rw [key, ih]
        simp only [List.cons_append, List.cons.injEq, List.mem_cons, not_or]
        constructor
        · rintro ⟨rfl, rfl, h⟩
          exact ⟨⟨rfl, rfl⟩, fun h' => hx h'.symm, h⟩
        · rintro ⟨⟨rfl, rfl⟩, -, h⟩
          exact ⟨rfl, rfl, h⟩

theorem cutByte_eq_none_iff (sep : UInt8) (s : Bytes) : cutByte sep s = none ↔ sep ∉ s := by
  induction s with
  | nil => simp [cutByte]
  | cons x xs ih =>
    by_cases hx : x = sep
    · simp [cutByte, hx]
    · simp [cutByte, hx, ih, Ne.symm hx]

variable {sep : UInt8}

variable {s : Bytes}

/-- The part after a cut is shorter than the whole string. -/
theorem cutByte_length_lt {a b : Bytes} (h : cutByte sep s = some (a, b)) : b.length < s.length := by
  obtain ⟨rfl, -⟩ := (cutByte_eq_some_iff sep s a b).1 h
  simp only [List.length_append, List.length_cons]
  omega

/-- `strings.CutPrefix`. -/
def cutPrefix (start s : Bytes) : Option Bytes :=
  if start.isPrefixOf s then some (s.drop start.length) else none

theorem cutPrefix_eq_some_iff {start rest : Bytes} : cutPrefix start s = some rest ↔ s = start ++ rest := by
  rw [cutPrefix]
  constructor
  · intro h
    split_ifs at h with hstart
    obtain ⟨tail, rfl⟩ := List.isPrefixOf_iff_prefix.1 hstart
    rw [List.drop_left, Option.some.injEq] at h
    rw [h]
  · rintro rfl
    rw [if_pos (List.isPrefixOf_iff_prefix.2 (List.prefix_append ..)), List.drop_left]

theorem splitOn_of_cutByte_some {a b : Bytes} (h : cutByte sep s = some (a, b)) :
    s.splitOn sep = a :: b.splitOn sep := by
  obtain ⟨rfl, ha⟩ := (cutByte_eq_some_iff sep s a b).1 h
  exact List.splitOn_append_cons_self_of_not_mem ha b

theorem splitOn_of_cutByte_none (h : cutByte sep s = none) : s.splitOn sep = [s] :=
  List.splitOn_eq_singleton ((cutByte_eq_none_iff sep s).1 h)

/-- Induction along the parts of a string. -/
@[elab_as_elim]
theorem splitOn_induction {motive : Bytes → Prop} (last : ∀ s, sep ∉ s → motive s)
    (more : ∀ a b, sep ∉ a → motive b → motive (a ++ sep :: b)) (s : Bytes) : motive s := by
  generalize hn : s.length = n
  induction n using Nat.strongRecOn generalizing s with
  | _ n ih =>
    cases hcut : cutByte sep s with
    | none => exact last s ((cutByte_eq_none_iff sep s).1 hcut)
    | some ab =>
      obtain ⟨a, b⟩ := ab
      have hlt := cutByte_length_lt hcut
      obtain ⟨rfl, ha⟩ := (cutByte_eq_some_iff sep s a b).1 hcut
      exact more a b ha (ih b.length (by omega) b rfl)

/-- No part of a split contains the separator. -/
theorem not_mem_of_mem_splitOn (s : Bytes) : ∀ p ∈ s.splitOn sep, sep ∉ p := by
  induction s using splitOn_induction with
  | last s hs =>
    intro p hp
    rw [List.splitOn_eq_singleton hs, List.mem_singleton] at hp
    rwa [hp]
  | more a b ha ih =>
    intro p hp
    rw [List.splitOn_append_cons_self_of_not_mem ha, List.mem_cons] at hp
    rcases hp with rfl | hp
    · exact ha
    · exact ih p hp

/-- The octets of a string are those of its parts and the separators. -/
theorem mem_splitOn {c : UInt8} (hc : c ≠ sep) : c ∈ s ↔ ∃ p ∈ s.splitOn sep, c ∈ p := by
  induction s using @splitOn_induction sep with
  | last s hs => simp [List.splitOn_eq_singleton hs]
  | more a b ha ih =>
    rw [List.splitOn_append_cons_self_of_not_mem ha, List.mem_append, List.mem_cons, ih]
    simp [hc]

/-- The parts of a string with a separator in the middle. -/
theorem splitOn_append_cons (a b : Bytes) : (a ++ sep :: b).splitOn sep = a.splitOn sep ++ b.splitOn sep := by
  induction a using @splitOn_induction sep with
  | last a ha =>
    rw [List.splitOn_append_cons_self_of_not_mem ha, List.splitOn_eq_singleton ha]
    rfl
  | more c a hc ih =>
    rw [List.append_assoc, List.cons_append, List.splitOn_append_cons_self_of_not_mem hc, ih,
      List.splitOn_append_cons_self_of_not_mem hc]
    rfl

/-- Splitting undoes joining parts with a leading separator each. -/
theorem splitOn_append_flatMap (p : Bytes) (ps : List Bytes) (hp : sep ∉ p) (hps : ∀ q ∈ ps, sep ∉ q) :
    (p ++ ps.flatMap fun q => sep :: q).splitOn sep = p :: ps := by
  induction ps generalizing p with
  | nil => simpa using List.splitOn_eq_singleton hp
  | cons q qs ih =>
    rw [List.flatMap_cons, List.cons_append, List.splitOn_append_cons_self_of_not_mem hp,
      ih q (hps q List.mem_cons_self) fun r hr => hps r (List.mem_cons_of_mem _ hr)]

end Astrate.GoLib
