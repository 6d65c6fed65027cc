import Mathlib.Data.List.ReduceOption

/-! # Lists with blanks

A list of optional entries, where `none` is a blank. Once the blanks around it are cut
off, such a list is told apart by its entries and by how many blanks stand between
each of them and the next. -/

namespace ContentOrchestrator.Lib

variable {α : Type}

/-- The blanks passed before each entry, with `n` of them passed already. -/
def blanksBefore : Nat → List (Option α) → List Nat
  | _, [] => []
  | n, none :: rest => blanksBefore (n + 1) rest
  | n, some _ :: rest => n :: blanksBefore 0 rest

/-- The blanks between each entry and the one before it. -/
def gaps (l : List (Option α)) : List Nat := (blanksBefore 0 l).tail

/-- The list after `n` blanks, up to its last entry. -/
def upToLast : Nat → List (Option α) → List (Option α)
  | _, [] => []
  | n, none :: rest => upToLast (n + 1) rest
  | n, some a :: rest => List.replicate n none ++ some a :: upToLast 0 rest

/-- The list from its first entry to its last. -/
def core : List (Option α) → List (Option α)
  | [] => []
  | none :: rest => core rest
  | some a :: rest => some a :: upToLast 0 rest

/-- Each entry with the blanks before it. -/
def laidOut (gaps : List Nat) (entries : List α) : List (Option α) :=
  (gaps.zip entries).flatMap fun e => List.replicate e.1 none ++ [some e.2]

/-- The first entry and the others with the blanks before them. -/
def assembled (gaps : List Nat) : List α → List (Option α)
  | [] => []
  | a :: entries => some a :: laidOut gaps entries

theorem upToLast_eq (n : Nat) (l : List (Option α)) :
    upToLast n l = laidOut (blanksBefore n l) l.reduceOption := by
  induction l generalizing n with
  | nil => rfl
  | cons entry rest ih =>
    cases entry with
    | none => rw [upToLast, blanksBefore, List.reduceOption_cons_of_none, ih]
    | some a =>
      rw [upToLast, blanksBefore, List.reduceOption_cons_of_some, ih, laidOut, laidOut,
        List.zip_cons_cons, List.flatMap_cons, List.append_assoc, List.singleton_append]

theorem tail_blanksBefore (n m : Nat) (l : List (Option α)) :
    (blanksBefore n l).tail = (blanksBefore m l).tail := by
  induction l generalizing n m with
  | nil => rfl
  | cons entry rest ih =>
    cases entry with
    | none => exact ih (n + 1) (m + 1)
    | some a => rfl

theorem core_eq (l : List (Option α)) : core l = assembled (gaps l) l.reduceOption := by
  induction l with
  | nil => rfl
  | cons entry rest ih =>
    cases entry with
    | none =>
      have hgaps : gaps (none :: rest) = gaps rest := tail_blanksBefore 1 0 rest
      rw [core, List.reduceOption_cons_of_none, hgaps, ih]
    | some a =>
      rw [List.reduceOption_cons_of_some, core, upToLast_eq]
      rfl

theorem blanksBefore_replicate (n m : Nat) (l : List (Option α)) :
    blanksBefore n (List.replicate m none ++ l) = blanksBefore (n + m) l := by
  induction m generalizing n with
  | zero => rfl
  | succ m ih =>
    rw [List.replicate_succ, List.cons_append, blanksBefore, ih]
    congr 1
    omega

theorem reduceOption_upToLast (n : Nat) (l : List (Option α)) :
    (upToLast n l).reduceOption = l.reduceOption := by
  induction l generalizing n with
  | nil => rfl
  | cons entry rest ih =>
    cases entry with
    | none => exact ih (n + 1)
    | some a =>
      rw [upToLast, List.reduceOption_append, List.reduceOption_replicate_none, List.nil_append,
        List.reduceOption_cons_of_some, List.reduceOption_cons_of_some, ih]

theorem blanksBefore_upToLast (n : Nat) (l : List (Option α)) :
    blanksBefore 0 (upToLast n l) = blanksBefore n l := by
  induction l generalizing n with
  | nil => rfl
  | cons entry rest ih =>
    cases entry with
    | none => exact ih (n + 1)
    | some a => rw [upToLast, blanksBefore_replicate, blanksBefore, blanksBefore, ih, Nat.zero_add]

theorem reduceOption_core (l : List (Option α)) : (core l).reduceOption = l.reduceOption := by
  induction l with
  | nil => rfl
  | cons entry rest ih =>
    cases entry with
    | none => exact ih
    | some a =>
      rw [core, List.reduceOption_cons_of_some, List.reduceOption_cons_of_some,
        reduceOption_upToLast]

theorem gaps_core (l : List (Option α)) : gaps (core l) = gaps l := by
  induction l with
  | nil => rfl
  | cons entry rest ih =>
    cases entry with
    | none => exact ih.trans (tail_blanksBefore 0 1 rest)
    | some a => exact blanksBefore_upToLast 0 rest

/-- **What a list with blanks is**: its entries and the blanks between them. -/
theorem core_eq_iff (l m : List (Option α)) :
    core l = core m ↔ l.reduceOption = m.reduceOption ∧ gaps l = gaps m := by
  constructor
  · intro h
    rw [← reduceOption_core l, ← gaps_core l, h, reduceOption_core, gaps_core]
    exact ⟨rfl, rfl⟩
  · rintro ⟨hentries, hgaps⟩
    rw [core_eq, core_eq, hentries, hgaps]

theorem blanks_append_upToLast (n : Nat) (l : List (Option α)) :
    ∃ m, List.replicate n none ++ l = upToLast n l ++ List.replicate m none := by
  induction l generalizing n with
  | nil => exact ⟨n, by simp [upToLast]⟩
  | cons entry rest ih =>
    cases entry with
    | none =>
      obtain ⟨m, hm⟩ := ih (n + 1)
      refine ⟨m, ?_⟩
      rw [upToLast, ← hm, List.replicate_succ', List.append_assoc, List.singleton_append]
    | some a =>
      obtain ⟨m, hm⟩ := ih 0
      refine ⟨m, ?_⟩
      rw [List.replicate_zero, List.nil_append] at hm
      rw [upToLast, List.append_assoc, List.cons_append, ← hm]

/-- Around its core a list holds blanks only. -/
theorem blanks_core_blanks (l : List (Option α)) (h : l.reduceOption ≠ []) :
    ∃ before after, l = List.replicate before none ++ core l ++ List.replicate after none := by
  induction l with
  | nil => exact absurd rfl h
  | cons entry rest ih =>
    cases entry with
    | none =>
      obtain ⟨before, after, heq⟩ := ih h
      refine ⟨before + 1, after, ?_⟩
      rw [List.replicate_succ, List.cons_append, List.cons_append, core, ← heq]
    | some a =>
      obtain ⟨after, heq⟩ := blanks_append_upToLast 0 rest
      rw [List.replicate_zero, List.nil_append] at heq
      exact ⟨0, after, by rw [List.replicate_zero, List.nil_append, core, List.cons_append, ← heq]⟩

theorem upToLast_last (n : Nat) (l : List (Option α)) :
    upToLast n l = [] ∨ ∃ init a, a ∈ l.reduceOption ∧ upToLast n l = init ++ [some a] := by
  induction l generalizing n with
  | nil => exact .inl rfl
  | cons entry rest ih =>
    cases entry with
    | none => exact ih (n + 1)
    | some a =>
      right
      rw [upToLast, List.reduceOption_cons_of_some]
      rcases ih 0 with hnone | ⟨init, b, hb, heq⟩
      · exact ⟨_, a, List.mem_cons_self, by rw [hnone]⟩
      · refine ⟨List.replicate n none ++ some a :: init, b, List.mem_cons_of_mem _ hb, ?_⟩
        rw [heq, List.append_assoc, List.cons_append]

/-- The core begins and ends with an entry. -/
theorem core_ends (l : List (Option α)) (h : l.reduceOption ≠ []) :
    (∃ a rest, a ∈ l.reduceOption ∧ core l = some a :: rest) ∧
      ∃ init a, a ∈ l.reduceOption ∧ core l = init ++ [some a] := by
  induction l with
  | nil => exact absurd rfl h
  | cons entry rest ih =>
    cases entry with
    | none => exact ih h
    | some a =>
      refine ⟨⟨a, _, List.mem_cons_self, rfl⟩, ?_⟩
      rw [core, List.reduceOption_cons_of_some]
      rcases upToLast_last 0 rest with hnone | ⟨init, b, hb, heq⟩
      · exact ⟨[], a, List.mem_cons_self, by rw [hnone, List.nil_append]⟩
      · exact ⟨some a :: init, b, List.mem_cons_of_mem _ hb, by rw [heq, List.cons_append]⟩

example : core [none, some 'a', none, none, some 'b', none] = [some 'a', none, none, some 'b'] :=
  rfl

end ContentOrchestrator.Lib
