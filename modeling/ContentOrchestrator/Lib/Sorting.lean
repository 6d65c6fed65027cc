import Mathlib.Data.List.Sort
import Mathlib.Order.Lattice

/-! # Queries with an ORDER BY

A query returns its rows in some order that respects the sort key; rows of one key
stand in any order. Taking the first row with a value is independent of that order
exactly when the valued rows of the lowest key agree. -/

namespace ContentOrchestrator.Lib

variable {α β κ : Type}

/-- `result` is an order of `rows` in which a later row never precedes an earlier one. -/
structure OrderedBy (le : α → α → Prop) (rows result : List α) : Prop where
  perm : result.Perm rows
  sorted : result.Pairwise le

section

variable {le : α → α → Prop} {rows result : List α} {a b : α}

theorem OrderedBy.of_insertionSort [DecidableRel le] (htotal : ∀ a b, le a b ∨ le b a)
    (htrans : ∀ a b c, le a b → le b c → le a c) : OrderedBy le rows (rows.insertionSort le) :=
  have : Std.Total le := ⟨htotal⟩
  have : IsTrans α le := ⟨htrans⟩
  ⟨List.perm_insertionSort le rows, List.pairwise_insertionSort le rows⟩

/-! ## Selecting before or after the sort

An insertion sort is stable, so a selection of the rows may be made on either side of it. -/

variable [DecidableRel le] {p : α → Bool}

theorem orderedInsert_filter (htrans : ∀ a b c, le a b → le b c → le a c)
    (hsorted : rows.Pairwise le) (hp : p a = true) :
    (rows.orderedInsert le a).filter p = (rows.filter p).orderedInsert le a := by
  induction rows with
  | nil => simp [hp]
  | cons b rows ih =>
    obtain ⟨hb, hsorted⟩ := List.pairwise_cons.mp hsorted
    by_cases hle : le a b
    · -- `a` goes in front of all that is left after the selection
      rw [List.orderedInsert_cons_of_le _ _ hle, List.filter_cons_of_pos hp]
      cases hrest : (b :: rows).filter p with
      | nil => rfl
      | cons c rest =>
        have hc : c ∈ b :: rows := List.mem_of_mem_filter (hrest ▸ List.mem_cons_self ..)
        rw [List.orderedInsert_cons_of_le]
        rcases List.mem_cons.mp hc with rfl | hc
        · exact hle
        · exact htrans a b c hle (hb c hc)
    · rw [List.orderedInsert_of_not_le _ _ hle]
      cases hpb : p b with
      | true =>
        rw [List.filter_cons_of_pos hpb, List.filter_cons_of_pos hpb, ih hsorted,
          List.orderedInsert_of_not_le _ _ hle]
      | false =>
        have hskip : ¬ p b = true := by simp [hpb]
        rw [List.filter_cons_of_neg hskip, List.filter_cons_of_neg hskip, ih hsorted]

theorem orderedInsert_filter_of_not (hp : p a = false) :
    (rows.orderedInsert le a).filter p = rows.filter p := by
  rw [List.orderedInsert_eq_take_drop, List.filter_append, List.filter_cons_of_neg (by simp [hp]),
    ← List.filter_append, List.takeWhile_append_dropWhile]

theorem insertionSort_filter (htotal : ∀ a b, le a b ∨ le b a)
    (htrans : ∀ a b c, le a b → le b c → le a c) :
    (rows.filter p).insertionSort le = (rows.insertionSort le).filter p := by
  induction rows with
  | nil => rfl
  | cons a rows ih =>
    have hsorted :=
      (OrderedBy.of_insertionSort htotal htrans : OrderedBy le rows (rows.insertionSort le)).sorted
    rw [List.insertionSort_cons]
    cases hp : p a with
    | true =>
      rw [orderedInsert_filter htrans hsorted hp, List.filter_cons_of_pos hp,
        List.insertionSort_cons, ih]
    | false =>
      have hskip : ¬ p a = true := by simp [hp]
      rw [orderedInsert_filter_of_not hp, List.filter_cons_of_neg hskip, ih]

end

/-! ## The first row with a value -/

variable [LinearOrder κ] {key : α → κ} {value : α → Option β} {rows result : List α} {a b : α}

/-- No row with a value has a lower key. -/
structure LowestValued (key : α → κ) (value : α → Option β) (rows : List α) (a : α) : Prop where
  mem : a ∈ rows
  valued : value a ≠ none
  lowest : ∀ b ∈ rows, value b ≠ none → key a ≤ key b

/-- The rows that may come first among the valued ones have one value. -/
def Unambiguous (key : α → κ) (value : α → Option β) (rows : List α) : Prop :=
  ∀ a b, LowestValued key value rows a → LowestValued key value rows b → value a = value b

/-- What comes first is the value of a row of the lowest key. -/
theorem findSome?_lowest (h : OrderedBy (fun a b => key a ≤ key b) rows result) (hb : b ∈ rows)
    (hvalued : value b ≠ none) :
    ∃ a, LowestValued key value rows a ∧ result.findSome? value = value a := by
  obtain ⟨hperm, hsorted⟩ := h
  have hb' := hperm.mem_iff.mpr hb
  -- the rows before the first valued one have no value
  induction result generalizing rows with
  | nil => cases hb'
  | cons c result ih =>
    obtain ⟨hc, hsorted⟩ := List.pairwise_cons.mp hsorted
    cases hvalue : value c with
    | some v =>
      refine ⟨c, ⟨hperm.mem_iff.mp (List.mem_cons_self ..), by simp [hvalue], fun d hd _ => ?_⟩, ?_⟩
      · rcases List.mem_cons.mp (hperm.mem_iff.mpr hd) with rfl | hd
        · exact le_refl _
        · exact hc d hd
      · rw [List.findSome?_cons, hvalue]
    | none =>
      have hrest : b ∈ result := by
        rcases List.mem_cons.mp hb' with rfl | hrest
        · exact absurd hvalue hvalued
        · exact hrest
      obtain ⟨a, ha, heq⟩ := ih hrest (List.Perm.refl result) hsorted hrest
      refine ⟨a, ⟨hperm.mem_iff.mp (List.mem_cons_of_mem _ ha.mem), ha.valued, fun d hd hdv => ?_⟩,
        ?_⟩
      · rcases List.mem_cons.mp (hperm.mem_iff.mpr hd) with rfl | hd
        · exact absurd hvalue hdv
        · exact ha.lowest d hd hdv
      · rw [List.findSome?_cons, hvalue, heq]

/-- Every row of the lowest key comes first in some order. -/
theorem LowestValued.first (h : LowestValued key value rows a) :
    ∃ result, OrderedBy (fun a b => key a ≤ key b) rows result ∧
      result.findSome? value = value a := by
  obtain ⟨before, after, hrows⟩ := List.append_of_mem h.mem
  have hperm : (a :: (before ++ after)).Perm rows := hrows ▸ List.perm_middle.symm
  have hordered : OrderedBy (fun a b => key a ≤ key b) (a :: (before ++ after)) _ :=
    .of_insertionSort (fun b c => le_total (key b) (key c)) fun _ _ _ h h' => le_trans h h'
  refine ⟨_, ⟨hordered.perm.trans hperm, hordered.sorted⟩, ?_⟩
  -- the rows the sort leaves before `a` have lower keys, so none of them has a value
  rw [List.insertionSort_cons, List.orderedInsert_eq_take_drop, List.findSome?_append]
  have hnone : (((before ++ after).insertionSort fun a b => key a ≤ key b).takeWhile
      fun b => ¬ key a ≤ key b).findSome? value = none := by
    refine List.findSome?_eq_none_iff.mpr fun c hc => ?_
    have hbelow : ¬ key a ≤ key c := by simpa using List.all_eq_true.mp List.all_takeWhile c hc
    have hmem : c ∈ before ++ after := (List.mem_insertionSort _).mp
        ((List.takeWhile_sublist _).subset hc)
    by_contra hvalued
    exact hbelow (h.lowest c (hperm.mem_iff.mp (List.mem_cons_of_mem _ hmem)) hvalued)
  obtain ⟨v, hv⟩ := Option.ne_none_iff_exists'.mp h.valued
  rw [hnone, Option.none_or, List.findSome?_cons, hv]

/-- **The first value does not depend on the order** exactly when the rows that may come first
agree. -/
theorem findSome?_stable_iff :
    (∀ result result', OrderedBy (fun a b => key a ≤ key b) rows result →
      OrderedBy (fun a b => key a ≤ key b) rows result' →
        result.findSome? value = result'.findSome? value) ↔
    Unambiguous key value rows := by
  constructor
  · intro h a b ha hb
    obtain ⟨result, hordered, hfirst⟩ := ha.first
    obtain ⟨result', hordered', hfirst'⟩ := hb.first
    rw [← hfirst, ← hfirst']
    exact h result result' hordered hordered'
  · intro h result result' hordered hordered'
    by_cases hvalued : ∃ b ∈ rows, value b ≠ none
    · obtain ⟨b, hb, hvalued⟩ := hvalued
      obtain ⟨a, ha, heq⟩ := findSome?_lowest hordered hb hvalued
      obtain ⟨a', ha', heq'⟩ := findSome?_lowest hordered' hb hvalued
      rw [heq, heq', h a a' ha ha']
    · have hnone : ∀ b ∈ rows, value b = none := fun b hb => by_contra fun hv => hvalued ⟨b, hb, hv⟩
      rw [List.findSome?_eq_none_iff.mpr fun b hb => hnone b (hordered.perm.mem_iff.mp hb),
        List.findSome?_eq_none_iff.mpr fun b hb => hnone b (hordered'.perm.mem_iff.mp hb)]

end ContentOrchestrator.Lib
