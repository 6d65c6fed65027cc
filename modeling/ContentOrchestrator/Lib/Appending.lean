import ContentOrchestrator.Lib.Table

/-! # Tables that only grow

An append-only table keeps its rows and gets new ones at its end, under keys it had not
handed out. So what a row was found to be it stays, and a selection only gets longer. -/

namespace ContentOrchestrator.Lib.Table

open Keyed

variable {α : Type} [Keyed α]

/-- `t` is `s` with these rows added at its end. -/
structure Appended (s t : Table α) (added : List α) : Prop where
  rows : t.rows = s.rows ++ added
  next_le : s.next ≤ t.next
  later : ∀ a ∈ added, s.next ≤ key a

namespace Appended

variable {s t u : Table α} {added more : List α} {a : α}

theorem refl (s : Table α) : Appended s s [] where
  rows := (List.append_nil _).symm
  next_le := Nat.le_refl _
  later := by simp

theorem insert (s : Table α) (row : NewRow α) : Appended s (s.insert row) [row.make s.next] where
  rows := rfl
  next_le := Nat.le_succ _
  later a ha := by
    rw [List.mem_singleton.mp ha, row.key_make]

theorem trans (h : Appended s t added) (h' : Appended t u more) : Appended s u (added ++ more) where
  rows := by rw [h'.rows, h.rows, List.append_assoc]
  next_le := Nat.le_trans h.next_le h'.next_le
  later a ha := by
    rcases List.mem_append.mp ha with ha | ha
    · exact h.later a ha
    · exact Nat.le_trans h.next_le (h'.later a ha)

theorem mem (h : Appended s t added) : a ∈ t ↔ a ∈ s ∨ a ∈ added := by
  rw [mem_def, h.rows, List.mem_append, mem_def]

theorem old (h : Appended s t added) (ha : a ∈ s) : a ∈ t := h.mem.mpr (.inl ha)

theorem select (h : Appended s t added) (p : α → Bool) :
    t.select p = s.select p ++ added.filter p := by
  rw [Table.select, h.rows, List.filter_append, Table.select]

theorem count (h : Appended s t added) (p : α → Bool) :
    t.count p = s.count p + (added.filter p).length := by
  rw [count_eq_length_select, count_eq_length_select, h.select, List.length_append]

/-- A row found under a key is found there again. -/
theorem get? (h : Appended s t added) {k : Nat} (ha : s.get? k = some a) : t.get? k = some a := by
  obtain ⟨hmem, hkey⟩ := get?_eq_some.mp ha
  exact get?_eq_some.mpr ⟨h.old hmem, hkey⟩

/-- Growing twice is growing. -/
theorem grows_trans (h : ∃ added, Appended s t added) (h' : ∃ added, Appended t u added) :
    ∃ added, Appended s u added := by
  obtain ⟨_, h⟩ := h
  obtain ⟨_, h'⟩ := h'
  exact ⟨_, h.trans h'⟩

end Appended

theorem get?_inserted (t : Table α) (row : NewRow α) :
    (t.insert row).get? t.next = some (row.make t.next) := by
  rw [get?_insert, if_pos rfl]

end ContentOrchestrator.Lib.Table
