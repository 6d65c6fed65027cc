import Mathlib.Data.List.DropRight
import Mathlib.Data.List.Infix

/-! # Words and separators

A word is a stretch of a list without a separator in it. Cutting the list at a separator, or
trimming separators off its ends, leaves every word whole. -/

namespace ContentOrchestrator.Lib

variable {α : Type} {sep : α → Bool} {w a b : List α} {c : α}

/-- A word lies on one side of a separator. -/
theorem word_infix (hw : ∀ x ∈ w, sep x = false) (hc : sep c = true) (h : w <:+: a ++ c :: b) :
    w <:+: a ∨ w <:+: b := by
  have hnot : c ∉ w := fun hmem => by
    rw [hw c hmem] at hc
    cases hc
  obtain ⟨s, t, h⟩ := h
  rcases List.append_eq_append_iff.mp h with ⟨more, rfl, -⟩ | ⟨more, hfront, hback⟩
  · exact .inl ⟨s, more, rfl⟩
  · -- the word ends after the front: the separator stands before it, or it would be in it
    cases more with
    | nil =>
      rw [List.append_nil] at hfront
      exact .inl (hfront ▸ (List.suffix_append s w).isInfix)
    | cons m more =>
      obtain ⟨rfl, rfl⟩ := List.cons.inj hback
      rcases List.append_eq_append_iff.mp hfront with ⟨rest, rfl, hrest⟩ | ⟨rest, rfl, hrest⟩
      · exact absurd (hrest ▸ List.mem_append_right _ List.mem_cons_self) hnot
      · cases rest with
        | nil =>
          rw [List.nil_append] at hrest
          exact absurd (hrest ▸ List.mem_cons_self) hnot
        | cons r rest =>
          obtain ⟨rfl, rfl⟩ := List.cons.inj hrest
          exact .inr ⟨rest, t, rfl⟩

theorem word_dropWhile (hw : ∀ x ∈ w, sep x = false) (hsome : w ≠ []) {l : List α} (h : w <:+: l) :
    w <:+: l.dropWhile sep := by
  induction l with
  | nil => exact h
  | cons c rest ih =>
    rw [List.dropWhile_cons]
    split
    · rename_i hc
      have hcut : w <:+: [] ++ c :: rest := h
      rcases word_infix hw hc hcut with hnil | hrest
      · exact absurd (List.infix_nil.mp hnil) hsome
      · exact ih hrest
    · exact h

theorem word_rdropWhile (hw : ∀ x ∈ w, sep x = false) (hsome : w ≠ []) {l : List α} (h : w <:+: l) :
    w <:+: l.rdropWhile sep := by
  have hreverse : w.reverse <:+: l.reverse.dropWhile sep :=
    word_dropWhile (fun x hx => hw x (List.mem_reverse.mp hx))
      (fun hnil => hsome (List.reverse_eq_nil_iff.mp hnil)) (List.reverse_infix.mpr h)
  rw [List.rdropWhile, ← List.reverse_infix, List.reverse_reverse]
  exact hreverse

end ContentOrchestrator.Lib
