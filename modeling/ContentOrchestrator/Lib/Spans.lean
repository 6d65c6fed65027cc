import Mathlib.Algebra.Order.Monoid.Unbundled.Basic
import Mathlib.Algebra.Order.Monoid.Defs
import Mathlib.Order.Defs.LinearOrder

/-! # Spans of time shorter than a length

A span is a set of moments, with everything between two of them, no two of which
lie a full length apart. The half-open intervals of that length are spans,
whichever end they include, so what is bounded in every span is bounded in both. -/

namespace ContentOrchestrator.Lib

variable {T : Type} [LinearOrder T]

def fromUntil (first last : T) (t : T) : Bool := decide (first ≤ t) && decide (t < last)

def afterUpTo (first last : T) (t : T) : Bool := decide (first < t) && decide (t ≤ last)

theorem fromUntil_eq {first last t : T} : fromUntil first last t = true ↔ first ≤ t ∧ t < last := by
  simp [fromUntil]

theorem afterUpTo_eq {first last t : T} : afterUpTo first last t = true ↔ first < t ∧ t ≤ last := by
  simp [afterUpTo]

variable [AddCommMonoid T]

structure Span (length : T) (within : T → Bool) : Prop where
  short : ∀ s t, within s = true → within t = true → t < s + length
  between : ∀ s t u, within s = true → within u = true → s ≤ t → t ≤ u → within t = true

namespace Span

variable {length : T} {within : T → Bool}

/-- Once the span is left it is not entered again. -/
theorem left (h : Span length within) {s t u : T} (hs : within s = true) (hst : s ≤ t)
    (ht : within t = false) (htu : t ≤ u) : within u = false := by
  by_contra hwithin
  rw [Bool.not_eq_false] at hwithin
  have := h.between s t u hs hwithin hst htu
  rw [ht] at this
  cases this

end Span

variable [IsOrderedCancelAddMonoid T]

theorem span_fromUntil (length first : T) : Span length (fromUntil first (first + length)) where
  short s t hs ht := by
    rw [fromUntil_eq] at hs ht
    calc t < first + length := ht.2
      _ ≤ s + length := add_le_add_left hs.1 length
  between s t u hs hu hst htu := by
    rw [fromUntil_eq] at hs hu ⊢
    exact ⟨hs.1.trans hst, htu.trans_lt hu.2⟩

theorem span_afterUpTo (length first : T) : Span length (afterUpTo first (first + length)) where
  short s t hs ht := by
    rw [afterUpTo_eq] at hs ht
    calc t ≤ first + length := ht.2
      _ < s + length := add_lt_add_left hs.1 length
  between s t u hs hu hst htu := by
    rw [afterUpTo_eq] at hs hu ⊢
    exact ⟨hs.1.trans_le hst, htu.trans hu.2⟩

end ContentOrchestrator.Lib
