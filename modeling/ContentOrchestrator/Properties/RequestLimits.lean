import ContentOrchestrator.Access.RateLimit
import Mathlib.Algebra.Order.Group.Defs
import Mathlib.Algebra.Order.Group.Int

/-! # What the request limiter lets through

Over any sequence of requests for any keys: no more than two windows' worth of a key
in any half-open interval of one window, each key on its own, refusals that change
nothing, and a retry time that is kept. -/

namespace ContentOrchestrator

open Lib

variable {T : Type} [AddCommGroup T] [LinearOrder T]

omit [AddCommGroup T] in
theorem times_ordered {calls : List (Check T)} (h : calls.Pairwise fun c d => c.now ≤ d.now)
    (key : String) :
    ((calls.filter fun call => call.key == key).map fun call => call.now).Pairwise (· ≤ ·) :=
  List.pairwise_map.mpr (h.sublist List.filter_sublist)

/-- The bound holds from any limiter, so from one that has served other requests before. -/
theorem requests_limited [IsOrderedAddMonoid T] {limits : RateLimits T}
    (limiter : InMemoryRateLimiter limits) (calls : List (Check T))
    (hordered : calls.Pairwise fun c d => c.now ≤ d.now) (key : String) :
    (∀ first : T,
      allowedWithin (fromUntil first (first + limits.windowSeconds)) key (limiter.answers calls) ≤
          2 * limits.maxRequests ∧
        allowedWithin (afterUpTo first (first + limits.windowSeconds)) key (limiter.answers calls) ≤
          2 * limits.maxRequests) ∧
    (limiter.answers calls).filter (fun answer => answer.key == key) =
      limiter.answers (calls.filter fun call => call.key == key) ∧
    (∀ call, ((limiter.afterAll calls).answer call).allowed = false →
      (limiter.afterAll calls).after call = limiter.afterAll calls) ∧
    ∀ (now later : T) (others : List (Check T)), (∀ other ∈ others, other.key ≠ key) →
      ((limiter.afterAll calls).answer ⟨key, now⟩).allowed = false →
      now + ((limiter.afterAll calls).answer ⟨key, now⟩).retryAfter ≤ later →
        ((((limiter.afterAll calls).after ⟨key, now⟩).afterAll others).answer ⟨key,
          later⟩).allowed = true := by
  refine ⟨?_, filter_answers key calls rfl, fun call h => after_refused h, ?_⟩
  · intro first
    rw [allowedWithin_answers, allowedWithin_answers]
    exact ⟨allowedFrom_le (span_fromUntil _ first) (times_ordered hordered key),
      allowedFrom_le (span_afterUpTo _ first) (times_ordered hordered key)⟩
  · intro now later others hothers hrefused hlater
    have hwindow : (((limiter.afterAll calls).after ⟨key, now⟩).afterAll others).windows key =
        (limiter.afterAll calls).windows key := by
      rw [windows_afterAll_of_ne hothers, after_refused hrefused]
    have hretry : (checkWindow ((limiter.afterAll calls).windows key) later).1.1 = true :=
      checkWindow_retry hrefused hlater
    rw [← hwindow] at hretry
    exact hretry

/-- Two requests a minute, none made yet. -/
def twoAMinute : InMemoryRateLimiter (⟨2, 60, by decide, by decide⟩ : RateLimits Int) := .new

def burst : List (Check Int) := [⟨"a", 0⟩, ⟨"a", 59⟩, ⟨"a", 59⟩, ⟨"b", 59⟩, ⟨"a", 60⟩, ⟨"a", 60⟩]

/-- A key that fills its window late and the next one at once; another key in between is served. -/
theorem requests_limited_burst :
    (twoAMinute.answers burst).map
    (fun answer => answer.allowed) = [true, true, false, true, true, true] ∧
      allowedWithin (fromUntil 1 (1 + 60)) "a" (twoAMinute.answers burst) ≤ 2 * 2 :=
  ⟨by decide, ((requests_limited twoAMinute burst (by decide) "a").1 1).1⟩

end ContentOrchestrator
