import ContentOrchestrator.Lib.Spans
import Mathlib.Algebra.Order.Group.Basic
import Mathlib.Logic.Function.Basic
import Mathlib.Tactic.Abel

/-! # The request limiter

A counter per key over a window that starts at the key's first request and starts
again at the first one after its length has passed. The settings carry the checks of
the constructor and a window carries its bound, so every limiter built here respects
its own maximum. A clock reading is an element of an ordered group: no rounding. -/

namespace ContentOrchestrator

open Lib

section Checks

variable {T : Type} [AddCommGroup T] [LinearOrder T]

structure RateLimits (T : Type) [AddCommGroup T] [LinearOrder T] where
  maxRequests : Nat
  windowSeconds : T
  one_le_maxRequests : 1 ≤ maxRequests
  windowSeconds_pos : 0 < windowSeconds

def RateLimits.make (maxRequests : Int) (windowSeconds : T) : Except String (RateLimits T) :=
  if hmax : maxRequests < 1 then .error "max_requests must be >= 1"
  else if hwindow : windowSeconds ≤ 0 then .error "window_seconds must be > 0"
  else .ok ⟨maxRequests.toNat, windowSeconds, by omega, lt_of_not_ge hwindow⟩

structure Window (limits : RateLimits T) where
  startedAt : T
  count : Nat
  count_le : count ≤ limits.maxRequests

structure InMemoryRateLimiter (limits : RateLimits T) where
  windows : String → Option (Window limits)

variable {limits : RateLimits T}

def InMemoryRateLimiter.new : InMemoryRateLimiter limits := ⟨fun _ => none⟩

def startWindow (now : T) : Window limits := ⟨now, 1, limits.one_le_maxRequests⟩

/-- The verdict and retry_after for a key with this window, and the window it has then. -/
def checkWindow (window : Option (Window limits)) (now : T) : (Bool × T) × Option (Window limits) :=
  match window with
  | none => ((true, 0), some (startWindow now))
  | some window =>
    if limits.windowSeconds ≤ now - window.startedAt then ((true, 0), some (startWindow now))
    else if hroom : window.count < limits.maxRequests then
      ((true, 0), some { window with count := window.count + 1, count_le := hroom })
    else
      let retryAfter := limits.windowSeconds - (now - window.startedAt)
      ((false, max retryAfter 0), some window)

def InMemoryRateLimiter.check (limiter : InMemoryRateLimiter limits) (key : String) (now : T) :
    (Bool × T) × InMemoryRateLimiter limits :=
  let (answer, window) := checkWindow (limiter.windows key) now
  (answer, ⟨Function.update limiter.windows key window⟩)

structure Check (T : Type) where
  key : String
  now : T

/-- A request and what the limiter told it. -/
structure AnsweredCheck (T : Type) extends Check T where
  allowed : Bool
  retryAfter : T

def InMemoryRateLimiter.answer (limiter : InMemoryRateLimiter limits) (call : Check T) :
    AnsweredCheck T :=
  let answer := (limiter.check call.key call.now).1
  { call with allowed := answer.1, retryAfter := answer.2 }

def InMemoryRateLimiter.after (limiter : InMemoryRateLimiter limits) (call : Check T) :
    InMemoryRateLimiter limits :=
  (limiter.check call.key call.now).2

def InMemoryRateLimiter.afterAll (limiter : InMemoryRateLimiter limits) (calls : List (Check T)) :
    InMemoryRateLimiter limits :=
  calls.foldl InMemoryRateLimiter.after limiter

/-- The answers to a list of requests, each from the limiter the ones before it left. -/
def InMemoryRateLimiter.answers : InMemoryRateLimiter limits → List (Check T) →
    List (AnsweredCheck T)
  | _, [] => []
  | limiter, call :: rest => limiter.answer call :: (limiter.after call).answers rest

/-- Requests of the key that were allowed at one of the given moments. -/
def allowedWithin (within : T → Bool) (key : String) (answers : List (AnsweredCheck T)) : Nat :=
  answers.countP fun answer => answer.key == key && answer.allowed && within answer.now

/-! ## One key and the others -/

theorem windows_after (limiter : InMemoryRateLimiter limits) (call : Check T) :
    (limiter.after call).windows call.key = (checkWindow (limiter.windows call.key) call.now).2 :=
  Function.update_self ..

theorem windows_after_of_ne {limiter : InMemoryRateLimiter limits} {call : Check T} {key : String}
    (h : call.key ≠ key) : (limiter.after call).windows key = limiter.windows key :=
  Function.update_of_ne (Ne.symm h) ..

theorem windows_afterAll_of_ne {calls : List (Check T)} {key : String} :
    ∀ {limiter : InMemoryRateLimiter limits}, (∀ call ∈ calls, call.key ≠ key) →
      (limiter.afterAll calls).windows key = limiter.windows key := by
  induction calls with
  | nil => intro _ _; rfl
  | cons call rest ih =>
    intro limiter h
    calc ((limiter.after call).afterAll rest).windows key
        = (limiter.after call).windows key := ih fun c hc => h c (List.mem_cons_of_mem _ hc)
      _ = limiter.windows key := windows_after_of_ne (h call List.mem_cons_self)

/-- An answer depends on the window of its own key alone. -/
theorem answer_congr {l m : InMemoryRateLimiter limits} {call : Check T}
    (h : l.windows call.key = m.windows call.key) : l.answer call = m.answer call := by
  simp only [InMemoryRateLimiter.answer, InMemoryRateLimiter.check, h]

/-- **Isolation.** A key is answered as if the requests of the other keys had not been made. -/
theorem filter_answers (key : String) (calls : List (Check T)) :
    ∀ {l m : InMemoryRateLimiter limits}, l.windows key = m.windows key →
      (l.answers calls).filter (fun answer => answer.key == key) =
        m.answers (calls.filter fun call => call.key == key) := by
  induction calls with
  | nil => intro _ _ _; rfl
  | cons call rest ih =>
    intro l m h
    have hkey : (l.answer call).key = call.key := rfl
    by_cases hown : call.key = key
    · have hsame : l.windows call.key = m.windows call.key := by rw [hown, h]
      have hafter : (l.after call).windows key = (m.after call).windows key := by
        rw [← hown, windows_after, windows_after, hsame]
      rw [InMemoryRateLimiter.answers, List.filter_cons_of_pos (by simp [hkey, hown]),
        List.filter_cons_of_pos (by simp [hown]), InMemoryRateLimiter.answers, answer_congr hsame,
          ih hafter]
    · rw [InMemoryRateLimiter.answers, List.filter_cons_of_neg (by simp [hkey, hown]),
        List.filter_cons_of_neg (by simp [hown])]
      exact ih ((windows_after_of_ne hown).trans h)

/-! ## One window after the other -/

/-- What one check does: it starts a window, counts in the one it finds, or refuses. -/
theorem checkWindow_cases (window : Window limits) (now : T) :
    (limits.windowSeconds ≤ now - window.startedAt ∧
      checkWindow (some window) now = ((true, 0), some (startWindow now))) ∨
    (now - window.startedAt < limits.windowSeconds ∧ ∃ counted : Window limits,
      counted.startedAt = window.startedAt ∧ counted.count = window.count + 1 ∧
        checkWindow (some window) now = ((true, 0), some counted)) ∨
    (now - window.startedAt < limits.windowSeconds ∧ window.count = limits.maxRequests ∧
      checkWindow (some window) now =
        ((false, max (limits.windowSeconds - (now - window.startedAt)) 0), some window)) := by
  by_cases hexpired : limits.windowSeconds ≤ now - window.startedAt
  · exact .inl ⟨hexpired, by simp only [checkWindow, if_pos hexpired]⟩
  · have hlive : now - window.startedAt < limits.windowSeconds := lt_of_not_ge hexpired
    by_cases hroom : window.count < limits.maxRequests
    · refine .inr (.inl ⟨hlive, ⟨window.startedAt, window.count + 1, hroom⟩, rfl, rfl, ?_⟩)
      simp only [checkWindow, if_neg hexpired, dif_pos hroom]
    · have hfull : window.count = limits.maxRequests :=
        Nat.le_antisymm window.count_le (Nat.le_of_not_lt hroom)
      refine .inr (.inr ⟨hlive, hfull, ?_⟩)
      simp only [checkWindow, if_neg hexpired, dif_neg hroom]

/-- A refused request leaves its window as it was. -/
theorem checkWindow_refused {window : Option (Window limits)} {now : T}
    (h : (checkWindow window now).1.1 = false) : (checkWindow window now).2 = window := by
  cases window with
  | none => cases h
  | some window =>
    obtain ⟨-, heq⟩ | ⟨-, _, -, -, heq⟩ | ⟨-, -, heq⟩ := checkWindow_cases window now
    · rw [heq] at h
      cases h
    · rw [heq] at h
      cases h
    · rw [heq]

theorem after_refused {limiter : InMemoryRateLimiter limits} {call : Check T}
    (h : (limiter.answer call).allowed = false) : limiter.after call = limiter := by
  have hsame : (checkWindow (limiter.windows call.key) call.now).2 = limiter.windows call.key :=
    checkWindow_refused h
  have : (limiter.after call).windows = limiter.windows := by
    simp only [InMemoryRateLimiter.after, InMemoryRateLimiter.check, hsame, Function.update_eq_self]
  cases limiter
  exact congrArg InMemoryRateLimiter.mk this

/-- Requests of one key allowed at one of the given moments, from the key's window and the times it
asks at. -/
def allowedFrom (within : T → Bool) : Option (Window limits) → List T → Nat
  | _, [] => 0
  | window, now :: rest =>
    ((checkWindow window now).1.1 && within now).toNat + allowedFrom within
    (checkWindow window now).2 rest

theorem allowedWithin_answers (within : T → Bool) (key : String) (calls : List (Check T)) :
    ∀ limiter : InMemoryRateLimiter limits,
      allowedWithin within key (limiter.answers calls) =
        allowedFrom within (limiter.windows key)
          ((calls.filter fun call => call.key == key).map fun call => call.now) := by
  induction calls with
  | nil => intro _; rfl
  | cons call rest ih =>
    intro limiter
    have hrest := ih (limiter.after call)
    simp only [allowedWithin] at hrest
    by_cases hown : call.key = key
    · subst hown
      have hanswer : (limiter.answer call).allowed =
          (checkWindow (limiter.windows call.key) call.now).1.1 := rfl
      have hmoment : (limiter.answer call).now = call.now := rfl
      have hkey : (limiter.answer call).key = call.key := rfl
      rw [windows_after] at hrest
      rw [List.filter_cons_of_pos (by simp), List.map_cons, allowedFrom, ← hrest, allowedWithin,
        InMemoryRateLimiter.answers, List.countP_cons, hanswer, hmoment, hkey, Nat.add_comm]
      cases (checkWindow (limiter.windows call.key) call.now).1.1 <;> cases within call.now <;> simp
    · rw [windows_after_of_ne hown] at hrest
      have hkey : (limiter.answer call).key = call.key := rfl
      rw [List.filter_cons_of_neg (by simp [hown]), ← hrest, allowedWithin,
        InMemoryRateLimiter.answers, List.countP_cons_of_neg (by simp [hkey, hown])]

theorem allowedFrom_outside {within : T → Bool} :
    ∀ {times : List T} {window : Option (Window limits)}, (∀ t ∈ times, within t = false) →
      allowedFrom within window times = 0 := by
  intro times
  induction times with
  | nil => intro _ _; rfl
  | cons now rest ih =>
    intro window h
    rw [allowedFrom, h now List.mem_cons_self, Bool.and_false, ih fun t ht =>
      h t (List.mem_cons_of_mem _ ht)]
    rfl

variable {within : T → Bool}

/-- A window that starts in the span is still open for the rest of it. -/
theorem allowedFrom_started (hspan : Span limits.windowSeconds within) [IsOrderedAddMonoid T] :
    ∀ {times : List T} {window : Window limits}, within window.startedAt = true →
      times.Pairwise (· ≤ ·) →
      (∀ t ∈ times, window.startedAt ≤ t) →
        window.count + allowedFrom within (some window) times ≤ limits.maxRequests := by
  intro times
  induction times with
  | nil => intro window _ _ _; exact window.count_le
  | cons now rest ih =>
    intro window hstart hordered hlater
    obtain ⟨hnow, hrest⟩ := List.pairwise_cons.mp hordered
    have hafter : ∀ t ∈ rest, window.startedAt ≤ t := fun t ht =>
        hlater t (List.mem_cons_of_mem _ ht)
    cases hwithin : within now with
    | false =>
      have hgone : ∀ t ∈ rest, within t = false := fun t ht =>
        hspan.left hstart (hlater now List.mem_cons_self) hwithin (hnow t ht)
      rw [allowedFrom, hwithin, Bool.and_false, allowedFrom_outside hgone]
      exact window.count_le
    | true =>
      have hshort : now < window.startedAt + limits.windowSeconds := hspan.short _ _ hstart hwithin
      have hlive : now - window.startedAt < limits.windowSeconds := sub_lt_iff_lt_add'.mpr hshort
      obtain ⟨hexpired, -⟩ | ⟨-, counted, hsame, hcount, heq⟩ | ⟨-, -, heq⟩ :=
        checkWindow_cases window now
      · exact absurd hlive (not_lt_of_ge hexpired)
      · rw [← hsame] at hstart hafter
        have := ih hstart hrest hafter
        rw [allowedFrom, hwithin, heq]
        simp only [Bool.and_self, Bool.toNat_true]
        omega
      · have := ih hstart hrest hafter
        rw [allowedFrom, hwithin, heq]
        simp only [Bool.false_and, Bool.toNat_false]
        omega

/-- Requests a window still takes. -/
def room : Option (Window limits) → Nat
  | none => 0
  | some window => limits.maxRequests - window.count

/-- Inside the span: what the window found there still takes, and one window more. -/
theorem allowedFrom_entered (hspan : Span limits.windowSeconds within) [IsOrderedAddMonoid T]
    {entered : T} (hentered : within entered = true) :
    ∀ {times : List T} {window : Option (Window limits)}, times.Pairwise (· ≤ ·) →
      (∀ t ∈ times, entered ≤ t) →
        allowedFrom within window times ≤ room window + limits.maxRequests := by
  intro times
  induction times with
  | nil => intro window _ _; exact Nat.zero_le _
  | cons now rest ih =>
    intro window hordered hlater
    obtain ⟨hnow, hrest⟩ := List.pairwise_cons.mp hordered
    have hafter : ∀ t ∈ rest, entered ≤ t := fun t ht => hlater t (List.mem_cons_of_mem _ ht)
    cases hwithin : within now with
    | false =>
      have hgone : ∀ t ∈ rest, within t = false := fun t ht =>
        hspan.left hentered (hlater now List.mem_cons_self) hwithin (hnow t ht)
      rw [allowedFrom, hwithin, Bool.and_false, allowedFrom_outside hgone]
      exact Nat.zero_le _
    | true =>
      -- A window that starts here takes the rest of the span.
      have hstarted : (startWindow now : Window limits).count +
          allowedFrom within (some (startWindow now)) rest ≤
          limits.maxRequests := allowedFrom_started hspan hwithin hrest hnow
      simp only [startWindow] at hstarted
      cases window with
      | none =>
        rw [allowedFrom, hwithin]
        simp only [checkWindow, startWindow, Bool.and_self, Bool.toNat_true]
        omega
      | some window =>
        rw [allowedFrom, hwithin]
        obtain ⟨-, heq⟩ | ⟨-, counted, -, hcount, heq⟩ | ⟨-, -, heq⟩ := checkWindow_cases window now
        · rw [heq]
          simp only [startWindow, Bool.and_self, Bool.toNat_true]
          omega
        · have : allowedFrom within (some counted) rest ≤
              room (some counted) + limits.maxRequests := ih hrest hafter
          have := counted.count_le
          rw [heq]
          simp only [room, Bool.and_self, Bool.toNat_true] at *
          omega
        · have : allowedFrom within (some window) rest ≤ room (some window) + limits.maxRequests :=
            ih hrest hafter
          rw [heq]
          simpa only [Bool.false_and, Bool.toNat_false, Nat.zero_add] using this

theorem room_le (window : Option (Window limits)) : room window ≤ limits.maxRequests := by
  cases window with
  | none => exact Nat.zero_le _
  | some window => exact Nat.sub_le ..

/-- **The bound.** In a span of one window's length at most two windows' requests of a key are
allowed. -/
theorem allowedFrom_le (hspan : Span limits.windowSeconds within) [IsOrderedAddMonoid T] :
    ∀ {times : List T} {window : Option (Window limits)}, times.Pairwise (· ≤ ·) →
      allowedFrom within window times ≤ 2 * limits.maxRequests := by
  intro times
  induction times with
  | nil => intro _ _; exact Nat.zero_le _
  | cons now rest ih =>
    intro window hordered
    obtain ⟨hnow, hrest⟩ := List.pairwise_cons.mp hordered
    cases hwithin : within now with
    | false =>
      rw [allowedFrom, hwithin, Bool.and_false, Bool.toNat_false, Nat.zero_add]
      exact ih hrest
    | true =>
      have hlater : ∀ t ∈ now :: rest, now ≤ t := by
        rintro t (_ | ⟨_, ht⟩)
        · exact le_refl now
        · exact hnow t ht
      have hbound : allowedFrom within window (now :: rest) ≤ room window + limits.maxRequests :=
        allowedFrom_entered hspan hwithin hordered hlater
      have := room_le window
      omega

/-- A refused key is served again once its window has passed, whatever the other keys ask
meanwhile. -/
theorem checkWindow_retry [IsOrderedAddMonoid T] {window : Option (Window limits)} {now later : T}
    (hrefused : (checkWindow window now).1.1 = false)
    (hlater : now + (checkWindow window now).1.2 ≤ later) :
    (checkWindow window later).1.1 = true := by
  cases window with
  | none => cases hrefused
  | some window =>
    obtain ⟨-, heq⟩ | ⟨-, _, -, -, heq⟩ | ⟨hlive, -, heq⟩ := checkWindow_cases window now
    · rw [heq] at hrefused
      cases hrefused
    · rw [heq] at hrefused
      cases hrefused
    · rw [heq, max_eq_left (sub_nonneg.mpr hlive.le)] at hlater
      have hpassed : limits.windowSeconds ≤ later - window.startedAt :=
        calc limits.windowSeconds
            = now + (limits.windowSeconds - (now - window.startedAt)) - window.startedAt := by abel
          _ ≤ later - window.startedAt := sub_le_sub_right hlater _
      simp only [checkWindow, if_pos hpassed]

end Checks

end ContentOrchestrator
