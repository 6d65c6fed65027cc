/-! # Runs of a transition system

A system is a relation between states and the actions that lead from one to the
next. `Reach` restricts every step by a condition on the state before it and the
action taken; what the condition and one step preserve, a whole run preserves. -/

namespace ContentOrchestrator.Lib

variable {σ α τ : Type}

/-- States reached from `s` by steps that all meet the condition `ok`. -/
inductive Reach (next : σ → α → σ → Prop) (ok : σ → α → Prop) (s : σ) : σ → Prop
  | refl : Reach next ok s s
  | step {t u : σ} {a : α} (before : Reach next ok s t) (met : ok t a) (taken : next t a u) :
      Reach next ok s u

namespace Reach

variable {next : σ → α → σ → Prop} {ok ok' : σ → α → Prop} {s t u : σ}

/-- **The run rule.** What holds at the start and is kept by every admitted step holds
throughout. -/
theorem invariant {P : σ → Prop} (hstart : P s)
    (hstep : ∀ t a u, P t → ok t a → next t a u → P u) (h : Reach next ok s t) : P t := by
  induction h with
  | refl => exact hstart
  | step _ met taken ih => exact hstep _ _ _ ih met taken

theorem mono (hok : ∀ t a, ok t a → ok' t a) (h : Reach next ok s t) : Reach next ok' s t := by
  induction h with
  | refl => exact .refl
  | step _ met taken ih => exact .step ih (hok _ _ met) taken

theorem trans (h : Reach next ok s t) (h' : Reach next ok t u) : Reach next ok s u := by
  induction h' with
  | refl => exact h
  | step _ met taken ih => exact .step ih met taken

end Reach

/-- Run a list of actions through a step function. -/
def replay (step : σ → α → σ) (s : σ) (actions : List α) : σ := actions.foldl step s

/-- Every action of the list meets the condition in the state it is taken in. -/
def admits (step : σ → α → σ) (ok : σ → α → Bool) : σ → List α → Bool
  | _, [] => true
  | s, a :: rest => ok s a && admits step ok (step s a) rest

theorem admits_take {step : σ → α → σ} {ok : σ → α → Bool} :
    ∀ {actions : List α} {s : σ}, admits step ok s actions = true →
      ∀ n, admits step ok s (actions.take n) = true
  | [], _, _, _ => by simp [admits]
  | _ :: _, _, _, 0 => rfl
  | a :: rest, s, h, n + 1 => by
    obtain ⟨hfirst, hrest⟩ := Bool.and_eq_true_iff.mp h
    exact Bool.and_eq_true_iff.mpr ⟨hfirst, admits_take hrest n⟩

/-- An admitted replay is a run. -/
theorem reach_replay {step : σ → α → σ} {ok : σ → α → Bool} :
    ∀ (actions : List α) (s : σ), admits step ok s actions = true →
      Reach (fun s a t => step s a = t) (fun s a => ok s a = true) s (replay step s actions)
  | [], _, _ => .refl
  | a :: rest, s, h => by
    obtain ⟨hfirst, hrest⟩ := Bool.and_eq_true_iff.mp h
    have hstep : Reach (fun s a t => step s a = t) (fun s a => ok s a = true) s (step s a) :=
      .step .refl hfirst rfl
    exact hstep.trans (reach_replay rest _ hrest)

/-- Without a condition every replay is a run. -/
theorem reach_any {step : σ → α → σ} (actions : List α) (s : σ) :
    Reach (fun s a t => step s a = t) (fun _ _ => True) s (replay step s actions) := by
  induction actions generalizing s with
  | nil => exact .refl
  | cons a rest ih =>
    have hstep : Reach (fun s a t => step s a = t) (fun _ _ => True) s (step s a) :=
      .step .refl trivial rfl
    exact hstep.trans (ih (step s a))

/-- What every step keeps holds between any two states of a run, in their order. -/
theorem replay_mono {step : σ → α → σ}
    {R : σ → σ → Prop} (hrefl : ∀ s, R s s) (htrans : ∀ s t u, R s t → R t u →
      R s u) (hstep : ∀ s a, R s (step s a)) :
    ∀ (actions : List α) (s : σ) {n m : Nat}, n ≤ m →
      R (replay step s (actions.take n)) (replay step s (actions.take m))
  | [], s, n, m, _ => by
    rw [List.take_nil, List.take_nil]
    exact hrefl _
  | _ :: _, s, 0, 0, _ => hrefl s
  | a :: rest, s, 0, m + 1, _ => by
    have hlater : R (replay step (step s a) (rest.take 0)) (replay step (step s a) (rest.take m)) :=
      replay_mono hrefl htrans hstep rest (step s a) (Nat.zero_le m)
    exact htrans s (step s a) _ (hstep s a) hlater
  | a :: rest, s, n + 1, m + 1, hle =>
    replay_mono hrefl htrans hstep rest (step s a) (Nat.le_of_succ_le_succ hle)

/-- **The exact run rule.** If, where the invariant holds, a step keeps the property exactly when it
meets the condition, then a run has the property throughout exactly when all its steps meet the
condition. -/
theorem throughout_iff_admits {step : σ → α → σ} {ok : σ → α → Bool} {I P : σ → Prop}
    (hinvariant : ∀ s a, I s → I (step s a))
    (hstep : ∀ s a, I s → P s → (P (step s a) ↔ ok s a = true)) :
    ∀ (actions : List α) (s : σ), I s → P s →
      ((∀ n, P (replay step s (actions.take n))) ↔ admits step ok s actions = true)
  | [], _, _, hp => by
    simp only [List.take_nil, admits, iff_true]
    exact fun _ => hp
  | a :: rest, s, hi, hp => by
    have hlater : P (step s a) →
        ((∀ n, P (replay step (step s a) (rest.take n))) ↔ admits step ok (step s a) rest = true) :=
      throughout_iff_admits hinvariant hstep rest (step s a) (hinvariant s a hi)
    rw [admits, Bool.and_eq_true]
    constructor
    · intro hall
      have hfirst : P (step s a) := hall 1
      exact ⟨(hstep s a hi hp).mp hfirst, (hlater hfirst).mp fun n => hall (n + 1)⟩
    · rintro ⟨hok, hrest⟩ n
      have hfirst : P (step s a) := (hstep s a hi hp).mpr hok
      cases n with
      | zero => exact hp
      | succ n => exact (hlater hfirst).mpr hrest n

/-- **The exact step rule.** If a step has the property exactly when it meets the condition, then so
it is for all steps of a run. -/
theorem everyStep_iff_admits {step : σ → α → σ} {ok : σ → α → Bool} {P : σ → α → σ → Prop}
    (hstep : ∀ s a, P s a (step s a) ↔ ok s a = true) :
    ∀ (actions : List α) (s : σ),
      (∀ n a, actions[n]? = some a →
        P (replay step s (actions.take n)) a (replay step s (actions.take (n + 1)))) ↔
          admits step ok s actions = true
  | [], _ => by simp [admits]
  | a :: rest, s => by
    have hlater := everyStep_iff_admits hstep rest (step s a)
    rw [admits, Bool.and_eq_true]
    constructor
    · intro hall
      have hfirst : P s a (step s a) := hall 0 a rfl
      exact ⟨(hstep s a).mp hfirst, hlater.mp fun n b hb => hall (n + 1) b hb⟩
    · rintro ⟨hok, hrest⟩ n b hb
      cases n with
      | zero =>
        obtain rfl : a = b := Option.some.inj hb
        exact (hstep s a).mpr hok
      | succ n => exact hlater.mpr hrest n b hb

end ContentOrchestrator.Lib
