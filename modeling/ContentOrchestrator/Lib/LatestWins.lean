import Mathlib.Order.Lattice

/-! # The latest event rules, and a refusal wins a tie

Events carry a time and either grant or refuse. A register keeps the latest time it has
seen and the event that rules: an older event changes nothing, and among events of one
time a refusal replaces what rules and a grant does not. What rules in the end depends
on which events have come, and not on their order or on how often they came. -/

namespace ContentOrchestrator.Lib

variable {ε τ : Type} [LinearOrder τ]

/-- When an event happened, and whether it grants. -/
structure Contest (ε τ : Type) where
  time : ε → τ
  grants : ε → Bool

structure Register (ε τ : Type) where
  mark : Option τ := none
  ruling : Option ε := none

namespace Contest

variable (c : Contest ε τ) {r : Register ε τ} {e : ε} {events : List ε}

/-- The event is older than the mark, or as old and a grant. -/
def Yields (mark : Option τ) (e : ε) : Prop :=
  ∃ m, mark = some m ∧ (c.time e < m ∨ c.time e = m ∧ c.grants e = true)

instance (mark : Option τ) (e : ε) : Decidable (c.Yields mark e) :=
  match mark with
  | none => isFalse fun h => by obtain ⟨m, hm, -⟩ := h; cases hm
  | some m => decidable_of_iff (c.time e < m ∨ c.time e = m ∧ c.grants e = true)
      ⟨fun h => ⟨m, rfl, h⟩, fun h => by obtain ⟨m', hm, h⟩ := h; cases hm; exact h⟩

def receive (r : Register ε τ) (e : ε) : Register ε τ :=
  if c.Yields r.mark e then r else { mark := some (c.time e), ruling := some e }

/-- What the register says about the events it has received since its mark was `start`. -/
structure Rules (start : Option τ) (events : List ε) (r : Register ε τ) : Prop where
  from_start : ∀ m, start = some m → ∃ n, r.mark = some n ∧ m ≤ n
  latest : ∀ e ∈ events, ∃ n, r.mark = some n ∧ c.time e ≤ n
  origin : r.mark = start ∨ ∃ a, r.ruling = some a
  ruling : ∀ a, r.ruling = some a → a ∈ events ∧ r.mark = some (c.time a) ∧
    (c.grants a = true → ∀ e ∈ events, c.time e = c.time a → c.grants e = true)

theorem rules_start (mark : Option τ) : c.Rules mark [] { mark } where
  from_start m hm := ⟨m, hm, le_refl m⟩
  latest e he := by cases he
  origin := .inl rfl
  ruling a ha := by cases ha

variable {c} {start : Option τ}

/-- **One event**: what ruled still rules, or the event does. -/
theorem Rules.receive (h : c.Rules start events r) (e : ε) :
    c.Rules start (events ++ [e]) (c.receive r e) := by
  unfold Contest.receive
  by_cases hyields : c.Yields r.mark e
  · rw [if_pos hyields]
    obtain ⟨m, hmark, hcase⟩ := hyields
    refine ⟨h.from_start, fun b hb => ?_, h.origin, fun a ha => ?_⟩
    · rcases List.mem_append.mp hb with hb | hb
      · exact h.latest b hb
      · rw [List.mem_singleton.mp hb]
        exact ⟨m, hmark, hcase.elim le_of_lt fun htie => le_of_eq htie.1⟩
    · obtain ⟨hmem, htime, hgrants⟩ := h.ruling a ha
      have hm : m = c.time a := Option.some.inj (hmark.symm.trans htime)
      refine ⟨List.mem_append_left _ hmem, htime, fun hgrant b hb heq => ?_⟩
      rcases List.mem_append.mp hb with hb | hb
      · exact hgrants hgrant b hb heq
      · rw [List.mem_singleton.mp hb] at heq ⊢
        rcases hcase with hlt | htie
        · exact absurd (heq.trans hm.symm) (ne_of_lt hlt)
        · exact htie.2
  · rw [if_neg hyields]
    -- the mark, where there is one, is no later than the event, and earlier if the event grants
    have hbelow : ∀ m, r.mark = some m → m ≤ c.time e ∧ (c.grants e = true → m ≠ c.time e) := by
      intro m hm
      refine ⟨not_lt.mp fun hlt => hyields ⟨m, hm, .inl hlt⟩, fun hgrant heq => ?_⟩
      exact hyields ⟨m, hm, .inr ⟨heq.symm, hgrant⟩⟩
    refine ⟨fun m hm => ?_, fun b hb => ?_, .inr ⟨e, rfl⟩, fun a ha => ?_⟩
    · obtain ⟨n, hn, hle⟩ := h.from_start m hm
      exact ⟨c.time e, rfl, le_trans hle (hbelow n hn).1⟩
    · rcases List.mem_append.mp hb with hb | hb
      · obtain ⟨n, hn, hle⟩ := h.latest b hb
        exact ⟨c.time e, rfl, le_trans hle (hbelow n hn).1⟩
      · rw [List.mem_singleton.mp hb]
        exact ⟨c.time e, rfl, le_refl _⟩
    · cases ha
      refine ⟨List.mem_append_right _ (List.mem_singleton.mpr rfl), rfl, fun hgrant b hb heq => ?_⟩
      rcases List.mem_append.mp hb with hb | hb
      · obtain ⟨n, hn, hle⟩ := h.latest b hb
        obtain ⟨hle', hne⟩ := hbelow n hn
        exact absurd (le_antisymm hle' (heq ▸ hle)) (hne hgrant)
      · rw [List.mem_singleton.mp hb]
        exact hgrant

/-- **The verdict**: once an event later than the start has come, an event of the latest time rules,
and it grants exactly if all events of that time do. -/
theorem Rules.verdict (h : c.Rules start events r) {newest : ε} (hmem : newest ∈ events)
    (hlatest : ∀ e ∈ events, c.time e ≤ c.time newest)
    (hstart : ∀ m, start = some m → m < c.time newest) :
    ∃ a ∈ events, r.ruling = some a ∧ c.time a = c.time newest ∧
      (c.grants a = true ↔ ∀ e ∈ events, c.time e = c.time newest → c.grants e = true) := by
  obtain ⟨n, hn, hle⟩ := h.latest newest hmem
  obtain ⟨a, ha⟩ : ∃ a, r.ruling = some a := by
    rcases h.origin with hsame | hruled
    · exact absurd hle (not_le.mpr (hstart n (hsame ▸ hn)))
    · exact hruled
  obtain ⟨hin, hmark, hgrants⟩ := h.ruling a ha
  have htime : c.time a = c.time newest := by
    have hna : n = c.time a := Option.some.inj (hn.symm.trans hmark)
    exact le_antisymm (hlatest a hin) (hna ▸ hle)
  refine ⟨a, hin, ha, htime, fun hgrant e he heq =>
    hgrants hgrant e he (heq.trans htime.symm), fun hall => ?_⟩
  exact hall a hin htime

end Contest

end ContentOrchestrator.Lib
