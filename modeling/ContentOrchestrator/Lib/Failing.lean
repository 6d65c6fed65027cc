import ContentOrchestrator.Lib.Session

/-! # Programs that raise

`Fails` forgets what is raised and where: one raise, however deep, makes the whole
transaction roll back. Its rules follow the program text. -/

namespace ContentOrchestrator.Lib

variable {ε σ α β : Type}

/-- The program raises. -/
def Fails (x : EStateM ε σ α) (s : σ) : Prop := ∃ e t, Raises x s e t

section Rules

variable {x : EStateM ε σ α} {f : α → EStateM ε σ β} {s t : σ} {a : α} {e : ε}

@[simp] theorem fails_pure : ¬ Fails (pure a : EStateM ε σ α) s := by
  simp [Fails]

@[simp] theorem fails_get : ¬ Fails (get : EStateM ε σ σ) s := by
  simp [Fails]

@[simp] theorem fails_modify {g : σ → σ} : ¬ Fails (modify g : EStateM ε σ PUnit) s := by
  simp [Fails]

@[simp] theorem fails_throw : Fails (throw e : EStateM ε σ α) s := by
  simp [Fails]

@[simp] theorem fails_bind :
    Fails (x >>= f) s ↔ Fails x s ∨ ∃ a t, Returns x s a t ∧ Fails (f a) t := by
  constructor
  · rintro ⟨e, u, h⟩
    rcases raises_bind.mp h with h | ⟨a, t, hx, h⟩
    · exact .inl ⟨e, u, h⟩
    · exact .inr ⟨a, t, hx, e, u, h⟩
  · rintro (⟨e, u, h⟩ | ⟨a, t, hx, e, u, h⟩)
    · exact ⟨e, u, raises_bind.mpr (.inl h)⟩
    · exact ⟨e, u, raises_bind.mpr (.inr ⟨a, t, hx, h⟩)⟩

@[simp] theorem fails_map {g : α → β} : Fails (g <$> x) s ↔ Fails x s := by
  simp [Fails]

/-- What returns has raised nothing. -/
theorem Returns.not_fails (h : Returns x s a t) : ¬ Fails x s := by
  rintro ⟨e, u, hraises⟩
  have hboth := h.symm.trans hraises
  cases hboth

/-- After a statement that returns, only the rest can raise. -/
theorem Returns.fails_bind (h : Returns x s a t) : Fails (x >>= f) s ↔ Fails (f a) t := by
  rw [Lib.fails_bind]
  constructor
  · rintro (hfails | ⟨b, u, hx, hfails⟩)
    · exact (h.not_fails hfails).elim
    · obtain ⟨rfl, rfl⟩ := h.unique hx
      exact hfails
  · exact fun hfails => .inr ⟨a, t, h, hfails⟩

theorem commits_eq_true : commits x s = true ↔ ¬ Fails x s := by
  unfold commits Fails Raises
  cases x.run s with
  | ok a t => simp
  | error e t => simp

theorem commits_eq_false : commits x s = false ↔ Fails x s := by
  rw [← Bool.not_eq_true, commits_eq_true, Classical.not_not]

/-- A transaction that fails changes nothing. -/
theorem Fails.atomically (h : Fails x s) : Lib.atomically x s = s := by
  obtain ⟨e, t, hraises⟩ := h
  unfold Lib.atomically
  rw [show x.run s = .error e t from hraises]

/-- A first statement that only reads can be left out. -/
theorem Returns.atomically_bind (h : Returns x s a s) :
    Lib.atomically (x >>= f) s = Lib.atomically (f a) s := by
  rcases atomically_cases (f a) s with ⟨b, hreturns⟩ | ⟨⟨e, t, hraises⟩, hundone⟩
  · exact (returns_bind.mpr ⟨a, s, h, hreturns⟩).atomically
  · rw [hundone]
    exact Fails.atomically ⟨e, t, raises_bind.mpr (.inr ⟨a, s, h, hraises⟩)⟩

end Rules

end ContentOrchestrator.Lib
