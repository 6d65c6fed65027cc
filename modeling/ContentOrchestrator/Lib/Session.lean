/-! # Programs that run inside one database transaction

A transaction body is a state program that may raise. A raised error keeps the
state reached so far: a caller that catches it goes on from there, and only the
transaction boundary (`atomically`) rolls back. `Returns` and `Raises` describe
the two exits, `Leaves` either of them, and the inversion rules take a program
apart at its binds. -/

namespace ContentOrchestrator.Lib

variable {ε σ α β : Type}

/-- The program ends normally, with this value and state. -/
def Returns (x : EStateM ε σ α) (s : σ) (a : α) (t : σ) : Prop := x.run s = .ok a t

/-- The program raises; the state keeps what ran before the raise. -/
def Raises (x : EStateM ε σ α) (s : σ) (e : ε) (t : σ) : Prop := x.run s = .error e t

/-- The state a program leaves behind, whichever way it ends. -/
def Leaves (x : EStateM ε σ α) (s t : σ) : Prop :=
  (∃ a, Returns x s a t) ∨ ∃ e, Raises x s e t

/-- The transaction boundary: commit a normal exit, roll back a raise. -/
def atomically (x : EStateM ε σ α) (s : σ) : σ :=
  match x.run s with
  | .ok _ t => t
  | .error _ _ => s

@[simp] theorem returns_pure {a b : α} {s t : σ} :
    Returns (pure a : EStateM ε σ α) s b t ↔ a = b ∧ s = t := by
  constructor
  · intro h; cases h; exact ⟨rfl, rfl⟩
  · rintro ⟨rfl, rfl⟩; rfl

@[simp] theorem raises_pure {a : α} {s t : σ} {e : ε} :
    ¬ Raises (pure a : EStateM ε σ α) s e t := by
  intro h; cases h

@[simp] theorem returns_bind {x : EStateM ε σ α} {f : α → EStateM ε σ β} {s u : σ} {b : β} :
    Returns (x >>= f) s b u ↔ ∃ a t, Returns x s a t ∧ Returns (f a) t b u := by
  have hrun : (x >>= f).run s = (match x.run s with
      | .ok a t => (f a).run t
      | .error e t => .error e t) := rfl
  unfold Returns
  rw [hrun]
  cases x.run s with
  | ok a t =>
    constructor
    · exact fun h => ⟨a, t, rfl, h⟩
    · rintro ⟨_, _, hx, h⟩; cases hx; exact h
  | error e t =>
    constructor
    · intro h; cases h
    · rintro ⟨_, _, hx, _⟩; cases hx

@[simp] theorem raises_bind {x : EStateM ε σ α} {f : α → EStateM ε σ β} {s u : σ} {e : ε} :
    Raises (x >>= f) s e u ↔ Raises x s e u ∨ ∃ a t, Returns x s a t ∧ Raises (f a) t e u := by
  have hrun : (x >>= f).run s = (match x.run s with
      | .ok a t => (f a).run t
      | .error e t => .error e t) := rfl
  unfold Raises Returns
  rw [hrun]
  cases x.run s with
  | ok a t =>
    constructor
    · exact fun h => .inr ⟨a, t, rfl, h⟩
    · rintro (h | ⟨_, _, hx, h⟩)
      · cases h
      · cases hx; exact h
  | error e' t =>
    constructor
    · intro h; cases h; exact .inl rfl
    · rintro (h | ⟨_, _, hx, _⟩)
      · cases h; rfl
      · cases hx

@[simp] theorem returns_map {x : EStateM ε σ α} {f : α → β} {s t : σ} {b : β} :
    Returns (f <$> x) s b t ↔ ∃ a, Returns x s a t ∧ f a = b := by
  rw [map_eq_pure_bind, returns_bind]
  simp only [returns_pure]
  constructor
  · rintro ⟨a, _, hx, hf, rfl⟩
    exact ⟨a, hx, hf⟩
  · rintro ⟨a, hx, hf⟩
    exact ⟨a, t, hx, hf, rfl⟩

@[simp] theorem raises_map {x : EStateM ε σ α} {f : α → β} {s t : σ} {e : ε} :
    Raises (f <$> x) s e t ↔ Raises x s e t := by
  rw [map_eq_pure_bind, raises_bind]
  simp

@[simp] theorem returns_get {s t a : σ} :
    Returns (get : EStateM ε σ σ) s a t ↔ s = a ∧ s = t := by
  constructor
  · intro h; cases h; exact ⟨rfl, rfl⟩
  · rintro ⟨rfl, rfl⟩; rfl

@[simp] theorem raises_get {s t : σ} {e : ε} : ¬ Raises (get : EStateM ε σ σ) s e t := by
  intro h; cases h

@[simp] theorem returns_modify {f : σ → σ} {s t : σ} {u : PUnit} :
    Returns (modify f : EStateM ε σ PUnit) s u t ↔ f s = t := by
  constructor
  · intro h; cases h; rfl
  · rintro rfl; rfl

@[simp] theorem raises_modify {f : σ → σ} {s t : σ} {e : ε} :
    ¬ Raises (modify f : EStateM ε σ PUnit) s e t := by
  intro h; cases h

@[simp] theorem returns_throw {e : ε} {s t : σ} {a : α} :
    ¬ Returns (throw e : EStateM ε σ α) s a t := by
  intro h; cases h

@[simp] theorem raises_throw {e e' : ε} {s t : σ} :
    Raises (throw e : EStateM ε σ α) s e' t ↔ e = e' ∧ s = t := by
  constructor
  · intro h; cases h; exact ⟨rfl, rfl⟩
  · rintro ⟨rfl, rfl⟩; rfl

theorem run_tryCatch {x : EStateM ε σ α} {handle : ε → EStateM ε σ α} {s : σ} :
    (tryCatch x handle).run s = (match x.run s with
      | .ok a t => .ok a t
      | .error e t => (handle e).run t) := by
  change (EStateM.tryCatch x handle) s = _
  unfold EStateM.tryCatch
  cases hx : x s with
  | ok a t => simp only [EStateM.run, hx]
  | error e t =>
    simp only [EStateM.run, hx]
    rfl

/-- A caught error leaves its partial changes in place. -/
theorem returns_tryCatch {x : EStateM ε σ α} {handle : ε → EStateM ε σ α} {s t : σ} {a : α} :
    Returns (tryCatch x handle) s a t ↔
      Returns x s a t ∨ ∃ e u, Raises x s e u ∧ Returns (handle e) u a t := by
  unfold Returns Raises
  rw [run_tryCatch]
  cases x.run s with
  | ok b u =>
    constructor
    · exact fun h => .inl h
    · rintro (h | ⟨e, v, hx, _⟩)
      · exact h
      · cases hx
  | error e u =>
    constructor
    · exact fun h => .inr ⟨e, u, rfl, h⟩
    · rintro (h | ⟨e', v, hx, h⟩)
      · cases h
      · cases hx; exact h

theorem raises_tryCatch {x : EStateM ε σ α} {handle : ε → EStateM ε σ α} {s t : σ} {e : ε} :
    Raises (tryCatch x handle) s e t ↔ ∃ e' u, Raises x s e' u ∧ Raises (handle e') u e t := by
  unfold Raises
  rw [run_tryCatch]
  cases x.run s with
  | ok b u =>
    constructor
    · intro h; cases h
    · rintro ⟨_, _, hx, _⟩; cases hx
  | error e' u =>
    constructor
    · exact fun h => ⟨e', u, rfl, h⟩
    · rintro ⟨_, _, hx, h⟩; cases hx; exact h

/-- Both exits of a program are functions of the start state. -/
theorem Returns.unique {x : EStateM ε σ α} {s t u : σ} {a b : α}
    (h : Returns x s a t) (h' : Returns x s b u) : a = b ∧ t = u := by
  have := h.symm.trans h'
  cases this
  exact ⟨rfl, rfl⟩

/-- A transaction commits the state of a normal exit, or changes nothing. -/
theorem atomically_cases (x : EStateM ε σ α) (s : σ) :
    (∃ a, Returns x s a (atomically x s)) ∨ ((∃ e t, Raises x s e t) ∧ atomically x s = s) := by
  unfold Returns Raises atomically
  cases x.run s with
  | ok a t => exact .inl ⟨a, rfl⟩
  | error e t => exact .inr ⟨⟨e, t, rfl⟩, rfl⟩

theorem Returns.atomically {x : EStateM ε σ α} {s t : σ} {a : α} (h : Returns x s a t) :
    Lib.atomically x s = t := by
  unfold Lib.atomically
  rw [show x.run s = .ok a t from h]

/-- The transaction commits. -/
def commits (x : EStateM ε σ α) (s : σ) : Bool :=
  match x.run s with
  | .ok _ _ => true
  | .error _ _ => false

theorem returns_of_commits {x : EStateM ε σ Unit} {s : σ} (h : commits x s = true) :
    Returns x s () (atomically x s) := by
  unfold commits at h
  unfold Returns atomically
  cases hrun : x.run s with
  | ok u t => rfl
  | error e t =>
    rw [hrun] at h
    cases h

/-! ## A program over one component of a larger state -/

/-- Run a program on a component of the state; the rest is left as it is. -/
def within {τ : Type} (get : σ → τ) (set : τ → σ → σ) (x : EStateM ε τ α) : EStateM ε σ α :=
  fun s =>
  match x.run (get s) with
  | .ok a u => .ok a (set u s)
  | .error e u => .error e (set u s)

@[simp] theorem returns_within {τ : Type} {get : σ → τ} {set : τ → σ → σ} {x : EStateM ε τ α}
    {s t : σ} {a : α} :
    Returns (within get set x) s a t ↔ ∃ u, Returns x (get s) a u ∧ set u s = t := by
  have hrun : (within get set x).run s = (match x.run (get s) with
      | .ok a u => .ok a (set u s)
      | .error e u => .error e (set u s)) := rfl
  unfold Returns
  rw [hrun]
  cases x.run (get s) with
  | ok b u =>
    constructor
    · intro h
      cases h
      exact ⟨u, rfl, rfl⟩
    · rintro ⟨_, hx, rfl⟩
      cases hx
      rfl
  | error e u =>
    constructor
    · intro h
      cases h
    · rintro ⟨_, hx, _⟩
      cases hx

/-- The program with its errors translated. -/
def adapt {δ : Type} (f : ε → δ) (x : EStateM ε σ α) : EStateM δ σ α := fun s =>
  match x.run s with
  | .ok a t => .ok a t
  | .error e t => .error (f e) t

@[simp] theorem returns_adapt {δ : Type} {f : ε → δ} {x : EStateM ε σ α} {s t : σ} {a : α} :
    Returns (adapt f x) s a t ↔ Returns x s a t := by
  have hrun : (adapt f x).run s = (match x.run s with
      | .ok a t => .ok a t
      | .error e t => .error (f e) t) := rfl
  unfold Returns
  rw [hrun]
  cases x.run s with
  | ok b u =>
    constructor
    · intro h
      cases h
      rfl
    · intro h
      cases h
      rfl
  | error e u =>
    constructor
    · intro h
      cases h
    · intro h
      cases h

/-! ## Frame rule -/

/-- Whatever its exit, the program relates its start state to the state it leaves. -/
def Keeps (p : σ → σ → Prop) (x : EStateM ε σ α) : Prop := ∀ s t, Leaves x s t → p s t

section

variable {p : σ → σ → Prop}

theorem keeps_pure (hrefl : ∀ s, p s s) (a : α) : Keeps p (pure a : EStateM ε σ α) := by
  rintro s t (⟨b, h⟩ | ⟨e, h⟩)
  · obtain ⟨-, rfl⟩ := returns_pure.mp h
    exact hrefl s
  · exact absurd h raises_pure

theorem keeps_get (hrefl : ∀ s, p s s) : Keeps p (get : EStateM ε σ σ) := by
  rintro s t (⟨b, h⟩ | ⟨e, h⟩)
  · obtain ⟨-, rfl⟩ := returns_get.mp h
    exact hrefl s
  · exact absurd h raises_get

theorem keeps_throw (hrefl : ∀ s, p s s) (e : ε) : Keeps p (throw e : EStateM ε σ α) := by
  rintro s t (⟨b, h⟩ | ⟨e', h⟩)
  · exact absurd h returns_throw
  · obtain ⟨-, rfl⟩ := raises_throw.mp h
    exact hrefl s

theorem keeps_modify {f : σ → σ} (hf : ∀ s, p s (f s)) :
    Keeps p (modify f : EStateM ε σ PUnit) := by
  rintro s t (⟨b, h⟩ | ⟨e, h⟩)
  · obtain rfl := returns_modify.mp h
    exact hf s
  · exact absurd h raises_modify

/-- A statement and its continuation keep what each keeps, for a transitive relation. -/
theorem Keeps.bind (htrans : ∀ s t u, p s t → p t u → p s u) {x : EStateM ε σ α}
    {f : α → EStateM ε σ β} (hx : Keeps p x) (hf : ∀ a, Keeps p (f a)) : Keeps p (x >>= f) := by
  rintro s u (⟨b, h⟩ | ⟨e, h⟩)
  · obtain ⟨a, t, h1, h2⟩ := returns_bind.mp h
    exact htrans _ _ _ (hx s t (.inl ⟨a, h1⟩)) (hf a t u (.inl ⟨b, h2⟩))
  · rcases raises_bind.mp h with h | ⟨a, t, h1, h2⟩
    · exact hx s u (.inr ⟨e, h⟩)
    · exact htrans _ _ _ (hx s t (.inl ⟨a, h1⟩)) (hf a t u (.inr ⟨e, h2⟩))

/-- What was changed before a caught error is kept too. -/
theorem keeps_tryCatch (htrans : ∀ s t u, p s t → p t u → p s u) {x : EStateM ε σ α}
    {handle : ε → EStateM ε σ α} (hx : Keeps p x) (hhandle : ∀ e, Keeps p (handle e)) :
    Keeps p (tryCatch x handle) := by
  rintro s u (⟨a, h⟩ | ⟨e, h⟩)
  · rcases returns_tryCatch.mp h with h | ⟨e, t, h1, h2⟩
    · exact hx s u (.inl ⟨a, h⟩)
    · exact htrans _ _ _ (hx s t (.inr ⟨e, h1⟩)) (hhandle e t u (.inl ⟨a, h2⟩))
  · obtain ⟨e', t, h1, h2⟩ := raises_tryCatch.mp h
    exact htrans _ _ _ (hx s t (.inr ⟨e', h1⟩)) (hhandle e' t u (.inr ⟨e, h2⟩))

end

end ContentOrchestrator.Lib
