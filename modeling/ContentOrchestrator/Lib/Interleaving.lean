import ContentOrchestrator.Lib.Table
import ContentOrchestrator.Lib.Transition

/-! # Transactions side by side

Transactions run statement by statement, in any order, over one committed store. A
statement sees what is committed at its moment and which locks the others hold; the
store changes when a transaction commits, and not before. `Outline` is the proof rule:
an invariant of the store, and an assertion about every running transaction that its
own statements establish and no other commit disturbs. That two transactions never hold
one lock is proved here, once, and is at hand in every obligation of the rule. -/

namespace ContentOrchestrator.Lib

variable {σ κ τ ρ ε : Type}

/-- A running transaction: what it holds locked, and how far it is. -/
structure Tx (κ τ : Type) where
  id : Nat
  held : List κ := []
  locals : τ

instance : Keyed (Tx κ τ) := ⟨(·.id)⟩

structure World (σ κ τ : Type) where
  store : σ
  running : Table (Tx κ τ) := ∅

/-- The transactions of a system, by their local states, and what else changes the store. -/
structure Code (σ κ τ ρ ε : Type) where
  /-- A request comes in. -/
  start : ρ → τ
  /-- The next statement, over the committed store and the locks of the others: the locks held after
  it and the new local state, or `none` if there is none. It waits until the locks it adds are
  free. -/
  next : σ → (κ → Bool) → List κ → τ → Option (List κ × τ)
  /-- What the commit makes of the store; `none` while there are statements left. -/
  commit : τ → Option (σ → σ)
  /-- The locks a transaction of one moment takes. -/
  needs : ε → σ → List κ
  apply : ε → σ → σ

inductive Action (ρ ε : Type)
  | start (request : ρ)
  | run (id : Nat)
  | commit (id : Nat)
  /-- The transaction is rolled back as a whole, by its own error or by the server. -/
  | abort (id : Nat)
  | other (event : ε)

def Tx.become (held : List κ) (locals : τ) : Update (Tx κ τ) :=
  ⟨fun x => { x with held, locals }, fun _ => rfl⟩

theorem mem_modify_become {t : Table (Tx κ τ)} {x y : Tx κ τ} {held : List κ} {locals : τ}
    (h : y ∈ t.modify x.id (Tx.become held locals)) :
    (y.id = x.id ∧ y.held = held ∧ y.locals = locals) ∨ (y ∈ t ∧ y.id ≠ x.id) := by
  obtain ⟨z, hz, rfl⟩ := Table.mem_modify.mp h
  by_cases hid : Keyed.key z = x.id
  · rw [if_pos hid]
    exact .inl ⟨hid, rfl, rfl⟩
  · rw [if_neg hid]
    exact .inr ⟨hz, hid⟩

theorem mem_without {t : Table (Tx κ τ)} {id : Nat} {y : Tx κ τ}
    (h : y ∈ t.deleteWhere (·.id == id)) :
    y ∈ t ∧ y.id ≠ id := by
  obtain ⟨hy, hid⟩ := Table.mem_deleteWhere.mp h
  exact ⟨hy, by simpa using hid⟩

section

variable [DecidableEq κ]

/-- Another transaction holds the lock. -/
def World.taken (w : World σ κ τ) (id : Nat) (k : κ) : Bool :=
  w.running.rows.any fun x => x.id != id && decide (k ∈ x.held)

/-- No transaction holds any of these. -/
def World.free (w : World σ κ τ) (locks : List κ) : Bool :=
  w.running.rows.all fun x => locks.all fun k => !decide (k ∈ x.held)

namespace Code

variable (c : Code σ κ τ ρ ε)

def step (w : World σ κ τ) : Action ρ ε → World σ κ τ
  | .start request =>
    { w with
      running := w.running.insert ⟨fun id => { id, locals := c.start request }, fun _ => rfl⟩ }
  | .run id =>
    match w.running.get? id with
    | none => w
    | some x =>
      match c.next w.store (w.taken id) x.held x.locals with
      | none => w
      | some (held, locals) =>
        if held.all fun k => decide (k ∈ x.held) || !w.taken id k then
          { w with running := w.running.modify id (Tx.become held locals) }
        else w
  | .commit id =>
    match (w.running.get? id).bind fun x => c.commit x.locals with
    | none => w
    | some u => { store := u w.store, running := w.running.deleteWhere (·.id == id) }
  | .abort id => { w with running := w.running.deleteWhere (·.id == id) }
  | .other event => if w.free (c.needs event w.store) then { w with store := c.apply event w.store }
      else w

def Steps (w : World σ κ τ) (a : Action ρ ε) (w' : World σ κ τ) : Prop := c.step w a = w'

/-- **What one step can do.** -/
inductive Effect (w : World σ κ τ) : Action ρ ε → World σ κ τ → Prop
  | started (request : ρ) : Effect w (.start request)
      { w with
        running := w.running.insert ⟨fun id => { id, locals := c.start request }, fun _ => rfl⟩ }
  | ran (x : Tx κ τ) (found : w.running.get? x.id = some x) {held : List κ} {locals : τ}
      (next : c.next w.store (w.taken x.id) x.held x.locals = some (held, locals))
      (free : ∀ k ∈ held, k ∈ x.held ∨ w.taken x.id k = false) :
      Effect w (.run x.id) { w with running := w.running.modify x.id (Tx.become held locals) }
  | committed (x : Tx κ τ) (found : w.running.get? x.id = some x) {u : σ → σ}
      (commit : c.commit x.locals = some u) :
      Effect w (.commit x.id)
        { store := u w.store, running := w.running.deleteWhere (·.id == x.id) }
  | aborted (id : Nat) : Effect w (.abort id)
      { w with running := w.running.deleteWhere (·.id == id) }
  | happened (event : ε) (free : w.free (c.needs event w.store) = true) :
      Effect w (.other event) { w with store := c.apply event w.store }

theorem step_cases (w : World σ κ τ) (a : Action ρ ε) :
    c.step w a = w ∨ c.Effect w a (c.step w a) := by
  cases a with
  | start request => exact .inr (.started request)
  | run id =>
    rcases hfound : w.running.get? id with _ | x
    · exact .inl (by simp [step, hfound])
    rcases hnext : c.next w.store (w.taken id) x.held x.locals with _ | ⟨held, locals⟩
    · exact .inl (by simp [step, hfound, hnext])
    have hid : x.id = id := (Table.get?_eq_some.mp hfound).2
    subst hid
    by_cases hfree : (held.all fun k => decide (k ∈ x.held) || !w.taken x.id k) = true
    · have hstep : c.step w (.run x.id) =
          { w with running := w.running.modify x.id (Tx.become held locals) } := by
        simp only [step, hfound, hnext, if_pos hfree]
      exact .inr (hstep ▸ .ran x hfound hnext
        fun k hk => by simpa using List.all_eq_true.mp hfree k hk)
    · exact .inl (by simp only [step, hfound, hnext, if_neg hfree])
  | commit id =>
    rcases hfound : w.running.get? id with _ | x
    · exact .inl (by simp [step, hfound])
    rcases hcommit : c.commit x.locals with _ | u
    · exact .inl (by simp [step, hfound, hcommit])
    have hid : x.id = id := (Table.get?_eq_some.mp hfound).2
    subst hid
    have hstep : c.step w (.commit x.id) =
        { store := u w.store, running := w.running.deleteWhere (·.id == x.id) } := by
      simp only [step, hfound, Option.bind_some, hcommit]
    exact .inr (hstep ▸ .committed x hfound hcommit)
  | abort id => exact .inr (.aborted id)
  | other event =>
    by_cases hfree : w.free (c.needs event w.store) = true
    · have hstep : c.step w (.other event) = { w with store := c.apply event w.store } :=
        if_pos hfree
      exact .inr (hstep ▸ .happened event hfree)
    · exact .inl (if_neg hfree)

end Code

/-! ## Locks -/

/-- No lock is held twice. -/
def World.Exclusive (w : World σ κ τ) : Prop :=
  ∀ x ∈ w.running, ∀ y ∈ w.running, x.id ≠ y.id → ∀ k ∈ x.held, k ∉ y.held

theorem World.taken_eq_false {w : World σ κ τ} {id : Nat} {k : κ} :
    w.taken id k = false ↔ ∀ x ∈ w.running, x.id ≠ id → k ∉ x.held := by
  simp only [World.taken, List.any_eq_false, Bool.and_eq_true, bne_iff_ne, decide_eq_true_eq,
    not_and]
  exact Iff.rfl

theorem World.free_iff {w : World σ κ τ} {locks : List κ} :
    w.free locks = true ↔ ∀ x ∈ w.running, ∀ k ∈ locks, k ∉ x.held := by
  simp only [World.free, List.all_eq_true, Bool.not_eq_true', decide_eq_false_iff_not]
  exact Iff.rfl

/-- **Locks stay exclusive**: a statement takes what no other transaction holds. -/
theorem Code.Effect.exclusive {c : Code σ κ τ ρ ε} {w w' : World σ κ τ} {a : Action ρ ε}
    (h : c.Effect w a w') (hexclusive : w.Exclusive) : w'.Exclusive := by
  cases h with
  | started request =>
    intro x hx y hy hne k hk hk'
    rcases Table.mem_insert.mp hx with hx | rfl
    · rcases Table.mem_insert.mp hy with hy | rfl
      · exact hexclusive x hx y hy hne k hk hk'
      · cases hk'
    · cases hk
  | @ran x found held locals next free =>
    -- what the transaction holds now it held before, or nobody else did
    have hnew : ∀ y ∈ w.running, y.id ≠ x.id → ∀ k ∈ y.held, k ∉ held := by
      intro y hy hne k hk hk'
      rcases free k hk' with hold | hfree
      · exact hexclusive x (Table.get?_eq_some.mp found).1 y hy (Ne.symm hne) k hold hk
      · exact World.taken_eq_false.mp hfree y hy hne hk
    intro y hy z hz hne k hk hk'
    rcases mem_modify_become hy with ⟨hyid, hyheld, _⟩ | ⟨hy, hyid⟩
    · rcases mem_modify_become hz with ⟨hzid, _, _⟩ | ⟨hz, hzid⟩
      · exact hne (hyid.trans hzid.symm)
      · exact hnew z hz hzid k hk' (hyheld ▸ hk)
    · rcases mem_modify_become hz with ⟨_, hzheld, _⟩ | ⟨hz, _⟩
      · exact hnew y hy hyid k hk (hzheld ▸ hk')
      · exact hexclusive y hy z hz hne k hk hk'
  | committed x _ _ =>
    intro y hy z hz
    exact hexclusive y (mem_without hy).1 z (mem_without hz).1
  | aborted id =>
    intro y hy z hz
    exact hexclusive y (mem_without hy).1 z (mem_without hz).1
  | happened _ _ => exact hexclusive

/-! ## The proof rule -/

/-- The invariant holds of the store, and its assertion of every running transaction. -/
structure World.Holds (I : σ → Prop) (A : σ → List κ → τ → Prop) (w : World σ κ τ) : Prop where
  store : I w.store
  running : ∀ x ∈ w.running, A w.store x.held x.locals
  exclusive : w.Exclusive

/-- What has to be shown of the code, for steps that meet the condition `ok`. -/
structure Outline (c : Code σ κ τ ρ ε) (ok : World σ κ τ → Action ρ ε → Prop) (I : σ → Prop)
    (A : σ → List κ → τ → Prop) : Prop where
  starts : ∀ {w : World σ κ τ} {request : ρ}, w.Holds I A → ok w (.start request) →
    A w.store [] (c.start request)
  runs : ∀ {w : World σ κ τ} {x : Tx κ τ} {held : List κ} {locals : τ}, w.Holds I A →
    x ∈ w.running →
    ok w (.run x.id) → c.next w.store (w.taken x.id) x.held x.locals = some (held, locals) →
    (∀ k ∈ held, k ∈ x.held ∨ w.taken x.id k = false) → A w.store held locals
  commits : ∀ {w : World σ κ τ} {x : Tx κ τ} {u : σ → σ}, w.Holds I A → x ∈ w.running →
    ok w (.commit x.id) → c.commit x.locals = some u →
      I (u w.store) ∧ ∀ y ∈ w.running, y.id ≠ x.id → A (u w.store) y.held y.locals
  others : ∀ {w : World σ κ τ} {event : ε}, w.Holds I A → ok w (.other event) →
    (∀ x ∈ w.running, ∀ k ∈ c.needs event w.store, k ∉ x.held) →
      I (c.apply event w.store) ∧ ∀ y ∈ w.running, A (c.apply event w.store) y.held y.locals

variable {c : Code σ κ τ ρ ε} {ok : World σ κ τ → Action ρ ε → Prop} {I : σ → Prop}
  {A : σ → List κ → τ → Prop}

theorem Outline.step (h : Outline c ok I A) {w : World σ κ τ} (hw : w.Holds I A) {a : Action ρ ε}
    (hok : ok w a) : (c.step w a).Holds I A := by
  rcases c.step_cases w a with heq | heffect
  · rw [heq]
    exact hw
  · have hexclusive := heffect.exclusive hw.exclusive
    generalize c.step w a = w' at heffect hexclusive
    cases heffect with
    | started request =>
      refine ⟨hw.store, fun y hy => ?_, hexclusive⟩
      rcases Table.mem_insert.mp hy with hy | rfl
      · exact hw.running y hy
      · have hstart : A w.store [] (c.start request) := h.starts hw hok
        exact hstart
    | @ran x found held locals next free =>
      have hafter : A w.store held locals := h.runs hw (Table.get?_eq_some.mp found).1 hok next free
      refine ⟨hw.store, fun y hy => ?_, hexclusive⟩
      rcases mem_modify_become hy with ⟨_, hheld, hlocals⟩ | ⟨hy, _⟩
      · rw [hheld, hlocals]
        exact hafter
      · exact hw.running y hy
    | committed x found commit =>
      obtain ⟨hstore, hothers⟩ := h.commits hw (Table.get?_eq_some.mp found).1 hok commit
      refine ⟨hstore, fun y hy => ?_, hexclusive⟩
      obtain ⟨hy, hne⟩ := mem_without hy
      exact hothers y hy hne
    | aborted id => exact ⟨hw.store, fun y hy => hw.running y (mem_without hy).1, hexclusive⟩
    | happened event free =>
      obtain ⟨hstore, hrunning⟩ := h.others hw hok (World.free_iff.mp free)
      exact ⟨hstore, hrunning, hexclusive⟩

/-- **The rule.** What the outline shows of the code holds in every state of every interleaving. -/
theorem Outline.sound (h : Outline c ok I A) {w w' : World σ κ τ} (hw : w.Holds I A)
    (hreach : Reach c.Steps ok w w') : w'.Holds I A := by
  refine hreach.invariant hw fun v a v' hbefore hok htaken => ?_
  have hstep : c.step v a = v' := htaken
  rw [← hstep]
  exact h.step hbefore hok

end

/-- Before any transaction only the store counts. -/
theorem World.Holds.idle {I : σ → Prop} {A : σ → List κ → τ → Prop} {s : σ} (h : I s) :
    World.Holds I A ({ store := s } : World σ κ τ) :=
  ⟨h, fun _ hx => absurd hx Table.mem_empty, fun _ hx => absurd hx Table.mem_empty⟩

end ContentOrchestrator.Lib
