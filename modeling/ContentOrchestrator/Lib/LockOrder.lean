import ContentOrchestrator.Lib.Interleaving
import Mathlib.Logic.Relation

/-! # Lock programs and lock orders

A transaction is reduced to what it asks for: locks it waits for, locks it takes only if
they are free, and locks it gives back with a savepoint. A lock order says which lock
comes before which; a lock with a guard is only ever held together with its guard, so
nobody waits for it. Where whoever waits, waits for a lock after all those it holds,
the waits-for relation has no cycle. -/

namespace ContentOrchestrator.Lib

variable {κ ρ α : Type}

inductive LockProgram (κ : Type)
  | done
  /-- Waits until the lock is free. -/
  | lock (k : κ) (rest : LockProgram κ)
  /-- Goes on in one way if the lock is free, and in another if it is not. -/
  | tryLock (k : κ) (locked passed : LockProgram κ)
  /-- A savepoint is rolled back. -/
  | release (ks : List κ) (rest : LockProgram κ)

namespace LockProgram

def andThen : LockProgram κ → LockProgram κ → LockProgram κ
  | done, q => q
  | lock k rest, q => lock k (rest.andThen q)
  | tryLock k locked passed, q => tryLock k (locked.andThen q) (passed.andThen q)
  | release ks rest, q => release ks (rest.andThen q)

instance : Append (LockProgram κ) := ⟨andThen⟩

/-- One lock. -/
def acquire (k : κ) : LockProgram κ := lock k done

/-- The same for one after the other. -/
def each (xs : List α) (p : α → LockProgram κ) : LockProgram κ :=
  xs.foldr (fun x rest => p x ++ rest) done

/-- Those that are free are locked, and the program goes on with them. -/
def select (lockOf : α → κ) : List α → (List α → LockProgram κ) → LockProgram κ
  | [], p => p []
  | x :: xs, p =>
    tryLock (lockOf x) (select lockOf xs fun found => p (x :: found)) (select lockOf xs p)

/-- The first that is free is locked. -/
def selectFirst (lockOf : α → κ) (p : Option α → LockProgram κ) : List α → LockProgram κ
  | [] => p none
  | x :: xs => tryLock (lockOf x) (p (some x)) (selectFirst lockOf p xs)

end LockProgram

/-- Which lock comes before which, and which are only held under another. -/
structure LockOrder (κ : Type) where
  below : κ → κ → Bool
  irrefl : ∀ k, below k k = false
  trans : ∀ {a b c}, below a b = true → below b c = true → below a c = true
  guard : κ → Option κ

namespace LockOrder

variable (o : LockOrder κ)

/-- The lock comes after all those held. -/
def ascends (held : List κ) (k : κ) : Bool := held.all fun h => (o.guard h).isSome || o.below h k

/-- The lock is asked for under its guard. -/
def Guarded (held : List κ) (k : κ) : Prop := ∀ g, o.guard k = some g → g ∈ held

/-- What is held is held under its guards. -/
def Closed (held : List κ) : Prop := ∀ k ∈ held, o.Guarded held k

/-- The lock is asked for in order. -/
def Ascending (held : List κ) (k : κ) : Prop :=
  o.Guarded held k ∧ (k ∈ held ∨ (o.guard k).isSome = true ∨ o.ascends held k = true)

end LockOrder

section

variable [DecidableEq κ]

def hold (k : κ) (held : List κ) : List κ := if k ∈ held then held else k :: held

theorem mem_hold {k h : κ} {held : List κ} : h ∈ hold k held ↔ h = k ∨ h ∈ held := by
  unfold hold
  split
  · rename_i hmem
    constructor
    · exact .inr
    · intro hor
      rcases hor with rfl | hold
      · exact hmem
      · exact hold
  · exact List.mem_cons

namespace LockProgram

variable (o : LockOrder κ) (may : List κ → κ → Prop)

/-- Every lock of the program is waited for as it may be, and `Q` is true of what is held at its
end. -/
def Meets : LockProgram κ → List κ → (List κ → Prop) → Prop
  | done, held, Q => Q held
  | lock k rest, held, Q => may held k ∧ rest.Meets (hold k held) Q
  | tryLock k locked passed, held, Q =>
    o.Guarded held k ∧ locked.Meets (hold k held) Q ∧ passed.Meets held Q
  | release ks rest, held, Q =>
    (∀ g ∈ ks, ∀ k, o.guard k ≠ some g) ∧ rest.Meets (held.filter fun k => !decide (k ∈ ks)) Q

variable {o may}

theorem meets_append {p q : LockProgram κ} {held : List κ} {Q : List κ → Prop} :
    (p ++ q).Meets o may held Q ↔ p.Meets o may held fun held' => q.Meets o may held' Q := by
  show (p.andThen q).Meets o may held Q ↔ _
  induction p generalizing held with
  | done => exact Iff.rfl
  | lock k rest ih => exact and_congr_right fun _ => ih
  | tryLock k locked passed ihLocked ihPassed =>
    exact and_congr_right fun _ => and_congr ihLocked ihPassed
  | release ks rest ih => exact and_congr_right fun _ => ih

theorem Meets.imp {may' : List κ → κ → Prop} {p : LockProgram κ} {held : List κ}
    {Q Q' : List κ → Prop} (h : p.Meets o may held Q) (hmay : ∀ held k, may held k → may' held k)
    (hQ : ∀ held, Q held → Q' held) : p.Meets o may' held Q' := by
  induction p generalizing held with
  | done => exact hQ held h
  | lock k rest ih => exact ⟨hmay held k h.1, ih h.2⟩
  | tryLock k locked passed ihLocked ihPassed => exact ⟨h.1, ihLocked h.2.1, ihPassed h.2.2⟩
  | release ks rest ih => exact ⟨h.1, ih h.2⟩

/-- One thing after another. -/
theorem Meets.append {p q : LockProgram κ} {held : List κ}
    {P Q : List κ → Prop}
    (hp : p.Meets o may held P) (hq : ∀ held', P held' → q.Meets o may held' Q) :
      (p ++ q).Meets o may held Q :=
  meets_append.mpr (hp.imp (fun _ _ h => h) hq)

/-- **The loop rule.** -/
theorem Meets.each {xs : List α} {p : α → LockProgram κ} {I : List κ → Prop}
    (hp : ∀ x ∈ xs, ∀ held, I held → (p x).Meets o may held I) {held : List κ} (h : I held) :
    (each xs p).Meets o may held I := by
  induction xs generalizing held with
  | nil => exact h
  | cons x xs ih =>
    refine Meets.append (hp x List.mem_cons_self held h) fun held' hheld' => ?_
    exact ih (fun y hy => hp y (List.mem_cons_of_mem x hy)) hheld'

theorem Meets.select {lockOf : α → κ} {I Q : List κ → Prop}
    (hguard : ∀ x, o.guard (lockOf x) = none) (hI : ∀ x held, I held → I (hold (lockOf x) held)) :
    ∀ {xs : List α} {p : List α → LockProgram κ} {held : List κ}, I held →
      (∀ found held', I held' → (p found).Meets o may held' Q) →
        (select lockOf xs p).Meets o may held Q
  | [], p, held, h, hp => hp [] held h
  | x :: xs, p, held, h, hp => by
    have hunguarded : o.Guarded held (lockOf x) := by
      intro g hg
      rw [hguard x] at hg
      cases hg
    refine ⟨hunguarded, ?_, Meets.select hguard hI h hp⟩
    exact Meets.select hguard hI (hI x held h) fun found => hp (x :: found)

theorem Meets.selectFirst {lockOf : α → κ} {I Q : List κ → Prop}
    (hguard : ∀ x, o.guard (lockOf x) = none) (hI : ∀ x held, I held → I (hold (lockOf x) held))
    {p : Option α → LockProgram κ} (hp : ∀ found held', I held' → (p found).Meets o may held' Q) :
    ∀ {xs : List α} {held : List κ}, I held → (selectFirst lockOf p xs).Meets o may held Q
  | [], held, h => hp none held h
  | x :: xs, held, h => by
    have hunguarded : o.Guarded held (lockOf x) := by
      intro g hg
      rw [hguard x] at hg
      cases hg
    exact ⟨hunguarded, hp (some x) _ (hI x held h), Meets.selectFirst hguard hI hp h⟩

end LockProgram

/-! ## Running lock programs -/

/-- A running transaction: its request, what it still asks for, and whether it has asked and
waits. -/
structure Waiter (ρ κ : Type) where
  request : ρ
  rest : LockProgram κ
  waiting : Bool := false

def locking (program : ρ → LockProgram κ) : Code Unit κ (Waiter ρ κ) ρ Empty where
  start request := { request, rest := program request }
  next _ taken held x :=
    match x.rest with
    | .done => none
    | .lock k rest =>
      if decide (k ∈ held) || !taken k then some (hold k held, { x with rest, waiting := false })
      else if x.waiting then none
      else some (held, { x with waiting := true })
    | .tryLock k locked passed =>
      if decide (k ∈ held) || !taken k then some (hold k held, { x with rest := locked })
      else some (held, { x with rest := passed })
    | .release ks rest => some (held.filter fun k => !decide (k ∈ ks), { x with rest })
  commit x :=
    match x.rest with
    | .done => some fun s => s
    | _ => none
  needs := nofun
  apply := nofun

/-- The lock a waiting transaction has asked for. -/
def Waiter.wants (x : Waiter ρ κ) : Option κ :=
  match x.waiting, x.rest with
  | true, .lock k _ => some k
  | _, _ => none

/-- One transaction waits for a lock that the other holds. -/
def World.waitsFor (w : World Unit κ (Waiter ρ κ)) (i j : Nat) : Bool :=
  i != j && (w.running.get? i).any fun x => x.locals.wants.any fun k =>
    (w.running.get? j).any fun y => decide (k ∈ y.held)

/-- No transaction waits, through others, for itself. -/
def World.DeadlockFree (w : World Unit κ (Waiter ρ κ)) : Prop :=
  ∀ i, ¬ Relation.TransGen (fun i j => w.waitsFor i j = true) i i

variable (o : LockOrder κ) (trusted : ρ → Bool)

/-- The condition on a step: a lock asked for against the order is free, in the programs that are
not trusted. -/
def asksInOrder (w : World Unit κ (Waiter ρ κ)) : Action ρ Empty → Bool
  | .run id =>
    (w.running.get? id).all fun x =>
      match x.locals.rest with
      | .lock k _ => trusted x.locals.request || o.ascends x.held k || !w.taken id k
      | _ => true
  | _ => true

/-- What is known of a running transaction. -/
structure Waiter.Orderly (held : List κ) (x : Waiter ρ κ) : Prop where
  closed : o.Closed held
  guarded : x.rest.Meets o o.Guarded held fun _ => True
  ascending : trusted x.request = true → x.rest.Meets o o.Ascending held fun _ => True
  waits : x.waiting = true →
    ∃ k rest, x.rest = .lock k rest ∧ k ∉ held ∧ o.guard k = none ∧ o.ascends held k = true

variable {o trusted}

theorem LockOrder.Closed.hold {held : List κ} (h : o.Closed held) {k : κ}
    (hguarded : o.Guarded held k) :
    o.Closed (hold k held) := by
  intro k' hk' g hg
  rw [mem_hold] at hk' ⊢
  rcases hk' with rfl | hold
  · exact .inr (hguarded g hg)
  · exact .inr (h k' hold g hg)

theorem LockOrder.Closed.release {held ks : List κ} (h : o.Closed held)
    (hks : ∀ g ∈ ks, ∀ k, o.guard k ≠ some g) :
    o.Closed (held.filter fun k => !decide (k ∈ ks)) := by
  intro k hk g hg
  obtain ⟨hheld, _⟩ := List.mem_filter.mp hk
  refine List.mem_filter.mpr ⟨h k hheld g hg, ?_⟩
  have hkept : g ∉ ks := fun hmem => hks g hmem k hg
  simpa using hkept

/-- Nobody else holds a lock whose guard the transaction holds. -/
theorem free_of_guarded {w : World Unit κ (Waiter ρ κ)}
    (hw : w.Holds (fun _ => True) fun _ held x => x.Orderly o trusted held) {x : Tx κ (Waiter ρ κ)}
    (hx : x ∈ w.running) {k g : κ} (hguard : o.guard k = some g) (hheld : g ∈ x.held) :
    w.taken x.id k = false := by
  refine World.taken_eq_false.mpr fun y hy hne hk => ?_
  have hyguard : g ∈ y.held := (hw.running y hy).closed k hk g hguard
  exact hw.exclusive y hy x hx hne g hyguard hheld

theorem locking_outline {program : ρ → LockProgram κ}
    (hguarded : ∀ request, (program request).Meets o o.Guarded [] fun _ => True)
    (htrusted : ∀ request, trusted request = true →
    (program request).Meets o o.Ascending [] fun _ => True) :
    Outline (locking program) (fun w a => asksInOrder o trusted w a = true) (fun _ => True)
      fun _ held x => x.Orderly o trusted held where
  starts := by
    intro w request _ _
    exact ⟨fun _ hk => absurd hk List.not_mem_nil, hguarded request, htrusted request,
      fun h => by cases h⟩
  runs := by
    intro w x held locals hw hx hok hnext _
    obtain ⟨hclosed, hmeets, hascending, _⟩ := hw.running x hx
    have hfound : w.running.get? x.id = some x := Table.get?_of_mem hx
    simp only [asksInOrder, hfound, Option.all_some] at hok
    simp only [locking] at hnext
    cases hrest : x.locals.rest with
    | done =>
      rw [hrest] at hnext
      cases hnext
    | lock k rest =>
      rw [hrest] at hnext hok hmeets hascending
      by_cases hgranted : (decide (k ∈ x.held) || !w.taken x.id k) = true
      · simp only [if_pos hgranted] at hnext
        cases hnext
        exact ⟨hclosed.hold hmeets.1, hmeets.2, fun h => (hascending h).2, fun h => by cases h⟩
      · simp only [if_neg hgranted] at hnext
        split at hnext
        · cases hnext
        · cases hnext
          have hnot : k ∉ x.held ∧ w.taken x.id k = true := by simpa using hgranted
          have hunguarded : o.guard k = none := by
            cases hguard : o.guard k with
            | none => rfl
            | some g =>
              have hfree := free_of_guarded hw hx hguard (hmeets.1 g hguard)
              rw [hnot.2] at hfree
              cases hfree
          have hascends : o.ascends x.held k = true := by
            cases htrust : trusted x.locals.request with
            | true =>
              rcases (hascending htrust).1.2 with hmem | hsome | hascends
              · exact absurd hmem hnot.1
              · rw [hunguarded] at hsome
                cases hsome
              · exact hascends
            | false =>
              dsimp only at hok
              rw [htrust, hnot.2] at hok
              simpa using hok
          exact ⟨hclosed, hmeets, hascending, fun _ => ⟨k, rest, rfl, hnot.1, hunguarded, hascends⟩⟩
    | tryLock k locked passed =>
      rw [hrest] at hnext hmeets hascending
      simp only at hnext
      split at hnext
      · cases hnext
        refine ⟨hclosed.hold hmeets.1, hmeets.2.1, fun h => (hascending h).2.1, fun h => ?_⟩
        obtain ⟨k', rest', heq, _⟩ := (hw.running x hx).waits h
        rw [hrest] at heq
        cases heq
      · cases hnext
        refine ⟨hclosed, hmeets.2.2, fun h => (hascending h).2.2, fun h => ?_⟩
        obtain ⟨k', rest', heq, _⟩ := (hw.running x hx).waits h
        rw [hrest] at heq
        cases heq
    | release ks rest =>
      rw [hrest] at hnext hmeets hascending
      cases hnext
      refine ⟨hclosed.release hmeets.1, hmeets.2, fun h => (hascending h).2, fun h => ?_⟩
      obtain ⟨k', rest', heq, _⟩ := (hw.running x hx).waits h
      rw [hrest] at heq
      cases heq
  commits := by
    intro w x u hw _ _ _
    exact ⟨trivial, fun y hy _ => hw.running y hy⟩
  others := nofun

/-! ## No cycle -/

theorem World.waitsFor_iff {w : World Unit κ (Waiter ρ κ)} {i j : Nat} :
    w.waitsFor i j = true ↔ i ≠ j ∧ ∃ x y k, w.running.get? i = some x ∧ x.locals.wants = some k ∧
      w.running.get? j = some y ∧ k ∈ y.held := by
  simp only [World.waitsFor, Bool.and_eq_true, bne_iff_ne, Option.any_eq_true, decide_eq_true_eq]
  constructor
  · intro h
    obtain ⟨hne, x, hx, k, hk, y, hy, hmem⟩ := h
    exact ⟨hne, x, y, k, hx, hk, hy, hmem⟩
  · intro h
    obtain ⟨hne, x, y, k, hx, hk, hy, hmem⟩ := h
    exact ⟨hne, x, hx, k, hk, y, hy, hmem⟩

theorem Waiter.Orderly.wants {held : List κ} {x : Waiter ρ κ} (h : x.Orderly o trusted held) {k : κ}
    (hwants : x.wants = some k) : o.guard k = none ∧ o.ascends held k = true := by
  cases hwaiting : x.waiting with
  | false =>
    rw [Waiter.wants, hwaiting] at hwants
    cases hwants
  | true =>
    obtain ⟨k', rest, hrest, _, hunguarded, hascends⟩ := h.waits hwaiting
    rw [Waiter.wants, hwaiting, hrest] at hwants
    cases hwants
    exact ⟨hunguarded, hascends⟩

/-- What the first of a chain of waiting transactions wants comes before what the last one wants. -/
theorem below_of_chain {w : World Unit κ (Waiter ρ κ)}
    (hw : ∀ x ∈ w.running, x.locals.Orderly o trusted x.held) {i j : Nat}
    (h : Relation.TransGen (fun i j => w.waitsFor i j = true) i j) {x y : Tx κ (Waiter ρ κ)}
    {k k' : κ} (hx : w.running.get? i = some x) (hk : x.locals.wants = some k)
    (hy : w.running.get? j = some y) (hk' : y.locals.wants = some k') : o.below k k' = true := by
  have hedge : ∀ {i j : Nat} {x y : Tx κ (Waiter ρ κ)} {k k' : κ}, w.waitsFor i j = true →
      w.running.get? i = some x → x.locals.wants = some k → w.running.get? j = some y →
        y.locals.wants = some k' → o.below k k' = true := by
    intro i j x y k k' hwaits hx hk hy hk'
    obtain ⟨_, x', y', k₀, hx', hk₀, hy', hmem⟩ := World.waitsFor_iff.mp hwaits
    rw [hx] at hx'
    cases hx'
    rw [hk] at hk₀
    cases hk₀
    rw [hy] at hy'
    cases hy'
    have hunguarded := ((hw x (Table.get?_eq_some.mp hx).1).wants hk).1
    have hascends := ((hw y (Table.get?_eq_some.mp hy).1).wants hk').2
    have hheld := List.all_eq_true.mp hascends k hmem
    rw [hunguarded] at hheld
    exact hheld
  induction h generalizing y k' with
  | single hwaits => exact hedge hwaits hx hk hy hk'
  | tail _ hwaits ih =>
    obtain ⟨_, z, _, l, hz, hl, _, _⟩ := World.waitsFor_iff.mp hwaits
    exact o.trans (ih hz hl) (hedge hwaits hz hl hy hk')

theorem deadlockFree_of_orderly {w : World Unit κ (Waiter ρ κ)}
    (hw : ∀ x ∈ w.running, x.locals.Orderly o trusted x.held) : w.DeadlockFree := by
  intro i hcycle
  have hfirst : ∃ j, w.waitsFor i j = true := by
    obtain ⟨j, hwaits, _⟩ := Relation.TransGen.head'_iff.mp hcycle
    exact ⟨j, hwaits⟩
  obtain ⟨j, hwaits⟩ := hfirst
  obtain ⟨_, x, _, k, hx, hk, _, _⟩ := World.waitsFor_iff.mp hwaits
  have hbelow := below_of_chain hw hcycle hx hk hx hk
  rw [o.irrefl k] at hbelow
  cases hbelow

/-- **The rule of lock orders.** Where guarded locks are asked for under their guards, the trusted
programs ask in order, and the others never wait against it, there is no deadlock in any
interleaving. -/
theorem deadlockFree_of_asksInOrder {program : ρ → LockProgram κ}
    (hguarded : ∀ request, (program request).Meets o o.Guarded [] fun _ => True)
    (htrusted : ∀ request, trusted request = true →
    (program request).Meets o o.Ascending [] fun _ => True) {w : World Unit κ (Waiter ρ κ)}
    (h : Reach (locking program).Steps (fun w a => asksInOrder o trusted w a = true)
    { store := () } w) :
    w.DeadlockFree :=
  deadlockFree_of_orderly ((locking_outline hguarded htrusted).sound (.idle trivial) h).running

end

end ContentOrchestrator.Lib
