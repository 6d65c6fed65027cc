import ContentOrchestrator.Orchestration.Producers
import ContentOrchestrator.System

/-! # Numbers without gaps

A producer holds the lock of every aggregate it has uncommitted events of. So over the
committed events and those of one producer the numbers of an aggregate are complete,
whatever the other producers are about to commit. -/

namespace ContentOrchestrator

open Lib

/-- Every aggregate's events are numbered from 1 without gap, in the order of their commits. -/
def Db.OutboxNumbered (db : Db) : Prop := ∀ aggregate, IsNumbering (sequencesOf db aggregate)

variable {hash : Aggregate → Nat} {db : Db} {held : List Nat} {own : List Numbered} {p : Producer}

/-! ## What a producer relies on -/

/-- With these events the numbering is complete, and their aggregates are locked. -/
structure Staged (hash : Aggregate → Nat) (db : Db) (held : List Nat) (own : List Numbered) :
    Prop where
  locked : ∀ e ∈ own, hash e.draft.aggregate ∈ held
  numbered : (withOwn own db).OutboxNumbered

/-- The statement of `emit` that comes next has what it needs. -/
def Ready (hash : Aggregate → Nat) (db : Db) (held : List Nat) (p : Producer) : Prop :=
  match p.script, p.point with
  | _, .lock => True
  | .emit draft :: _, .select => hash draft.aggregate ∈ held
  | .emit draft :: _, .insert sequence =>
    hash draft.aggregate ∈ held ∧ sequence =
      (sequencesOf (withOwn p.own db) draft.aggregate).length + 1
  | _, _ => False

structure Producing (hash : Aggregate → Nat) (db : Db) (held : List Nat) (p : Producer) : Prop where
  staged : Staged hash db held p.own
  savepoints : ∀ s ∈ p.savepoints, Staged hash db s.held s.own
  /-- Later savepoints hold all that earlier ones do. -/
  nested : (held :: p.savepoints.map (·.held)).Pairwise fun inner outer => ∀ k ∈ outer, k ∈ inner
  ready : Ready hash db held p

theorem Staged.mono {held' : List Nat} (h : Staged hash db held own)
    (hheld : ∀ k ∈ held, k ∈ held') :
    Staged hash db held' own :=
  ⟨fun e he => hheld _ (h.locked e he), h.numbered⟩

theorem Staged.unlocked (h : Staged hash db held own) {aggregate : Aggregate}
    (hfree : hash aggregate ∉ held) :
    ownSequences own aggregate = [] :=
  ownSequences_eq_nil fun e he heq => hfree (heq ▸ h.locked e he)

/-- The numbering goes on by one. -/
theorem Staged.snoc (h : Staged hash db held own) {draft : EventDraft}
    (hlock : hash draft.aggregate ∈ held) :
    Staged hash db held
      (own ++ [⟨draft, (sequencesOf (withOwn own db) draft.aggregate).length + 1⟩]) := by
  constructor
  · intro e he
    rcases List.mem_append.mp he with he | he
    · exact h.locked e he
    · rw [List.mem_singleton.mp he]
      exact hlock
  · intro aggregate
    have hbefore := h.numbered aggregate
    rw [sequencesOf_withOwn, ownSequences_append, ← List.append_assoc, ← sequencesOf_withOwn]
    by_cases haggregate : draft.aggregate = aggregate
    · subst haggregate
      have hone : ownSequences [⟨draft, (sequencesOf (withOwn own db) draft.aggregate).length + 1⟩]
          draft.aggregate = [(sequencesOf (withOwn own db) draft.aggregate).length + 1] := by
        simp [ownSequences]
      rw [hone]
      exact hbefore.snoc
    · have hnone : ownSequences [⟨draft, (sequencesOf (withOwn own db) draft.aggregate).length + 1⟩]
          aggregate = [] := ownSequences_eq_nil fun e he => by
        rw [List.mem_singleton.mp he]
        exact haggregate
      rw [hnone, List.append_nil]
      exact hbefore

/-- **No commit disturbs another producer**: it brings no event of an aggregate that one has
locked. -/
theorem Staged.stable {others : List Nat} {committed : List Numbered} (h : Staged hash db held own)
    (hcommitted : Staged hash db others committed) (hdisjoint : ∀ k ∈ held, k ∉ others) :
    Staged hash (withOwn committed db) held own := by
  refine ⟨h.locked, fun aggregate => ?_⟩
  rw [sequencesOf_withOwn, sequencesOf_withOwn]
  by_cases hlock : hash aggregate ∈ held
  · have hnone := hcommitted.unlocked (hdisjoint _ hlock)
    have hbefore := h.numbered aggregate
    rw [sequencesOf_withOwn] at hbefore
    rw [hnone, List.append_nil]
    exact hbefore
  · have hnone := h.unlocked hlock
    have hafter := hcommitted.numbered aggregate
    rw [sequencesOf_withOwn] at hafter
    rw [hnone, List.append_nil]
    exact hafter

/-- The numbers of a locked aggregate are the same after another producer's commit. -/
theorem sequencesOf_locked {others : List Nat} {committed : List Numbered}
    (hcommitted : Staged hash db others committed) (hdisjoint : ∀ k ∈ held, k ∉ others)
    {aggregate : Aggregate} (hlock : hash aggregate ∈ held) :
    sequencesOf (withOwn own (withOwn committed db)) aggregate =
      sequencesOf (withOwn own db) aggregate := by
  simp [hcommitted.unlocked (hdisjoint _ hlock)]

theorem Producing.stable {others : List Nat} {committed : List Numbered}
    (h : Producing hash db held p) (hcommitted : Staged hash db others committed)
    (hdisjoint : ∀ k ∈ held, k ∉ others) :
    Producing hash (withOwn committed db) held p := by
  have houter := (List.pairwise_cons.mp h.nested).1
  refine ⟨h.staged.stable hcommitted hdisjoint, fun s hs => ?_, h.nested, ?_⟩
  · have hinner : ∀ k ∈ s.held, k ∈ held := houter s.held (List.mem_map_of_mem hs)
    exact (h.savepoints s hs).stable hcommitted fun k hk => hdisjoint k (hinner k hk)
  · have hready := h.ready
    unfold Ready at hready ⊢
    split at hready
    · trivial
    · exact hready
    · obtain ⟨hlock, hsequence⟩ := hready
      exact ⟨hlock, by rw [sequencesOf_locked hcommitted hdisjoint hlock]; exact hsequence⟩
    · exact hready.elim

/-! ## One statement -/

theorem Producing.next {held' : List Nat} {p' : Producer} (h : Producing hash db held p)
    (hnext : p.next hash db held = some (held', p')) : Producing hash db held' p' := by
  obtain ⟨houter, hrest⟩ := List.pairwise_cons.mp h.nested
  have hready := h.ready
  unfold Producer.next at hnext
  split at hnext
  · cases hnext
  · rename_i draft rest hscript
    split at hnext
    · cases hnext
      have hmore : ∀ k ∈ held, k ∈ hash draft.aggregate :: held :=
        fun k hk => List.mem_cons_of_mem _ hk
      refine ⟨h.staged.mono hmore, h.savepoints, List.pairwise_cons.mpr ⟨?_, hrest⟩, ?_⟩
      · exact fun outer houter' k hk => hmore k (houter outer houter' k hk)
      · simp [Ready, hscript]
    · rename_i hpoint
      cases hnext
      have hlock : hash draft.aggregate ∈ held := by simpa [Ready, hscript, hpoint] using hready
      have hnumber : nextSequence (withOwn p.own db) draft.aggregate =
          (sequencesOf (withOwn p.own db) draft.aggregate).length + 1 := (h.staged.numbered _).next
      refine ⟨h.staged, h.savepoints, h.nested, ?_⟩
      simp only [Ready, hscript]
      exact ⟨hlock, hnumber⟩
    · rename_i sequence hpoint
      cases hnext
      obtain ⟨hlock, hsequence⟩ : hash draft.aggregate ∈ held ∧
          sequence = (sequencesOf (withOwn p.own db) draft.aggregate).length + 1 := by
        simpa only [Ready, hscript, hpoint] using hready
      rw [hsequence]
      exact ⟨h.staged.snoc hlock, h.savepoints, h.nested, trivial⟩
  · rename_i rest hscript
    cases hnext
    refine ⟨h.staged, fun s hs => ?_, ?_, ?_⟩
    · rcases List.mem_cons.mp hs with rfl | hs
      · exact h.staged
      · exact h.savepoints s hs
    · refine List.pairwise_cons.mpr ⟨fun outer houter' => ?_, h.nested⟩
      rcases List.mem_cons.mp houter' with rfl | houter'
      · exact fun k hk => hk
      · exact houter outer houter'
    · cases hpoint : p.point <;> simp_all [Ready]
  · rename_i rest hscript
    split at hnext
    · cases hnext
    · rename_i s outer hsavepoints
      cases hnext
      have hmem : s ∈ p.savepoints := hsavepoints ▸ List.mem_cons_self
      have hinner : ∀ k ∈ s.held, k ∈ held := houter s.held (List.mem_map_of_mem hmem)
      have hkept : ∀ k ∈ s.held, k ∈ held.filter (· ∈ s.held) := fun k hk =>
        List.mem_filter.mpr ⟨hinner k hk, by simpa using hk⟩
      refine ⟨(h.savepoints s hmem).mono hkept, h.savepoints, List.pairwise_cons.mpr ⟨?_, hrest⟩,
        ?_⟩
      · rw [hsavepoints] at hrest ⊢
        intro l hl
        rcases List.mem_cons.mp hl with rfl | hl
        · exact hkept
        · exact fun k hk => hkept k ((List.pairwise_cons.mp hrest).1 l hl k hk)
      · cases hpoint : p.point <;> simp_all [Ready]
  · rename_i rest hscript
    split at hnext
    · cases hnext
    · rename_i s outer hsavepoints
      cases hnext
      rw [hsavepoints] at houter hrest
      refine ⟨h.staged, fun s' hs' =>
        h.savepoints s' (hsavepoints ▸ List.mem_cons_of_mem _ hs'), ?_, ?_⟩
      · refine List.pairwise_cons.mpr ⟨fun l hl => houter l (List.mem_cons_of_mem _ hl), ?_⟩
        exact (List.pairwise_cons.mp hrest).2
      · cases hpoint : p.point <;> simp_all [Ready]

/-! ## Every interleaving -/

theorem producers_outline :
    Outline (producers hash) (fun _ _ => True) Db.OutboxNumbered (Producing hash) where
  starts := by
    intro w script hw _
    have hnone : Staged hash w.store [] [] := ⟨fun _ he => absurd he List.not_mem_nil, hw.store⟩
    exact ⟨hnone, fun _ hs => absurd hs List.not_mem_nil, List.pairwise_singleton _ _, trivial⟩
  runs := fun hw hx _ hnext _ => (hw.running _ hx).next hnext
  commits := by
    intro w x u hw hx _ hcommit
    have hstaged := (hw.running x hx).staged
    simp only [producers] at hcommit
    split at hcommit
    · cases hcommit
      refine ⟨hstaged.numbered, fun y hy hne => ?_⟩
      exact (hw.running y hy).stable hstaged (hw.exclusive y hy x hx hne)
    · cases hcommit
  others := nofun

/-- **Outbox numbering**: in every interleaving of producers, some rolling back in whole or to a
savepoint, the committed events of each aggregate are numbered 1, 2, … without gap, in the order of
their commits. -/
theorem outbox_numbered (h : db.OutboxNumbered) {w : World Db Nat Producer}
    (hreach : Reach (producers hash).Steps (fun _ _ => True) { store := db } w) :
    w.store.OutboxNumbered :=
  (producers_outline.sound (.idle h) hreach).store

/-! ## Two producers of one run -/

def runEvent : EventDraft :=
  { eventType := EventType.stageCompleted, workspaceId := 0, aggregate := .pipelineRun 0 }

/-- One hash for all aggregates. -/
def collidingHash (_ : Aggregate) : Nat := 0

/-- The first producer takes its second event back; the second waits for the lock until the first
commits; a third is rolled back as a whole. -/
def twoProducers : List (Action (List ProducerOp) Empty) :=
  [.start [.emit runEvent, .savepoint, .emit runEvent, .rollbackToSavepoint, .emit runEvent],
    .start [.emit runEvent, .emit runEvent], .start [.emit runEvent]] ++
  (List.replicate 8 [.run 0, .run 1]).flatten ++ [.run 0, .run 0, .run 0, .commit 0] ++
  List.replicate 3 (.run 2) ++ [.abort 2] ++ List.replicate 6 (.run 1) ++ [.commit 1]

theorem demoDb_outboxNumbered : demoDb.OutboxNumbered := fun _ => rfl

theorem outbox_numbered_two_producers :
    (replay (producers collidingHash).step { store := demoDb } twoProducers).store.OutboxNumbered ∧
      sequencesOf (replay (producers collidingHash).step { store := demoDb } twoProducers).store
        (.pipelineRun 0) = [1, 2, 3, 4] := by
  have hreach : Reach (producers collidingHash).Steps (fun _ _ => True) { store := demoDb }
      (replay (producers collidingHash).step { store := demoDb } twoProducers) := reach_any _ _
  exact ⟨outbox_numbered demoDb_outboxNumbered hreach, by decide +kernel⟩

end ContentOrchestrator
