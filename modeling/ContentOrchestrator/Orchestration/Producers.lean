import ContentOrchestrator.Lib.Interleaving
import ContentOrchestrator.Orchestration.Outbox

/-! # Producers side by side

A producer's transaction emits any number of events between savepoints it sets, takes
back or releases. `emit` is three statements: the advisory lock on the aggregate, the
largest number so far over the committed events and the transaction's own, and the
insert, which is flushed at once. Advisory locks are keyed by a hash of the aggregate;
taking back a savepoint drops those taken since. -/

namespace ContentOrchestrator

open Lib

/-! ## What a producer does -/

structure EventDraft where
  eventType : String
  workspaceId : Nat
  aggregate : Aggregate
  reviewGateId : Option Nat := none
deriving DecidableEq, Repr

/-- An inserted event, with its number. -/
structure Numbered where
  draft : EventDraft
  sequence : Nat
deriving DecidableEq, Repr

def insertEvent (db : Db) (e : Numbered) : Db :=
  { db with
    outbox := db.outbox.insert ⟨fun id =>
      { id, workspaceId := e.draft.workspaceId, eventType := e.draft.eventType
        aggregate := e.draft.aggregate
        reviewGateId := e.draft.reviewGateId, sequence := e.sequence, occurredAt := db.now },
          fun _ => rfl⟩ }

/-- `emit` alone: the next number, then the insert. -/
theorem emit_eq_insertEvent (draft : EventDraft) (db : Db) :
    emit draft.eventType draft.workspaceId draft.aggregate draft.reviewGateId db =
      insertEvent db ⟨draft, nextSequence db draft.aggregate⟩ := rfl

/-- What a transaction sees: the committed state and its own inserts. -/
def withOwn (own : List Numbered) (db : Db) : Db := own.foldl insertEvent db

inductive ProducerOp
  | emit (draft : EventDraft)
  | savepoint
  | rollbackToSavepoint
  | releaseSavepoint
deriving DecidableEq, Repr

/-- The statement of `emit` that comes next. -/
inductive EmitPoint
  | lock | select | insert (sequence : Nat)
deriving DecidableEq, Repr

structure Savepoint where
  own : List Numbered
  held : List Nat
deriving DecidableEq, Repr

structure Producer where
  script : List ProducerOp
  point : EmitPoint := .lock
  own : List Numbered := []
  /-- The newest first. -/
  savepoints : List Savepoint := []
deriving DecidableEq, Repr

/-- The next statement. -/
def Producer.next (hash : Aggregate → Nat) (db : Db) (held : List Nat) (p : Producer) :
    Option (List Nat × Producer) :=
  match p.script with
  | [] => none
  | .emit draft :: rest =>
    match p.point with
    | .lock => some (hash draft.aggregate :: held, { p with point := .select })
    | .select =>
      some (held, { p with point := .insert (nextSequence (withOwn p.own db) draft.aggregate) })
    | .insert sequence =>
      some (held, { p with script := rest, point := .lock, own := p.own ++ [⟨draft, sequence⟩] })
  | .savepoint :: rest =>
    some (held, { p with script := rest, savepoints := ⟨p.own, held⟩ :: p.savepoints })
  | .rollbackToSavepoint :: rest =>
    match p.savepoints with
    | [] => none
    | s :: _ => some (held.filter (· ∈ s.held), { p with script := rest, own := s.own })
  | .releaseSavepoint :: rest =>
    match p.savepoints with
    | [] => none
    | _ :: outer => some (held, { p with script := rest, savepoints := outer })

/-- The producers of a system, under a hash for the advisory locks. -/
def producers (hash : Aggregate → Nat) : Code Db Nat Producer (List ProducerOp) Empty where
  start script := { script }
  next db _ held p := p.next hash db held
  commit p := if p.script.isEmpty then some (withOwn p.own) else none
  needs := nofun
  apply := nofun

/-! ## Sequences -/

/-- The numbers of an aggregate's events, in the order of their commits. -/
def sequencesOf (db : Db) (aggregate : Aggregate) : List Nat :=
  (db.outbox.select fun e => e.aggregate == aggregate).map (·.sequence)

/-- What a transaction adds to them. -/
def ownSequences (own : List Numbered) (aggregate : Aggregate) : List Nat :=
  (own.filter fun e => e.draft.aggregate == aggregate).map (·.sequence)

theorem sequencesOf_insertEvent {db : Db} {e : Numbered} {aggregate : Aggregate} :
    sequencesOf (insertEvent db e) aggregate =
      sequencesOf db aggregate ++ ownSequences [e] aggregate := by
  unfold sequencesOf ownSequences insertEvent
  rw [Table.select_insert]
  by_cases h : e.draft.aggregate = aggregate <;> simp [h]

@[simp] theorem sequencesOf_withOwn {own : List Numbered} {db : Db} {aggregate : Aggregate} :
    sequencesOf (withOwn own db) aggregate = sequencesOf db aggregate ++
      ownSequences own aggregate := by
  induction own generalizing db with
  | nil => simp [withOwn, ownSequences]
  | cons e own ih =>
    have hcons : ownSequences (e :: own) aggregate =
        ownSequences [e] aggregate ++ ownSequences own aggregate := by
      by_cases h : e.draft.aggregate = aggregate <;> simp [ownSequences, h]
    show sequencesOf (withOwn own (insertEvent db e)) aggregate = _
    rw [ih, sequencesOf_insertEvent, hcons, List.append_assoc]

theorem ownSequences_eq_nil {own : List Numbered} {aggregate : Aggregate}
    (h : ∀ e ∈ own, e.draft.aggregate ≠ aggregate) : ownSequences own aggregate = [] := by
  rw [ownSequences, List.map_eq_nil_iff, List.filter_eq_nil_iff]
  intro e he
  simpa using h e he

theorem ownSequences_append {own : List Numbered} {e : Numbered} {aggregate : Aggregate} :
    ownSequences (own ++ [e]) aggregate = ownSequences own aggregate ++
      ownSequences [e] aggregate := by
  simp [ownSequences]

/-- The numbers are 1, 2, … in order, with no gap. -/
def IsNumbering (sequences : List Nat) : Prop := sequences = List.range' 1 sequences.length

theorem IsNumbering.next {sequences : List Nat} (h : IsNumbering sequences) :
    sequences.foldl max 0 + 1 = sequences.length + 1 := by
  have hmax : ∀ n start, (List.range' 1 n).foldl max start = max start n := by
    intro n
    induction n with
    | zero => simp
    | succ n ih =>
      intro start
      rw [List.range'_concat, List.foldl_append, ih]
      simp
      omega
  rw [h, hmax]
  simp

theorem IsNumbering.snoc {sequences : List Nat} (h : IsNumbering sequences) :
    IsNumbering (sequences ++ [sequences.length + 1]) := by
  have hlength : (sequences ++ [sequences.length + 1]).length = sequences.length + 1 := by simp
  rw [IsNumbering, hlength, List.range'_concat, ← h]
  simp [Nat.add_comm]

end ContentOrchestrator
