import ContentOrchestrator.Workers.FleetSystem

/-! # What a transaction makes of an assignment row

A request that reaches the engine moves rows as the engine does; register, deregister
and the stops reclaim what a worker holds, row by row. -/

namespace ContentOrchestrator

open Lib

variable {f g : Fleet} {op : FleetOp} {s t : Db}

/-- A row is kept, or taken from its worker. -/
inductive Reclaimed (a : StageAssignment) : StageAssignment → Prop
  | kept : Reclaimed a a
  | requeued {now : Nat} (held : a.status.inFlight = true) :
      Reclaimed a ((StageAssignment.requeue now).apply a)
  | exhausted {now : Nat} (held : a.status.inFlight = true) :
      Reclaimed a ((StageAssignment.exhaust now).apply a)

theorem Reclaimed.trans {a b c : StageAssignment} (h : Reclaimed a b) (h' : Reclaimed b c) :
    Reclaimed a c := by
  cases h with
  | kept => exact h'
  | requeued held =>
    cases h' with
    | kept => exact .requeued held
    | requeued held' => cases held'
    | exhausted held' => cases held'
  | exhausted held =>
    cases h' with
    | kept => exact .exhausted held
    | requeued held' => cases held'
    | exhausted held' => cases held'

/-- No row is added. -/
abbrev Reclaims (s t : Db) : Prop :=
  Table.Evolves Reclaimed (fun _ => False) s.assignments t.assignments

theorem Reclaims.of_eq (h : t.assignments = s.assignments) : Reclaims s t :=
  Table.Evolves.of_eq (fun _ => .kept) h

theorem Reclaims.trans {u : Db} (h : Reclaims s t) (h' : Reclaims t u) : Reclaims s u :=
  Table.Evolves.trans (fun _ _ _ => Reclaimed.trans) (fun _ _ hnone _ => hnone) h h'

theorem Recovered.reclaims {a : StageAssignment} {reason : RecoveryReason}
    (h : Recovered a reason s t) (found : s.assignments.get? a.id = some a) : Reclaims s t := by
  have hrow : ∀ {u : Update StageAssignment}, t.assignments = s.assignments.modify a.id u →
      Reclaimed a (u.apply a) → Reclaims s t := by
    intro u hu hmove
    refine Table.Evolves.modify (fun _ => .kept) (fun b hb => ?_) hu
    rw [found] at hb
    rw [← Option.some.inj hb]
    exact hmove
  cases h with
  | skipped _ => exact .of_eq rfl
  | requeued held _ _ => exact hrow requeueAssignment_assignments (.requeued held)
  | exhausted held _ => exact hrow deadLetterAssignment_assignments (.exhausted held)

theorem Reaped.sound {reason : RecoveryReason} {ids : List Nat} (h : Reaped reason ids s t)
    (hs : s.Sound) :
    t.Sound := by
  induction h with
  | done => exact hs
  | next _ _ taken _ ih => exact ih (taken ▸ step_sound _ _ hs)

theorem Reaped.reclaims {reason : RecoveryReason} {ids : List Nat} (h : Reaped reason ids s t) :
    Reclaims s t := by
  induction h with
  | done => exact .of_eq rfl
  | next found recovered _ _ ih =>
    obtain ⟨_, rfl⟩ := Table.get?_eq_some.mp found
    exact (recovered.reclaims found).trans ih

theorem Db.Sound.modifyWorker {workerId : Nat} {u : Update WorkerRegistration} (h : s.Sound) :
    (modifyWorker workerId u s).Sound := ⟨h.jobs, h.keyed, h.gates, h.due⟩

/-- One worker is stopped. -/
structure WorkerStopped (workspaceId workerId : Nat) (actor : AdminSession) (f g : Fleet) :
    Prop where
  row : ∃ t, Reaped .workerRevoked (workerHoldings f.db workerId (actor.passedOver f.db)) f.db t ∧
    g.db = modifyWorker workerId WorkerRegistration.stop t
  credentials : g.credentials = f.credentials.modifyWhere
    (fun c => c.isActiveOf workerId && c.workspaceId == workspaceId) WorkerCredential.revoke

/-- The workers are stopped one after the other. -/
inductive EachStopped (workspaceId : Nat) (actor : AdminSession) :
    List Nat → Fleet → Fleet → Prop
  | done {f : Fleet} : EachStopped workspaceId actor [] f f
  | next {workerId : Nat} {rest : List Nat} {f g i : Fleet}
      (stopped : WorkerStopped workspaceId workerId actor f g)
      (later : EachStopped workspaceId actor rest g i) :
        EachStopped workspaceId actor (workerId :: rest) f i

theorem stopEach_returns {workspaceId : Nat} {actor : AdminSession} :
    ∀ {ids : List Nat} {f g : Fleet} {v : Unit}, Returns (stopEach workspaceId actor ids) f v g →
      EachStopped workspaceId actor ids f g
  | [], f, g, v, h => by
    simp only [stopEach, returns_pure] at h
    rw [← h.2]
    exact .done
  | workerId :: rest, f, g, v, h => by
    simp only [stopEach, stopWorker, returns_bind, returns_get, returns_onEngine,
      returns_modify] at h
    obtain ⟨_, m, ⟨_, _, rfl, _, _, ⟨rfl, rfl⟩, _, _, ⟨t, hreap, rfl⟩, _, rfl, rfl⟩, hrest⟩ := h
    have hstopped := stopEach_returns hrest
    exact .next ⟨⟨t, reapWorkerAssignments_returns hreap, rfl⟩, rfl⟩ hstopped

theorem EachStopped.moves {workspaceId : Nat} {actor : AdminSession} {ids : List Nat}
    (h : EachStopped workspaceId actor ids f g) (hs : f.db.Sound) :
    g.db.Sound ∧ Reclaims f.db g.db := by
  induction h with
  | done => exact ⟨hs, .of_eq rfl⟩
  | next stopped _ ih =>
    obtain ⟨t, hreaped, hrow⟩ := stopped.row
    have hsound := hrow ▸ (hreaped.sound hs).modifyWorker
    obtain ⟨hlater, hmoves⟩ := ih hsound
    refine ⟨hlater, (hreaped.reclaims.trans (.of_eq ?_)).trans hmoves⟩
    rw [hrow]
    rfl

/-! ## Every operation -/

/-- The engine operation a transaction consists of. -/
def FleetOp.call? : FleetOp → Option Op
  | engine op => some op
  | claim claimToken worker locked => some (.claim worker.workerId claimToken locked)
  | ack assignmentId worker => some (.ack assignmentId none worker.workerId)
  | renew assignmentId worker => some (.renew assignmentId none worker.workerId)
  | submit assignmentId payload worker jitter =>
    some (payload.op assignmentId worker.workerId jitter)
  | _ => none

/-- What a transaction makes of a row. -/
inductive FleetMove (op : FleetOp) (f : Fleet) (a : StageAssignment) : StageAssignment → Prop
  | called {eop : Op} {a' : StageAssignment} (call : op.call? = some eop)
      (move : AssignmentMove eop f.db a a') : FleetMove op f a a'
  | reclaimed {a' : StageAssignment} (move : Reclaimed a a') : FleetMove op f a a'

/-- Old rows are moved, and new ones are dispatched by the engine. -/
abbrev FleetMoves (op : FleetOp) (f g : Fleet) : Prop :=
  Table.Evolves (FleetMove op f) (fun a => ∃ eop, op.call? = some eop ∧ IsDispatched eop f.db a)
    f.db.assignments g.db.assignments

theorem FleetMove.id {a a' : StageAssignment} (h : FleetMove op f a a') : a'.id = a.id := by
  cases h with
  | called _ move => exact move.id
  | reclaimed move => cases move <;> rfl

theorem FleetMove.workspaceId {a a' : StageAssignment} (h : FleetMove op f a a') :
    a'.workspaceId = a.workspaceId := by
  cases h with
  | called _ move => cases move <;> rfl
  | reclaimed move => cases move <;> rfl

theorem FleetMoves.of_reclaims (h : Reclaims f.db g.db) : FleetMoves op f g :=
  h.mono (fun _ _ _ _ hmove => .reclaimed hmove) fun _ _ hnone => hnone.elim

theorem FleetMoves.of_step {eop : Op} (call : op.call? = some eop) (hs : f.db.Sound)
    (h : g.db.assignments = (step f.db eop).assignments) : FleetMoves op f g := by
  have hmoves := step_assignments eop hs
  rw [FleetMoves, h]
  exact hmoves.mono (fun _ _ _ _ hmove => .called call hmove) fun _ _ hnew => ⟨eop, call, hnew⟩

/-- **What one transaction does to the assignments.** -/
theorem FleetEffect.moves {answer : Option SubmitOut} (h : FleetEffect op f answer g)
    (hs : f.db.Sound) :
    g.db.Sound ∧ FleetMoves op f g := by
  cases h with
  | engine => exact ⟨step_sound _ _ hs, .of_step rfl hs rfl⟩
  | registered reaped _ _ =>
    exact ⟨(reaped.sound hs).modifyWorker, .of_reclaims (reaped.reclaims.trans (.of_eq rfl))⟩
  | beat _ _ _ _ => exact ⟨hs.modifyWorker, .of_reclaims (.of_eq rfl)⟩
  | deregistered _ _ reaped =>
    exact ⟨(reaped.sound hs).modifyWorker, .of_reclaims (reaped.reclaims.trans (.of_eq rfl))⟩
  | already => exact ⟨hs, .of_reclaims (.of_eq rfl)⟩
  | claimed _ => exact ⟨step_sound _ _ hs, .of_step rfl hs rfl⟩
  | acknowledged _ => exact ⟨step_sound _ _ hs, .of_step rfl hs rfl⟩
  | renewed _ => exact ⟨step_sound _ _ hs, .of_step rfl hs rfl⟩
  | replayed _ _ => exact ⟨hs, .of_reclaims (.of_eq rfl)⟩
  | submitted _ _ _ _ taken =>
    refine ⟨taken ▸ step_sound _ _ hs, .of_step rfl hs ?_⟩
    rw [taken]
  | provisioned => exact ⟨⟨hs.jobs, hs.keyed, hs.gates, hs.due⟩, .of_reclaims (.of_eq rfl)⟩
  | rotated _ _ => exact ⟨hs, .of_reclaims (.of_eq rfl)⟩
  | revoked _ _ reaped =>
    exact ⟨(reaped.sound hs).modifyWorker, .of_reclaims (reaped.reclaims.trans (.of_eq rfl))⟩
  | stopped each =>
    obtain ⟨hsound, hmoves⟩ := (stopEach_returns each).moves hs
    exact ⟨⟨hsound.jobs, hsound.keyed, hsound.gates, hsound.due⟩, .of_reclaims hmoves⟩

theorem fleetStep_moves (f : Fleet) (op : FleetOp) (hs : f.db.Sound) :
    (fleetStep f op).db.Sound ∧ FleetMoves op f (fleetStep f op) := by
  rcases fleetStep_cases f op with ⟨heq, _⟩ | heffect
  · rw [heq]
    exact ⟨hs, .of_reclaims (.of_eq rfl)⟩
  · exact heffect.moves hs

/-! ## Submissions -/

theorem assertSubmittable_live {s : Db} {a : StageAssignment} {workerId : Nat}
    (h : assertSubmittable s a (some workerId) = .ok ()) :
    a.workerId = some workerId ∧ a.status.inFlight = true ∧ a.leaseExpired s.now = false := by
  have hheld := assertSubmittable_ok h
  refine ⟨?_, hheld, ?_⟩
  · by_contra hne
    simp [assertSubmittable, hne] at h
    cases h
  · by_contra hne
    have hexpired : a.leaseExpired s.now = true := by simpa using hne
    unfold assertSubmittable at h
    simp only [hheld, hexpired] at h
    split at h <;> cases h

/-- What a submission does to its row: a replay nothing, an admitted one closes it for its
sender. -/
theorem FleetEffect.submission {assignmentId jitter : Nat} {payload : SubmitIn}
    {worker : AuthenticatedWorker} {answer : Option SubmitOut}
    (h : FleetEffect (.submit assignmentId payload worker jitter) f answer g) :
    ∃ a, Addressed f worker assignmentId a ∧ answer.isSome = true ∧
      ((isReplay f a payload = true ∧ g = f) ∨
        (isReplay f a payload = false ∧ assertSubmittable f.db a (some worker.workerId) = .ok () ∧
          g.db.assignments.get? assignmentId =
            some ((StageAssignment.complete payload.success payload.result f.db.now).apply
              a))) := by
  cases h with
  | @replayed _ _ _ _ _ a addressed replay => exact ⟨a, addressed, rfl, .inl ⟨replay, rfl⟩⟩
  | @submitted _ _ _ _ _ a t keys created addressed fresh admitted done taken =>
    refine ⟨a, addressed, rfl, .inr ⟨fresh, admitted, ?_⟩⟩
    have hid : assignmentId = a.id := (Table.get?_eq_some.mp addressed.found).2.symm
    rw [done.assignments, Table.get?_modify, if_pos hid, ← hid, addressed.found]
    rfl

/-- What the endpoints and the engine do between them; the engine's own worker calls come from the
endpoints only. -/
abbrev ServedOp := { op : FleetOp // op.isServed = true }

/-- A served submission comes through the endpoint. -/
theorem not_served_submit {eop : Op} (hserved : op.isServed = true) (hcall : op.call? = some eop)
    (hop : ∀ assignmentId payload worker jitter, op ≠ .submit assignmentId payload worker jitter)
    {assignmentId jitter : Nat} {success : Bool} {result : Option (List (String × Json))}
    {message : String} {workerId : Option Nat} :
    eop ≠ .submit assignmentId success result message workerId jitter := by
  intro h
  subst h
  cases op with
  | engine op =>
    cases hcall
    cases hserved
  | submit assignmentId payload worker jitter => exact hop _ _ _ _ rfl
  | _ => cases hcall

/-! ## A small fleet

The small workspace with two workers pinned to it, each with its credential. -/

def demoWorker (id : Nat) : WorkerRegistration :=
  { id, workspaceId := some 0, supportedStages := ["idea", "scripting"], status := .online
    maxConcurrency := 3
    lastHeartbeatAt := some 0 }

theorem firstCredential_key (id : Nat) :
    Keyed.key ({ id, workerId := 0, workspaceId := 0, secretHash := "a" } : WorkerCredential) =
      id := rfl

def demoFleet : Fleet where
  db :=
    { demoDb with workers := (oneRow demoWorker fun _ => rfl).insert ⟨demoWorker, fun _ => rfl⟩ }
  credentials := (oneRow (fun id => { id, workerId := 0, workspaceId := 0, secretHash := "a" })
    firstCredential_key).insert
      ⟨fun id => { id, workerId := 1, workspaceId := 0, secretHash := "b" }, fun _ => rfl⟩

theorem demoFleet_fresh : demoFleet.db.Fresh := ⟨rfl, rfl, rfl, rfl, rfl, rfl, rfl, rfl⟩

/-- The bearers of the two credentials. -/
def firstBearer : AuthenticatedWorker := ⟨0, 0, 0⟩
def secondBearer : AuthenticatedWorker := ⟨1, 1, 0⟩

example : (getCurrentWorker 1 "b").run demoFleet = .ok secondBearer demoFleet := rfl

/-- A run is started, and its first assignment given to the first worker. -/
def givenHistory : List FleetOp :=
  [.engine (.startRun 0 0 0), .engine (.poll 10 []), .engine (.processJob 0 [] 0)]

end ContentOrchestrator
