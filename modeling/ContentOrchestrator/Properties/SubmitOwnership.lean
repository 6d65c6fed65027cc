import ContentOrchestrator.Workers.FleetMoves

/-! # Whom the submit endpoint answers with success

A fresh submission is admitted from the worker that holds the row. A replay is answered
from the row alone: a pinned worker may replay any settled row of its workspace, with
any outcome. -/

namespace ContentOrchestrator

open Lib

/-- Who submitted the result on record, and which outcome it was. -/
structure Record where
  workerId : Nat
  success : Bool
deriving DecidableEq, Repr

/-- A success answer, with the record of the assignment when it was given. -/
structure Answered where
  workerId : Nat
  success : Bool
  recorded : Option Record

/-- The fleet, the results recorded so far and the success answers given. -/
structure SubmitWatch where
  fleet : Fleet
  records : Nat → Option Record
  answers : List Answered

/-- The transaction closes the row. -/
def closesRow (f g : Fleet) (assignmentId : Nat) : Bool :=
  (f.db.assignments.get? assignmentId).any (·.status.inFlight) &&
    (g.db.assignments.get? assignmentId).any (·.status.isSettled)

/-- A submission that closes a row records its sender and outcome. -/
def recordsAfter (f : Fleet) (records : Nat → Option Record) : FleetOp → Nat → Option Record
  | .submit assignmentId payload worker jitter => fun id =>
    if id = assignmentId ∧
        closesRow f (fleetStep f (.submit assignmentId payload worker jitter)) assignmentId =
          true then
      some ⟨worker.workerId, payload.success⟩
    else records id
  | _ => records

def SubmitWatch.step (w : SubmitWatch) (op : FleetOp) : SubmitWatch where
  fleet := fleetStep w.fleet op
  records := recordsAfter w.fleet w.records op
  answers :=
    match op with
    | .submit assignmentId payload worker _ =>
      if (fleetAnswer w.fleet op).isSome then
        ⟨worker.workerId, payload.success, recordsAfter w.fleet w.records op assignmentId⟩ ::
          w.answers
      else w.answers
    | _ => w.answers

/-- Every success answer went to the worker whose result is on record, for the outcome on record. -/
def SubmitWatch.OwnersOnly (w : SubmitWatch) : Prop :=
  ∀ x ∈ w.answers, x.recorded = some ⟨x.workerId, x.success⟩

/-- The row a request addresses, if it passes the checks. -/
def addressedRow (f : Fleet) (worker : AuthenticatedWorker) (assignmentId : Nat) :
    Option StageAssignment := do
  let credential ← f.credentials.get? worker.credentialId
  if credential.inForce f.db.now && credential.workerId == worker.workerId then
    let registration ← f.db.workers.get? worker.workerId
    let a ← f.db.assignments.get? assignmentId
    if registration.deregisteredAt.isNone && mayAddress worker registration a then some a else none
  else none

/-- A replay comes from the worker on the row, with the outcome of the row. -/
def replaysOwn (f : Fleet) : FleetOp → Bool
  | .submit assignmentId payload worker _ =>
    (addressedRow f worker assignmentId).all fun a =>
      !isReplay f a payload ||
        (a.workerId == some worker.workerId && (a.status == .completed) == payload.success)
  | _ => true

/-! ## What is on record -/

/-- The record a row shows. -/
def StageAssignment.record (a : StageAssignment) : Option Record :=
  if a.status.isSettled then a.workerId.map fun workerId =>
    ⟨workerId, a.status == .completed⟩ else none

/-- The records are those the rows show. -/
structure SubmitWatch.Tracked (w : SubmitWatch) : Prop where
  sound : w.fleet.db.Sound
  records : ∀ id, w.records id = (w.fleet.db.assignments.get? id).bind (·.record)

theorem record_of_inFlight {a : StageAssignment} (h : a.status.inFlight = true) :
    a.record = none := by
  cases hs : a.status <;> simp [StageAssignment.record, hs, StageAssignmentStatus.isSettled] <;>
    (rw [hs] at h; cases h)

variable {f g : Fleet} {op : FleetOp}

theorem Reclaimed.record_eq {a a' : StageAssignment} (h : Reclaimed a a') :
    a'.record = a.record := by
  cases h with
  | kept => rfl
  | requeued held => rw [record_of_inFlight held]; rfl
  | exhausted held => rw [record_of_inFlight held]; rfl

/-- Only a submission puts a result on record. -/
theorem AssignmentMove.record_eq {eop : Op} {s : Db} {a a' : StageAssignment}
    (h : AssignmentMove eop s a a')
    (hother : ∀ success result message workerId jitter, eop ≠ .submit a.id success result message
      workerId jitter) : a'.record = a.record := by
  cases h with
  | kept => rfl
  | granted _ _ waiting _ =>
    have hnone : a.record =
        none := by simp [StageAssignment.record, waiting, StageAssignmentStatus.isSettled]
    rw [hnone]
    rfl
  | acknowledged _ held =>
    have hnone : a.record = none := record_of_inFlight (by rw [held]; rfl)
    rw [hnone]
    rfl
  | renewed _ _ => rfl
  | submitted request _ _ => exact absurd request (hother _ _ _ _ _)
  | requeued _ held => rw [record_of_inFlight held]; rfl
  | exhausted _ held => rw [record_of_inFlight held]; rfl
  | cancelled live _ =>
    have hnone : a.record = none := by
      cases hs : a.status <;> simp [StageAssignment.record, hs, StageAssignmentStatus.isSettled] <;>
        (rw [hs] at live; cases live)
    rw [hnone]
    rfl

theorem IsDispatched.record {eop : Op} {s : Db} {a : StageAssignment} (h : IsDispatched eop s a) :
    a.record = none := by
  cases h with
  | @made _ _ _ _ _ _ worker _ _ _ _ _ _ _ _ _ _ => cases worker <;> rfl

/-- A row the transaction submits nothing for keeps its record. -/
theorem FleetMoves.record_eq (h : FleetMoves op f g) {id : Nat}
    (hother : ∀ eop, op.call? = some eop → ∀ success result message workerId jitter,
      eop ≠ .submit id success result message workerId jitter) :
    (g.db.assignments.get? id).bind (·.record) = (f.db.assignments.get? id).bind (·.record) := by
  cases hbefore : f.db.assignments.get? id with
  | some a =>
    obtain ⟨b, hafter, hmove⟩ := h.get? (fun _ _ hmove => hmove.id) hbefore
    obtain ⟨_, hid⟩ := Table.get?_eq_some.mp hbefore
    rw [hafter]
    cases hmove with
    | called call move =>
      have hkey : a.id = id := hid
      exact move.record_eq (by rw [hkey]; exact hother _ call)
    | reclaimed move => exact move.record_eq
  | none =>
    cases hafter : g.db.assignments.get? id with
    | none => rfl
    | some b =>
      rcases h.back (fun _ _ hmove => hmove.id) hafter with ⟨a, ha, _⟩ | ⟨_, _, hnew⟩
      · rw [hbefore] at ha
        cases ha
      · exact hnew.record

/-- The row after it is closed shows the sender and the outcome. -/
theorem record_complete {a : StageAssignment} {workerId now : Nat} {success : Bool}
    {result : Option (List (String × Json))} (h : a.workerId = some workerId) :
    ((StageAssignment.complete success result now).apply a).record = some ⟨workerId, success⟩ := by
  cases success <;> simp [StageAssignment.record, StageAssignment.complete,
    StageAssignmentStatus.isSettled, h]

/-! ## One request -/

theorem closesRow_self {id : Nat} : closesRow f f id = false := by
  unfold closesRow
  cases f.db.assignments.get? id with
  | none => rfl
  | some a =>
    cases hs : a.status <;> simp [StageAssignmentStatus.isSettled, StageAssignmentStatus.inFlight,
      hs]

theorem recordsAfter_of_same {records : Nat → Option Record} {assignmentId jitter : Nat}
    {payload : SubmitIn} {worker : AuthenticatedWorker}
    (h : fleetStep f (.submit assignmentId payload worker jitter) = f) :
    recordsAfter f records (.submit assignmentId payload worker jitter) = records := by
  funext id
  simp only [recordsAfter, h, closesRow_self]
  simp

theorem recordsAfter_closed {records : Nat → Option Record} {assignmentId jitter : Nat}
    {payload : SubmitIn} {worker : AuthenticatedWorker}
    (h : closesRow f (fleetStep f (.submit assignmentId payload worker jitter)) assignmentId =
      true) :
    recordsAfter f records (.submit assignmentId payload worker jitter) assignmentId =
      some ⟨worker.workerId, payload.success⟩ := if_pos ⟨rfl, h⟩

theorem recordsAfter_other {records : Nat → Option Record} {id assignmentId jitter : Nat}
    {payload : SubmitIn} {worker : AuthenticatedWorker} (h : id ≠ assignmentId) :
    recordsAfter f records (.submit assignmentId payload worker jitter) id = records id :=
  if_neg fun hboth => h hboth.1

/-- The record of a row a submission addresses, after it. -/
theorem SubmitWatch.Tracked.submitted {w : SubmitWatch} (h : w.Tracked) {id jitter : Nat}
    {payload : SubmitIn} {worker : AuthenticatedWorker}
    (hop : op = .submit id payload worker jitter) :
    recordsAfter w.fleet w.records op id =
      ((fleetStep w.fleet op).db.assignments.get? id).bind (·.record) := by
  subst hop
  have hunchanged : fleetStep w.fleet (.submit id payload worker jitter) = w.fleet →
      recordsAfter w.fleet w.records (.submit id payload worker jitter) id =
        ((fleetStep w.fleet (.submit id payload worker jitter)).db.assignments.get? id).bind
          (·.record) := by
    intro heq
    rw [recordsAfter_of_same heq, h.records, heq]
  rcases fleetStep_cases w.fleet (.submit id payload worker jitter) with ⟨heq, _⟩ | heffect
  · exact hunchanged heq
  obtain ⟨a, haddressed, _, ⟨_, heq⟩ | ⟨_, hadmitted, hafter⟩⟩ := heffect.submission
  · exact hunchanged heq
  · obtain ⟨howner, hheld, _⟩ := assertSubmittable_live hadmitted
    have hcloses : closesRow w.fleet (fleetStep w.fleet (.submit id payload worker jitter)) id =
        true := by
      rw [closesRow, haddressed.found, hafter]
      cases hs : payload.success <;> simp [StageAssignment.complete,
        StageAssignmentStatus.isSettled, hheld]
    rw [recordsAfter_closed hcloses, hafter]
    exact (record_complete howner).symm

/-- **The records stay those the rows show.** -/
theorem SubmitWatch.Tracked.step {w : SubmitWatch} (h : w.Tracked) (hserved : op.isServed = true) :
    (w.step op).Tracked := by
  obtain ⟨hsound, hmoves⟩ := fleetStep_moves w.fleet op h.sound
  refine ⟨hsound, fun id => ?_⟩
  change recordsAfter w.fleet w.records op id =
    ((fleetStep w.fleet op).db.assignments.get? id).bind (·.record)
  have hkept : (∀ eop, op.call? = some eop → ∀ success result message workerId jitter,
      eop ≠ .submit id success result message workerId jitter) →
      w.records id = ((fleetStep w.fleet op).db.assignments.get? id).bind (·.record) := by
    intro hother
    rw [hmoves.record_eq hother]
    exact h.records id
  cases hop : op with
  | submit assignmentId payload worker jitter =>
    by_cases hid : id = assignmentId
    · subst hid
      rw [← hop]
      exact h.submitted hop
    · rw [recordsAfter_other hid, ← hop]
      refine hkept fun eop hcall success result message workerId jitter' heop => ?_
      rw [hop] at hcall
      cases hcall
      cases heop
      exact hid rfl
  | _ =>
    rw [← hop]
    have hsame : recordsAfter w.fleet w.records op = w.records := by rw [hop]; rfl
    rw [hsame]
    refine hkept fun eop hcall success result message workerId jitter => ?_
    exact not_served_submit hserved hcall (by rw [hop]; simp)

/-! ## The answers -/

theorem addressedRow_eq {worker : AuthenticatedWorker} {assignmentId : Nat} {a : StageAssignment} :
    addressedRow f worker assignmentId = some a ↔ Addressed f worker assignmentId a := by
  unfold addressedRow
  constructor
  · intro h
    obtain ⟨c, hc, h⟩ := Option.bind_eq_some_iff.mp h
    split at h
    · rename_i hforce
      obtain ⟨w, hw, h⟩ := Option.bind_eq_some_iff.mp h
      obtain ⟨b, hb, h⟩ := Option.bind_eq_some_iff.mp h
      split at h
      · rename_i hlisted
        cases h
        have hforce' : c.inForce f.db.now = true ∧ c.workerId = worker.workerId := by
          simpa using hforce
        have hlisted' : w.deregisteredAt = none ∧ mayAddress worker w a = true := by
          simpa using hlisted
        exact ⟨⟨c, hc, hforce'⟩, hb, w, hw, hlisted'⟩
      · cases h
    · cases h
  · intro h
    obtain ⟨⟨c, hc, hforce, hbearer⟩, hfound, w, hw, hlisted, haddress⟩ := h
    simp [hc, hforce, hbearer, hfound, hw, hlisted, haddress]

/-- A replay that passes the checks is answered. -/
theorem fleetAnswer_replay {assignmentId jitter : Nat} {payload : SubmitIn}
    {worker : AuthenticatedWorker} {a : StageAssignment} (h : Addressed f worker assignmentId a)
    (hreplay : isReplay f a payload = true) :
    (fleetAnswer f (.submit assignmentId payload worker jitter)).isSome = true := by
  obtain ⟨⟨c, hc, hforce, hbearer⟩, hfound, w, hw, hlisted, haddress⟩ := h
  obtain ⟨hkey, hsettled⟩ := Bool.and_eq_true_iff.mp hreplay
  have hactive : Returns (assertCredentialStillActive worker) f () f := by
    simp [assertCredentialStillActive, hc, hforce, hbearer]
  have hloaded : Returns (loadRegistration worker) f w f := by simp [loadRegistration, hw, hlisted]
  have howned : Returns (loadOwnedAssignment assignmentId worker w) f a f := by
    simp [loadOwnedAssignment, hfound, haddress]
  have heffect :
      Returns (ensureProviderEffectKey a.workspaceId a.id a.attemptNumber payload.providerEffectKey)
        f
      ⟨effectKeyOf a.id payload.providerEffectKey, false⟩ f := by
    simp [ensureProviderEffectKey, hkey]
  have hreturns : Returns (FleetOp.submit assignmentId payload worker jitter).body f
      (some ⟨a.id, a.status, effectKeyOf a.id payload.providerEffectKey, false⟩) f := by
    simp only [FleetOp.body, submitAssignmentResult, returns_bind]
    refine ⟨_, _, ⟨_, _, hactive, _, _, hloaded, _, _, howned, _, _, heffect, ?_⟩, rfl⟩
    simp [hsettled]
  unfold fleetAnswer
  rw [show (FleetOp.submit assignmentId payload worker jitter).body.run f = _ from hreturns]
  rfl

/-- A request that is answered passes the checks. -/
theorem SubmitWatch.Tracked.answer {w : SubmitWatch} (h : w.Tracked) {assignmentId jitter : Nat}
    {payload : SubmitIn} {worker : AuthenticatedWorker}
    (hop : op = .submit assignmentId payload worker jitter)
    (hanswer : (fleetAnswer w.fleet op).isSome = true) :
    recordsAfter w.fleet w.records op assignmentId = some ⟨worker.workerId, payload.success⟩ ↔
      replaysOwn w.fleet op = true := by
  rw [h.submitted hop]
  subst hop
  rcases fleetStep_cases w.fleet (.submit assignmentId payload worker jitter) with
    ⟨_, hnone⟩ | heffect
  · rw [hnone] at hanswer
    cases hanswer
  obtain ⟨a, haddressed, _, ⟨hreplay, heq⟩ | ⟨hfresh, hadmitted, hafter⟩⟩ := heffect.submission
  · have hsettled : a.status.isSettled = true := (Bool.and_eq_true_iff.mp hreplay).2
    rw [heq, haddressed.found]
    simp only [replaysOwn, addressedRow_eq.mpr haddressed, Option.all_some, hreplay, Bool.not_true,
      Bool.false_or, Option.bind_some, StageAssignment.record, hsettled, if_true]
    cases howner : a.workerId with
    | none => simp
    | some x => simp
  · rw [hafter]
    simp only [replaysOwn, addressedRow_eq.mpr haddressed, Option.all_some, hfresh, Bool.not_false,
      Bool.true_or, iff_true]
    exact record_complete (assertSubmittable_live hadmitted).1

/-- **One request keeps the answers to the owners** exactly if a replay is the owner's own. -/
theorem SubmitWatch.Tracked.ownersOnly_step {w : SubmitWatch} (h : w.Tracked)
    (howners : w.OwnersOnly) :
    (w.step op).OwnersOnly ↔ replaysOwn w.fleet op = true := by
  cases hop : op with
  | submit assignmentId payload worker jitter =>
    by_cases hanswer :
      (fleetAnswer w.fleet (.submit assignmentId payload worker jitter)).isSome = true
    · have hiff := h.answer rfl hanswer
      have hanswers : (w.step (.submit assignmentId payload worker jitter)).answers =
          ⟨worker.workerId, payload.success,
            recordsAfter w.fleet w.records (.submit assignmentId payload worker jitter)
              assignmentId⟩ ::
              w.answers := if_pos hanswer
      rw [← hiff, OwnersOnly, hanswers]
      constructor
      · intro hall
        exact hall _ List.mem_cons_self
      · intro hrecord x hx
        rcases List.mem_cons.mp hx with rfl | hx
        · exact hrecord
        · exact howners x hx
    · have hanswers : (w.step (.submit assignmentId payload worker jitter)).answers = w.answers :=
        if_neg hanswer
      have hown : replaysOwn w.fleet (.submit assignmentId payload worker jitter) = true := by
        cases haddressed : addressedRow w.fleet worker assignmentId with
        | none => simp [replaysOwn, haddressed]
        | some a =>
          cases hreplay : isReplay w.fleet a payload with
          | false => simp [replaysOwn, haddressed, hreplay]
          | true =>
            exact absurd (fleetAnswer_replay (addressedRow_eq.mp haddressed) hreplay) hanswer
      rw [OwnersOnly, hanswers, hown]
      exact iff_of_true howners rfl
  | _ =>
    have hanswers : (w.step op).answers = w.answers := by rw [hop]; rfl
    rw [← hop, OwnersOnly, hanswers]
    refine iff_of_true howners ?_
    rw [hop]
    rfl

/-- An error answer leaves nothing behind. -/
theorem fleetStep_of_error {assignmentId jitter : Nat} {payload : SubmitIn}
    {worker : AuthenticatedWorker}
    (h : fleetAnswer f (.submit assignmentId payload worker jitter) = none) :
    fleetStep f (.submit assignmentId payload worker jitter) = f := by
  rcases fleetStep_cases f (.submit assignmentId payload worker jitter) with ⟨heq, _⟩ | heffect
  · exact heq
  · obtain ⟨_, _, hanswer, _⟩ := heffect.submission
    rw [h] at hanswer
    cases hanswer

/-! ## Every history -/

/-- Nothing has been submitted yet. -/
def SubmitWatch.start (f : Fleet) : SubmitWatch := ⟨f, fun _ => none, []⟩

def watchServed (w : SubmitWatch) (op : ServedOp) : SubmitWatch := w.step op

theorem SubmitWatch.tracked_start (hfresh : f.db.Fresh) : (SubmitWatch.start f).Tracked := by
  refine ⟨hfresh.sound, fun id => ?_⟩
  have hempty : f.db.assignments.get? id = none := by
    rw [hfresh.assignments]
    rfl
  change none = (f.db.assignments.get? id).bind (·.record)
  rw [hempty]
  rfl

/-- **Success to the recorded owner**: a history gives every success answer to the owner of the
record, for the outcome on record, exactly if every replay in it is the owner's own; and an error
answer leaves no record behind. -/
theorem success_to_owner (hfresh : f.db.Fresh) (ops : List ServedOp) :
    ((∀ n, (replay watchServed (.start f) (ops.take n)).OwnersOnly) ↔
      admits watchServed (fun w op => replaysOwn w.fleet op) (.start f) ops = true) ∧
    ∀ (g : Fleet) (assignmentId jitter : Nat) (payload : SubmitIn) (worker : AuthenticatedWorker),
      fleetAnswer g (.submit assignmentId payload worker jitter) = none →
        fleetStep g (.submit assignmentId payload worker jitter) = g := by
  refine ⟨?_, fun g assignmentId jitter payload worker => fleetStep_of_error⟩
  refine throughout_iff_admits (I := SubmitWatch.Tracked) (P := SubmitWatch.OwnersOnly)
    (fun w op hw => hw.step op.property) (fun w op hw howners => hw.ownersOnly_step howners) ops
    (.start f) (SubmitWatch.tracked_start hfresh) ?_
  intro x hx
  cases hx

/-- The history of a fleet, each operation with the proof that it is served. -/
def servedHistory (ops : List FleetOp) : List ServedOp :=
  ops.filterMap fun op => if h : op.isServed = true then some ⟨op, h⟩ else none

/-- The worker that holds the assignment completes it, and another submits something else for it. -/
def replayHistory (second : AuthenticatedWorker) (success : Bool) : List ServedOp :=
  servedHistory (givenHistory ++
    [.submit 0 { success := true } firstBearer 0, .submit 0 { success } second 0])

theorem success_to_owner_replayed :
    (∀ n, (replay watchServed (.start demoFleet)
      ((replayHistory firstBearer true).take n)).OwnersOnly) ∧
      (replay watchServed (.start demoFleet)
        (replayHistory firstBearer true)).answers.length = 2 := by
  have hadmits : admits watchServed (fun w op => replaysOwn w.fleet op) (.start demoFleet)
      (replayHistory firstBearer true) = true := by decide +kernel
  exact ⟨(success_to_owner demoFleet_fresh _).1.mpr hadmits, by decide +kernel⟩

/-- A worker that never held the assignment reports it failed, and is answered with success. -/
theorem stranger_replay_accepted :
    ¬ ∀ (f : Fleet) (ops : List ServedOp), f.db.Fresh →
        ∀ n, (replay watchServed (.start f) (ops.take n)).OwnersOnly := by
  intro h
  have howners := h demoFleet (replayHistory secondBearer false) demoFleet_fresh 5
  have hanswer : ∃ x ∈ (replay watchServed (.start demoFleet)
      ((replayHistory secondBearer false).take 5)).answers,
        x.workerId = 1 ∧ x.success = false ∧ x.recorded = some ⟨0, true⟩ := by decide +kernel
  obtain ⟨x, hx, hworker, hsuccess, hrecorded⟩ := hanswer
  have hmine := howners x hx
  rw [hrecorded, hworker] at hmine
  cases hmine

end ContentOrchestrator
