import ContentOrchestrator.Workers.FleetMoves

/-! # Results of an earlier tenure

A submission names the assignment and its sender, not the attempt its result was
produced under. Messages may be late and may be repeated: the watch keeps every tenure
there ever was, and a submission of any of them may arrive at any time. -/

namespace ContentOrchestrator

open Lib

/-- One attempt of an assignment in the hands of a worker. -/
structure Tenure where
  assignmentId : Nat
  attempt : Nat
  workerId : Nat
deriving DecidableEq, Repr

/-- A result that closed a row: the tenure it was produced under, and the one it was applied to. -/
structure Applied where
  produced : Tenure
  current : Tenure
deriving DecidableEq, Repr

structure FenceWatch where
  fleet : Fleet
  tenures : List Tenure
  applied : List Applied

def FleetOp.isSubmission : FleetOp → Bool
  | submit _ _ _ _ => true
  | _ => false

/-- Everything but a submission. -/
abbrev ServerOp := { op : FleetOp // (op.isServed && !op.isSubmission) = true }

inductive FenceOp
  | server (op : ServerOp)
  | submit (assignmentId attempt : Nat) (payload : SubmitIn) (worker : AuthenticatedWorker)
      (jitter : Nat)

/-- The transaction that the server runs; it does not see the attempt of a submission. -/
def FenceOp.op : FenceOp → FleetOp
  | server op => op.val
  | submit assignmentId _ payload worker jitter => .submit assignmentId payload worker jitter

/-- The tenure of a row in flight. -/
def StageAssignment.tenure? (a : StageAssignment) : Option Tenure :=
  if a.status.inFlight then a.workerId.map fun workerId =>
    ⟨a.id, a.attemptNumber, workerId⟩ else none

/-- The tenures that run now. -/
def runningTenures (db : Db) : List Tenure := db.assignments.rows.filterMap (·.tenure?)

/-- The row the submission closes, if it does. -/
def closedTenure (f g : Fleet) (assignmentId : Nat) : Option Tenure :=
  (f.db.assignments.get? assignmentId).bind fun a =>
    (g.db.assignments.get? assignmentId).bind fun b =>
      if b.status.isSettled then a.tenure? else none

/-- A submission exists only under a tenure that was granted to its sender. -/
def FenceWatch.step (w : FenceWatch) (op : FenceOp) : FenceWatch :=
  let g := fleetStep w.fleet op.op
  match op with
  | .server _ => { w with fleet := g, tenures := runningTenures g.db ++ w.tenures }
  | .submit assignmentId attempt _ worker _ =>
    let produced : Tenure := ⟨assignmentId, attempt, worker.workerId⟩
    if produced ∈ w.tenures then
      { fleet := g
        tenures := runningTenures g.db ++ w.tenures
        applied :=
          ((closedTenure w.fleet g assignmentId).map fun current => ⟨produced, current⟩).toList ++
          w.applied }
    else w

def FenceSteps (w : FenceWatch) (op : FenceOp) (w' : FenceWatch) : Prop := w.step op = w'

/-- Every result was applied to the tenure it was produced under. -/
def FenceWatch.Fenced (w : FenceWatch) : Prop := ∀ x ∈ w.applied, x.current = x.produced

/-- The sender holds the row again, under a later attempt, when its old result arrives. -/
def arrivesLate (w : FenceWatch) : FenceOp → Bool
  | .server _ => false
  | .submit assignmentId attempt _ worker _ =>
    (w.fleet.db.assignments.get? assignmentId).any fun a =>
      a.status.inFlight && a.workerId == some worker.workerId && !a.leaseExpired w.fleet.db.now &&
        decide (attempt < a.attemptNumber)

/-! ## Attempts go up -/

variable {f g : Fleet} {op : FleetOp}

theorem FleetMove.attempt_le {a a' : StageAssignment} (h : FleetMove op f a a') :
    a.attemptNumber ≤ a'.attemptNumber := by
  cases h with
  | called _ move =>
    cases move with
    | requeued _ _ => exact Nat.le_succ _
    | _ => exact Nat.le_refl _
  | reclaimed move =>
    cases move with
    | requeued _ => exact Nat.le_succ _
    | _ => exact Nat.le_refl _

/-- The attempts of the past are not ahead of their rows. -/
structure FenceWatch.Ordered (w : FenceWatch) : Prop where
  sound : w.fleet.db.Sound
  past : ∀ tenure ∈ w.tenures, ∃ a, w.fleet.db.assignments.get? tenure.assignmentId = some a ∧
    tenure.attempt ≤ a.attemptNumber

theorem mem_runningTenures {db : Db} {tenure : Tenure} (h : tenure ∈ runningTenures db) :
    ∃ a, db.assignments.get? tenure.assignmentId = some a ∧ tenure.attempt ≤ a.attemptNumber := by
  obtain ⟨a, ha, htenure⟩ := List.mem_filterMap.mp h
  unfold StageAssignment.tenure? at htenure
  split at htenure
  · obtain ⟨workerId, _, rfl⟩ := Option.map_eq_some_iff.mp htenure
    exact ⟨a, Table.get?_of_mem ha, Nat.le_refl _⟩
  · cases htenure

/-- **One transaction keeps the order.** -/
theorem FenceWatch.Ordered.transaction {w : FenceWatch} (h : w.Ordered) (op : FleetOp)
    (applied : List Applied) :
    Ordered ⟨fleetStep w.fleet op, runningTenures (fleetStep w.fleet op).db ++ w.tenures,
      applied⟩ := by
  obtain ⟨hsound, hmoves⟩ := fleetStep_moves w.fleet op h.sound
  refine ⟨hsound, fun tenure htenure => ?_⟩
  rcases List.mem_append.mp htenure with hnow | hpast
  · exact mem_runningTenures hnow
  · obtain ⟨a, ha, hle⟩ := h.past tenure hpast
    obtain ⟨b, hb, hmove⟩ := hmoves.get? (fun _ _ hmove => hmove.id) ha
    exact ⟨b, hb, hle.trans hmove.attempt_le⟩

theorem FenceWatch.Ordered.step {w : FenceWatch} (h : w.Ordered) (op : FenceOp) :
    (w.step op).Ordered := by
  cases op with
  | server op => exact h.transaction op.val w.applied
  | submit assignmentId attempt payload worker jitter =>
    unfold FenceWatch.step
    dsimp only
    split
    · exact h.transaction _ _
    · exact h

/-! ## What a submission is applied to -/

/-- The row a submission closes was held by its sender under a live lease. -/
theorem closedTenure_submit {assignmentId jitter : Nat} {payload : SubmitIn}
    {worker : AuthenticatedWorker} {current : Tenure}
    (h : closedTenure f (fleetStep f (.submit assignmentId payload worker jitter)) assignmentId =
      some current) :
    ∃ a, f.db.assignments.get? assignmentId = some a ∧ a.workerId = some worker.workerId ∧
      a.status.inFlight = true ∧ a.leaseExpired f.db.now = false ∧
        current = ⟨assignmentId, a.attemptNumber, worker.workerId⟩ := by
  obtain ⟨a, hfound, h⟩ := Option.bind_eq_some_iff.mp h
  obtain ⟨b, hafter, h⟩ := Option.bind_eq_some_iff.mp h
  split at h
  · rename_i hsettled
    have hid : a.id = assignmentId := (Table.get?_eq_some.mp hfound).2
    unfold StageAssignment.tenure? at h
    split at h
    · rename_i hheld
      obtain ⟨workerId, howner, rfl⟩ := Option.map_eq_some_iff.mp h
      have hunchanged : fleetStep f (.submit assignmentId payload worker jitter) ≠ f := by
        intro heq
        rw [heq, hfound] at hafter
        rw [← Option.some.inj hafter] at hsettled
        cases hs : a.status <;> rw [hs] at hheld hsettled <;> cases hheld <;> cases hsettled
      rcases fleetStep_cases f (.submit assignmentId payload worker jitter) with ⟨heq, _⟩ | heffect
      · exact absurd heq hunchanged
      obtain ⟨c, haddressed, _, ⟨_, heq⟩ | ⟨_, hadmitted, _⟩⟩ := heffect.submission
      · exact absurd heq hunchanged
      have hsame : c = a := Option.some.inj (haddressed.found.symm.trans hfound)
      rw [hsame] at hadmitted
      obtain ⟨hsender, _, hlive⟩ := assertSubmittable_live hadmitted
      have hworker : workerId = worker.workerId := Option.some.inj (howner.symm.trans hsender)
      exact ⟨a, hfound, hsender, hheld, hlive, by rw [hid, hworker]⟩
    · cases h
  · cases h

/-- **One message is applied to its own tenure**, unless it arrives late. -/
theorem FenceWatch.Ordered.fenced_step {w : FenceWatch} (h : w.Ordered) {op : FenceOp}
    (hlate : arrivesLate w op = false) (hfenced : w.Fenced) : (w.step op).Fenced := by
  cases op with
  | server op => exact hfenced
  | submit assignmentId attempt payload worker jitter =>
    unfold FenceWatch.step
    dsimp only
    split
    · rename_i hproduced
      intro x hx
      rcases List.mem_append.mp hx with hnew | hold
      · obtain ⟨current, hclosed, rfl⟩ := Option.map_eq_some_iff.mp (Option.mem_toList.mp hnew)
        obtain ⟨a, hfound, howner, hheld, hlive, rfl⟩ := closedTenure_submit hclosed
        obtain ⟨b, hb, hle⟩ := h.past _ hproduced
        have hsame : b = a := Option.some.inj (hb.symm.trans hfound)
        rw [hsame] at hle
        have hnot : ¬ attempt < a.attemptNumber := by
          simpa [arrivesLate, hfound, howner, hheld, hlive] using hlate
        have hattempt : a.attemptNumber = attempt := Nat.le_antisymm (Nat.le_of_not_lt hnot) hle
        rw [hattempt]
      · exact hfenced x hold
    · exact hfenced

/-! ## Every order of messages -/

def FenceWatch.start (f : Fleet) : FenceWatch := ⟨f, [], []⟩

theorem FenceWatch.ordered_start (hfresh : f.db.Fresh) : (FenceWatch.start f).Ordered :=
  ⟨hfresh.sound, fun _ hnone => nomatch hnone⟩

/-- **Submit fencing**: whatever the order of the messages, as long as no result reaches the server
while its sender holds the row again under a later attempt, every result is applied to the tenure it
was produced under. -/
theorem submit_fenced (hfresh : f.db.Fresh) {w : FenceWatch}
    (h : Reach FenceSteps (fun w op => arrivesLate w op = false) (.start f) w) : w.Fenced := by
  have hinvariant : w.Ordered ∧ w.Fenced := by
    refine h.invariant (P := fun w => w.Ordered ∧ w.Fenced) ⟨FenceWatch.ordered_start hfresh, ?_⟩ ?_
    · intro x hx
      cases hx
    · rintro w op w' ⟨hordered, hfenced⟩ hlate htaken
      rw [← htaken]
      exact ⟨hordered.step op, hordered.fenced_step hlate hfenced⟩
  exact hinvariant.2

def serverHistory (ops : List FleetOp) : List FenceOp :=
  ops.filterMap fun op => if h : (op.isServed && !op.isSubmission) = true then
    some (.server ⟨op, h⟩) else none

/-- The first worker loses its assignment, and `next` gets it; then the first result arrives. -/
def lostHistory (next : AuthenticatedWorker) : List FenceOp :=
  serverHistory (givenHistory ++ [.engine (.recover 0 .leaseExpired), .claim none next []]) ++
    [.submit 0 1 { success := true } firstBearer 0]

/-- In another worker's hands the assignment is safe from the old result. -/
theorem submit_fenced_other_worker :
    (replay FenceWatch.step (.start demoFleet) (lostHistory secondBearer)).Fenced ∧
      runningTenures (replay FenceWatch.step (.start demoFleet)
        (lostHistory secondBearer)).fleet.db =
        [⟨0, 2, 1⟩] := by
  have hadmits : admits FenceWatch.step (fun w op => !arrivesLate w op) (.start demoFleet)
      (lostHistory secondBearer) = true := by decide +kernel
  refine ⟨submit_fenced demoFleet_fresh
    ((reach_replay (lostHistory secondBearer) _ hadmits).mono ?_),
    by decide +kernel⟩
  intro w op hok
  simpa using hok

/-- The worker that lost the assignment claims it back, and its old result completes the new
attempt. -/
theorem old_result_completes_new_attempt :
    ¬ ∀ (f : Fleet) (w : FenceWatch), f.db.Fresh →
        Reach FenceSteps (fun _ _ => True) (.start f) w → w.Fenced := by
  intro h
  have hreach : Reach FenceSteps (fun _ _ => True) (.start demoFleet)
      (replay FenceWatch.step (.start demoFleet) (lostHistory firstBearer)) := reach_any _ _
  have hfenced := h demoFleet _ demoFleet_fresh hreach
  have happlied : ⟨⟨0, 1, 0⟩, ⟨0, 2, 0⟩⟩ ∈
      (replay FenceWatch.step (.start demoFleet) (lostHistory firstBearer)).applied := by
        decide +kernel
  have hsame := hfenced _ happlied
  cases hsame

end ContentOrchestrator
