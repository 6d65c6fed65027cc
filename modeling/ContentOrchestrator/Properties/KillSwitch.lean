import ContentOrchestrator.Workers.Stops

/-! # The kill switch

A request is authenticated in one session and handled in another, and a stop may commit
in between. The watch keeps who is past authentication, which credentials a committed
stop was about, and every request that was handled for one of these afterwards. -/

namespace ContentOrchestrator

open Lib

/-- A request handled after its credential was stopped. -/
structure LateRequest where
  before : Fleet
  after : Fleet
  workerId : Nat

/-- An emergency stop as it was committed. -/
structure CommittedStop where
  workspaceId : Nat
  after : Fleet

structure StopWatch where
  fleet : Fleet
  /-- Requests past authentication. -/
  bearers : List AuthenticatedWorker := []
  /-- Credentials issued before a committed stop of their worker. -/
  stopped : List Nat := []
  late : List LateRequest := []
  stops : List CommittedStop := []

/-- The worker that sends the request. -/
def FleetOp.bearer? : FleetOp → Option AuthenticatedWorker
  | register _ worker _ | heartbeat _ worker | deregister worker _ | claim _ worker _ | ack _ worker
  | renew _ worker | submit _ _ worker _ => some worker
  | _ => none

/-- The transaction commits. -/
def fleetCommits (f : Fleet) (op : FleetOp) : Bool :=
  match op.body.run f with
  | .ok _ _ => true
  | .error _ _ => false

/-- The worker is pinned to the workspace, registered or not. -/
def isPinnedTo (db : Db) (workspaceId workerId : Nat) : Bool :=
  db.pins workerId == some (some workspaceId)

/-- The credentials a committed stop is about. -/
def stoppedBy (f : Fleet) (op : FleetOp) : List Nat :=
  if fleetCommits f op then
    match op with
    | .revoke _ workerId _ => (f.credentials.select fun c => c.workerId == workerId).map (·.id)
    | .emergencyStop workspaceId _ =>
      (f.credentials.select fun c => isPinnedTo f.db workspaceId c.workerId).map (·.id)
    | _ => []
  else []

inductive StopOp
  | authenticate (credentialId : Nat) (secretHash : String)
  | serve (op : ServedOp)

/-- The request of a worker is handled, or a transaction of the server. -/
def StopWatch.serve (w : StopWatch) (op : FleetOp) : StopWatch where
  fleet := fleetStep w.fleet op
  bearers := w.bearers
  stopped := stoppedBy w.fleet op ++ w.stopped
  late :=
    match op.bearer? with
    | some worker =>
      if worker.credentialId ∈ w.stopped then
        ⟨w.fleet, fleetStep w.fleet op, worker.workerId⟩ :: w.late
      else w.late
    | none => w.late
  stops :=
    match op with
    | .emergencyStop workspaceId _ =>
      if fleetCommits w.fleet op then ⟨workspaceId, fleetStep w.fleet op⟩ :: w.stops else w.stops
    | _ => w.stops

/-- A request is handled only past authentication. -/
def StopWatch.step (w : StopWatch) : StopOp → StopWatch
  | .authenticate credentialId secretHash =>
    match (getCurrentWorker credentialId secretHash).run w.fleet with
    | .ok worker _ => { w with bearers := worker :: w.bearers }
    | .error _ _ => w
  | .serve op =>
    match op.val.bearer? with
    | some worker => if worker ∈ w.bearers then w.serve op.val else w
    | none => w.serve op.val

def StopSteps (w : StopWatch) (op : StopOp) (w' : StopWatch) : Prop := w.step op = w'

/-! ## What a stop promises -/

/-- What the registry says of a worker: its status, whether it is listed, its load and its last sign
of life. -/
def livenessOf (db : Db) (workerId : Nat) : Option (WorkerStatus × Option Nat × Nat × Option Nat) :=
  (db.workers.get? workerId).map fun w =>
    (w.status, w.deregisteredAt, w.currentLoad, w.lastHeartbeatAt)

/-- The request leaves the registry alone, obtains and extends no assignment and records no
result. -/
structure Harmless (f g : Fleet) (workerId : Nat) : Prop where
  registry : livenessOf g.db workerId = livenessOf f.db workerId
  holdings : ∀ b ∈ g.db.assignments, b.workerId = some workerId → b.status.inFlight = true →
    b ∈ f.db.assignments
  results : ∀ b ∈ g.db.assignments, b.workerId = some workerId → b.status.isSettled = true →
    b ∈ f.db.assignments

/-- No worker pinned to the workspace has an active credential or an assignment in flight. -/
structure Stopped (workspaceId : Nat) (g : Fleet) : Prop where
  credentials : ∀ c ∈ g.credentials, isPinnedTo g.db workspaceId c.workerId = true →
    c.status ≠ .active
  assignments : ∀ a ∈ g.db.assignments, a.status.inFlight = true →
    ∀ workerId, a.workerId = some workerId →
    isPinnedTo g.db workspaceId workerId = false

/-- The kill switch works: requests of stopped credentials are harmless, and a stop is complete. -/
structure StopWatch.Killed (w : StopWatch) : Prop where
  late : ∀ x ∈ w.late, Harmless x.before x.after x.workerId
  stops : ∀ x ∈ w.stops, Stopped x.workspaceId x.after

/-! ## When it does -/

/-- Register, heartbeat and deregister let the request in; none of the three looks at the
credential. -/
def letsIn (f : Fleet) : FleetOp → Bool
  | .register payload worker _ =>
    workerCapabilityProtocolVersions.contains payload.protocolVersion &&
      (f.db.workers.get? worker.workerId).isSome
  | .heartbeat payload worker =>
    payload.status != .offline && (f.db.workers.get? worker.workerId).any fun w =>
      w.deregisteredAt.isNone && decide (payload.currentLoad ≤ w.maxConcurrency)
  | .deregister worker _ => (f.db.workers.get? worker.workerId).any (·.deregisteredAt.isNone)
  | _ => false

/-- One of these is handled for a stopped credential that had been authenticated before. -/
def slipsThrough (w : StopWatch) (op : FleetOp) : Bool :=
  letsIn w.fleet op && op.bearer?.any fun worker =>
    worker ∈ w.bearers && worker.credentialId ∈ w.stopped

/-- The stop passes something by: a deregistered worker with an active credential or an assignment
in flight, an assignment another transaction has locked, or one of a workspace the user that stops
does not administer. -/
def passesBy (f : Fleet) : FleetOp → Bool
  | .emergencyStop workspaceId actor =>
    f.credentials.rows.any (fun c =>
      c.status == .active && isPinnedTo f.db workspaceId c.workerId &&
        !(workspaceWorkers f.db workspaceId).contains c.workerId) ||
      f.db.assignments.rows.any fun a => a.status.inFlight && a.workerId.any fun workerId =>
        isPinnedTo f.db workspaceId workerId &&
          (!(workspaceWorkers f.db workspaceId).contains workerId ||
            actor.locked.contains a.id || !actor.administered.contains a.workspaceId)
  | _ => false

/-- The pins stay, as everywhere. -/
def StopWatch.steady (w : StopWatch) : StopOp → Bool
  | .authenticate _ _ => true
  | .serve op => op.val.keepsPins w.fleet

/-- The condition on a step. -/
def StopWatch.safe (w : StopWatch) : StopOp → Bool
  | .authenticate _ _ => true
  | .serve op => !slipsThrough w op.val && !passesBy w.fleet op.val

/-! ## One transaction -/

variable {f g : Fleet} {op : FleetOp}

/-- A request that takes effect was let in, or its credential is in force. -/
theorem FleetEffect.bearer {answer : Option SubmitOut} (h : FleetEffect op f answer g)
    {worker : AuthenticatedWorker} (hbearer : op.bearer? = some worker) :
    g = f ∨ letsIn f op = true ∨ Credentialed f worker := by
  cases h with
  | registered _ spoken found =>
    refine .inr (.inl ?_)
    simp only [letsIn, found, spoken]
    rfl
  | beat found listed online fits =>
    exact .inr (.inl (by simp [letsIn, found, listed, online, fits]))
  | deregistered found listed _ => exact .inr (.inl (by simp [letsIn, found, listed]))
  | already => exact .inl rfl
  | claimed active =>
    cases hbearer
    exact .inr (.inr active)
  | acknowledged addressed =>
    cases hbearer
    exact .inr (.inr addressed.credentialed)
  | renewed addressed =>
    cases hbearer
    exact .inr (.inr addressed.credentialed)
  | replayed addressed _ => exact .inl rfl
  | submitted addressed _ _ _ _ =>
    cases hbearer
    exact .inr (.inr addressed.credentialed)
  | _ => cases hbearer

theorem Harmless.refl {workerId : Nat} : Harmless f f workerId :=
  ⟨rfl, fun _ hb _ _ => hb, fun _ hb _ _ => hb⟩

/-- **A late request is harmless**, unless it slips through. -/
theorem fleetStep_harmless {worker : AuthenticatedWorker} (hbearer : op.bearer? = some worker)
    (hclosed : letsIn f op = false) {c : WorkerCredential}
    (hfound : f.credentials.get? worker.credentialId = some c) (hstopped : c.status ≠ .active) :
    Harmless f (fleetStep f op) worker.workerId := by
  rcases fleetStep_cases f op with ⟨heq, _⟩ | heffect
  · rw [heq]
    exact .refl
  · rcases heffect.bearer hbearer with heq | hopen | hactive
    · rw [heq]
      exact .refl
    · rw [hclosed] at hopen
      cases hopen
    · obtain ⟨d, hd, hforce, _⟩ := hactive.inForce
      rw [hfound] at hd
      rw [← Option.some.inj hd] at hforce
      simp [WorkerCredential.inForce, hstopped] at hforce

/-- **A stop that passes nothing by is complete.** -/
theorem EachStopped.complete {workspaceId : Nat} {actor : AdminSession}
    (h : EachStopped workspaceId actor (workspaceWorkers f.db workspaceId) f g) (hs : f.db.Sound)
    (hhome : f.AtHome) (hnone : passesBy f (.emergencyStop workspaceId actor) = false) :
    Stopped workspaceId g := by
  have hpins : ∀ workerId, isPinnedTo g.db workspaceId workerId =
      isPinnedTo f.db workspaceId workerId := by
    intro workerId
    rw [isPinnedTo, isPinnedTo, h.pins]
  simp only [passesBy, Bool.or_eq_false_iff, List.any_eq_false] at hnone
  obtain ⟨hcredentials, hassignments⟩ := hnone
  constructor
  · intro c hc hpinned hactive
    rw [hpins] at hpinned
    rcases h.moved.new c hc with ⟨d, hd, hmove⟩ | hnew
    · have hdpinned : isPinnedTo f.db workspaceId d.workerId = true := hmove.worker ▸ hpinned
      have hlisted : d.workerId ∈ workspaceWorkers f.db workspaceId := by
        simpa [hmove.active hactive, hdpinned] using hcredentials d hd
      obtain ⟨pin, hpin, hall⟩ := hhome d hd
      have hspace : d.workspaceId = workspaceId := by
        have hpin' : f.db.pins d.workerId = some (some workspaceId) := by
          simpa [isPinnedTo] using hdpinned
        rw [hpin] at hpin'
        rw [Option.some.inj hpin'] at hall
        simpa using Eq.symm (by simpa using hall)
      exact h.inactive hc (hmove.workspace.trans hspace) (hmove.worker ▸ hlisted) hactive
    · exact hnew.elim
  · intro a ha hheld workerId howner
    rw [hpins]
    by_contra hpinned
    have hpinned : isPinnedTo f.db workspaceId workerId = true := by simpa using hpinned
    have hbefore := (h.moves hs).2.kept ha hheld
    have hreached := hassignments a hbefore
    simp only [hheld, howner, Option.any_some, hpinned, Bool.true_and, Bool.or_eq_true, not_or,
      Bool.not_eq_true', Bool.not_eq_false, List.contains_iff_mem] at hreached
    obtain ⟨⟨hlisted, hunlocked⟩, hspace⟩ := hreached
    rcases h.left hs hlisted ha hheld howner with hlocked | hhidden
    · exact hunlocked hlocked
    · exact hhidden hspace

theorem fleetCommits_effect (h : fleetCommits f op = true) :
    ∃ answer, FleetEffect op f answer (fleetStep f op) := by
  unfold fleetCommits at h
  cases hrun : op.body.run f with
  | ok answer g =>
    have hstep : fleetStep f op = g := Returns.atomically hrun
    exact ⟨answer, hstep ▸ fleetBody_returns hrun⟩
  | error e g =>
    rw [hrun] at h
    cases h

/-- The credentials a stop is about are out of force afterwards. -/
theorem stoppedBy_inactive (hs : f.db.Sound) (hhome : f.AtHome) (hkeeps : op.keepsPins f = true)
    (hnone : passesBy f op = false) {credentialId : Nat} (hmem : credentialId ∈ stoppedBy f op) :
    ∃ c, (fleetStep f op).credentials.get? credentialId = some c ∧ c.status ≠ .active := by
  unfold stoppedBy at hmem
  split at hmem
  · rename_i hcommits
    obtain ⟨answer, heffect⟩ := fleetCommits_effect hcommits
    have hlater : ∀ {c : WorkerCredential}, c ∈ f.credentials →
        ∃ c', (fleetStep f op).credentials.get? c.id = some c' ∧ CredentialMove c c' := fun hc =>
      heffect.credentials.get? (fun _ _ hmove => hmove.id) (Table.get?_of_mem hc)
    cases op with
    | revoke workspaceId workerId locked =>
      obtain ⟨c, hc, rfl⟩ := List.mem_map.mp hmem
      obtain ⟨hc, howner⟩ := Table.mem_select.mp hc
      obtain ⟨c', hc', hmove⟩ := hlater hc
      refine ⟨c', hc', fun hactive => ?_⟩
      have hmem' := (Table.get?_eq_some.mp hc').1
      generalize fleetStep f (.revoke workspaceId workerId locked) = g at heffect hmem'
      cases heffect with
      | revoked _ _ _ =>
        obtain ⟨d, _, rfl⟩ := Table.mem_modifyWhere.mp hmem'
        have howner' := hmove.worker
        split at hactive
        · cases hactive
        · rename_i hother
          rw [if_neg hother] at howner'
          have hsame : c.workerId = workerId := by simpa using howner
          simp [WorkerCredential.isActiveOf, howner', hsame, hactive] at hother
    | emergencyStop workspaceId actor =>
      obtain ⟨c, hc, rfl⟩ := List.mem_map.mp hmem
      obtain ⟨hc, hpinned⟩ := Table.mem_select.mp hc
      obtain ⟨c', hc', hmove⟩ := hlater hc
      refine ⟨c', hc', fun hactive => ?_⟩
      have hmem' := (Table.get?_eq_some.mp hc').1
      have hafter : (fleetStep f (.emergencyStop workspaceId actor)).db.pins c.workerId =
          some (some workspaceId) := heffect.pins hs hkeeps (by simpa [isPinnedTo] using hpinned)
      generalize fleetStep f (.emergencyStop workspaceId actor) = g at heffect hmem' hafter
      cases heffect with
      | stopped each =>
        refine ((stopEach_returns each).complete hs hhome hnone).credentials c' hmem' ?_ hactive
        rw [hmove.worker]
        exact beq_iff_eq.mpr hafter
    | _ => cases hmem
  · cases hmem

/-! ## Every order of requests and stops -/

/-- What the watch knows holds of the tables. -/
structure StopWatch.Guarded (w : StopWatch) : Prop where
  sound : w.fleet.db.Sound
  home : w.fleet.AtHome
  inactive : ∀ id ∈ w.stopped, ∃ c, w.fleet.credentials.get? id = some c ∧ c.status ≠ .active

/-- **One transaction keeps the watch**, and what it adds is as promised. -/
theorem StopWatch.Guarded.serve {w : StopWatch} (h : w.Guarded) (hkilled : w.Killed)
    (hkeeps : op.keepsPins w.fleet = true) (hnone : passesBy w.fleet op = false)
    (hslip : ∀ worker, op.bearer? = some worker → worker.credentialId ∈ w.stopped →
      letsIn w.fleet op = false) : (w.serve op).Guarded ∧ (w.serve op).Killed := by
  refine ⟨⟨(fleetStep_moves w.fleet op h.sound).1, ?_, ?_⟩, ⟨?_, ?_⟩⟩
  · rcases fleetStep_cases w.fleet op with ⟨heq, _⟩ | heffect
    · show (fleetStep w.fleet op).AtHome
      rw [heq]
      exact h.home
    · exact heffect.atHome h.sound hkeeps h.home
  · intro id hid
    rcases List.mem_append.mp hid with hnow | hearlier
    · exact stoppedBy_inactive h.sound h.home hkeeps hnone hnow
    · obtain ⟨c, hfound, hstopped⟩ := h.inactive id hearlier
      rcases fleetStep_cases w.fleet op with ⟨heq, _⟩ | heffect
      · refine ⟨c, ?_, hstopped⟩
        show (fleetStep w.fleet op).credentials.get? id = some c
        rw [heq]
        exact hfound
      · obtain ⟨c', hfound', hmove⟩ := heffect.credentials.get? (fun _ _ hmove => hmove.id) hfound
        exact ⟨c', hfound', fun hactive => hstopped (hmove.active hactive)⟩
  · intro x hx
    simp only [StopWatch.serve] at hx
    split at hx
    · rename_i worker hbearer
      split at hx
      · rename_i hlate
        rcases List.mem_cons.mp hx with rfl | hx
        · obtain ⟨c, hfound, hstopped⟩ := h.inactive _ hlate
          exact fleetStep_harmless hbearer (hslip worker hbearer hlate) hfound hstopped
        · exact hkilled.late x hx
      · exact hkilled.late x hx
    · exact hkilled.late x hx
  · intro x hx
    cases op with
    | emergencyStop workspaceId actor =>
      simp only [StopWatch.serve] at hx
      split at hx
      · rename_i hcommits
        rcases List.mem_cons.mp hx with rfl | hx
        · obtain ⟨answer, heffect⟩ := fleetCommits_effect hcommits
          show Stopped workspaceId (fleetStep w.fleet (.emergencyStop workspaceId actor))
          generalize fleetStep w.fleet (.emergencyStop workspaceId actor) = g at heffect
          cases heffect with
          | stopped each =>
            have hcomplete := (stopEach_returns each).complete h.sound h.home hnone
            exact ⟨hcomplete.credentials, hcomplete.assignments⟩
        · exact hkilled.stops x hx
      · exact hkilled.stops x hx
    | _ => exact hkilled.stops x hx

theorem StopWatch.Guarded.step {w : StopWatch} (h : w.Guarded) (hkilled : w.Killed) {op : StopOp}
    (hsteady : w.steady op = true) (hsafe : w.safe op = true) :
    (w.step op).Guarded ∧ (w.step op).Killed := by
  cases op with
  | authenticate credentialId secretHash =>
    unfold StopWatch.step
    dsimp only
    split
    · exact ⟨⟨h.sound, h.home, h.inactive⟩, ⟨hkilled.late, hkilled.stops⟩⟩
    · exact ⟨h, hkilled⟩
  | serve op =>
    simp only [StopWatch.safe, Bool.and_eq_true, Bool.not_eq_true'] at hsafe
    obtain ⟨hslip, hnone⟩ := hsafe
    unfold StopWatch.step
    dsimp only
    split
    · rename_i worker hbearer
      split
      · rename_i hauthenticated
        refine h.serve hkilled hsteady hnone fun sender hsender hlate => ?_
        rw [hbearer] at hsender
        cases hsender
        simpa [slipsThrough, hbearer, hauthenticated, hlate] using hslip
      · exact ⟨h, hkilled⟩
    · rename_i hserver
      refine h.serve hkilled hsteady hnone fun sender hsender _ => ?_
      rw [hserver] at hsender
      cases hsender

/-- **Kill switch**: in every order of requests and stops in which no request that skips the check
of its credential slips through, and no stop passes anything by, requests of stopped credentials are
harmless and stops are complete. -/
theorem kill_switch (hfresh : f.db.Fresh) (hhome : f.AtHome) {w : StopWatch}
    (h : Reach StopSteps (fun w op => w.steady op = true ∧ w.safe op = true) { fleet := f } w) :
    w.Killed := by
  have hguarded : StopWatch.Guarded { fleet := f } := ⟨hfresh.sound, hhome,
      fun _ hnone => nomatch hnone⟩
  have hkilled : StopWatch.Killed { fleet := f } :=
    ⟨fun _ hnone => (nomatch hnone), fun _ hnone => nomatch hnone⟩
  have hinvariant : w.Guarded ∧ w.Killed := by
    refine h.invariant (P := fun w => w.Guarded ∧ w.Killed) ⟨hguarded, hkilled⟩ ?_
    rintro w op w' ⟨hguarded, hkilled⟩ ⟨hsteady, hsafe⟩ htaken
    rw [← htaken]
    exact hguarded.step hkilled hsteady hsafe
  exact hinvariant.2

theorem demoFleet_atHome : demoFleet.AtHome := by
  show ∀ c ∈ demoFleet.credentials.rows, _
  decide

/-- The transactions among these that are served. -/
def stopHistory (ops : List FleetOp) : List StopOp :=
  ops.filterMap fun op => if h : op.isServed = true then some (.serve ⟨op, h⟩) else none

/-- The first worker gets an assignment and is stopped; a request it sent before comes in
afterwards. -/
def stoppedHistory (request : FleetOp) : List StopOp :=
  .authenticate 0 "a" :: stopHistory (givenHistory ++ [.emergencyStop 0 ⟨[0], []⟩, request])

theorem kill_switch_late_claim :
    (replay StopWatch.step { fleet := demoFleet }
    (stoppedHistory (.claim none firstBearer []))).Killed ∧
      (replay StopWatch.step { fleet := demoFleet }
        (stoppedHistory (.claim none firstBearer []))).late.length = 1 := by
  have hadmits : admits StopWatch.step (fun w op => w.steady op && w.safe op) { fleet := demoFleet }
      (stoppedHistory (.claim none firstBearer [])) = true := by decide +kernel
  refine ⟨kill_switch demoFleet_fresh demoFleet_atHome ((reach_replay _ _ hadmits).mono ?_),
    by decide +kernel⟩
  intro w op hok
  simpa using hok

/-- A heartbeat that was authenticated before the stop puts the worker online again. -/
theorem heartbeat_undoes_stop :
    ¬ ∀ (f : Fleet) (w : StopWatch), f.db.Fresh → f.AtHome →
        Reach StopSteps (fun w op => w.steady op = true) { fleet := f } w → w.Killed := by
  intro h
  let history := stoppedHistory (.heartbeat ⟨.online, 0⟩ firstBearer)
  have hadmits : admits StopWatch.step StopWatch.steady { fleet := demoFleet } history = true := by
    decide +kernel
  have hkilled := h demoFleet _ demoFleet_fresh demoFleet_atHome (reach_replay _ _ hadmits)
  have hlate : (replay StopWatch.step { fleet := demoFleet } history).late.map
      (fun x =>
        ((livenessOf x.before.db x.workerId).map (·.1),
          (livenessOf x.after.db x.workerId).map (·.1))) =
        [(some .offline, some .online)] := by decide +kernel
  obtain ⟨x, hx, hchanged⟩ := List.mem_map.mp (hlate ▸ List.mem_singleton_self _)
  obtain ⟨hbefore, hafter⟩ := Prod.mk.inj hchanged
  have hsame := congrArg (Option.map (·.1)) (hkilled.late x hx).registry
  rw [hbefore, hafter] at hsame
  cases hsame

end ContentOrchestrator
