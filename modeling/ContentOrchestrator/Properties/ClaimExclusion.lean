import ContentOrchestrator.Orchestration.ContentionRows

/-! # One tenure at a time, and one assignment for each claim token

A claim keeps its worker's row locked from the replay lookup to the commit, so what the
lookup did not find is still not there when it grants. The lookup sees dispatched
assignments only: one that was acknowledged in the meantime it does not find. -/

namespace ContentOrchestrator

open Lib

/-- In flight with the worker, claimed under the token. -/
def StageAssignment.heldUnder (workerId token : Nat) (a : StageAssignment) : Bool :=
  a.status.inFlight && a.claimedBy == some workerId && a.claimToken == some token

def tenures (db : Db) (workerId token : Nat) : Nat :=
  db.assignments.count (·.heldUnder workerId token)

/-- No worker holds two assignments under one token. -/
def Db.TokensSingle (db : Db) : Prop := ∀ workerId token, tenures db workerId token ≤ 1

/-- The replay lookup does not find it: it is acknowledged, or outside the worker's workspace. -/
def StageAssignment.isMissed (w : WorkerRegistration) (a : StageAssignment) : Bool :=
  a.status == .acknowledged || !w.serves a.workspaceId

/-- The condition on a step: no replay lookup runs while the worker holds an assignment under the
token that the lookup does not find. -/
def findsHeld (w : World Db RowLock Contender) : Action ContenderRequest BackgroundOp → Bool
  | .run id =>
    (w.running.get? id).all fun x =>
      match x.locals with
      | .claim c =>
        match c.point, c.claimToken with
        | .lookup worker, some token =>
          w.store.assignments.rows.all fun a => !(a.heldUnder worker.id token && a.isMissed worker)
        | _, _ => true
      | .tick _ => true
  | _ => true

/-- What must hold in every state: a grant under way is of a waiting row that nobody else is
granting, tokens are single, and a retry returns what is in flight under its token. -/
structure ClaimsExclusive (w : World Db RowLock Contender) : Prop where
  waiting : ∀ x ∈ w.running, ∀ g, x.locals.own.granted = some g →
    ∃ a, w.store.assignments.get? g.assignmentId = some a ∧ a.status = .pending
  once : ∀ x ∈ w.running, ∀ y ∈ w.running, ∀ g g', x.locals.own.granted = some g →
    y.locals.own.granted = some g' → g.assignmentId = g'.assignmentId → x.id = y.id
  single : w.store.TokensSingle
  replays : ∀ x ∈ w.running, ∀ c worker token, x.locals = .claim c → c.point = .lookup worker →
    c.claimToken = some token → ∀ a ∈ w.store.assignments, a.heldUnder c.workerId token = true →
      findsHeld w (.run x.id) = true →
        contention.next w.store (w.taken x.id) x.held x.locals =
          some (x.held, .claim (c.finish ⟨some a.id, .granted, "idempotent replay"⟩))

variable {db : Db} {workerId token : Nat}

/-! ## Tenures -/

theorem StageAssignment.heldUnder_grant {a : StageAssignment} {w now lease : Nat}
    {claimToken : Option Nat} :
    ((StageAssignment.grant w claimToken now lease).apply a).heldUnder workerId token =
      (w == workerId && claimToken == some token) := by
  simp [StageAssignment.heldUnder, StageAssignment.grant, StageAssignmentStatus.inFlight]

theorem heldUnder_move {op : Op} {s : Db} {a a' : StageAssignment} (h : AssignmentMove op s a a')
    (hop : op.isBackground = true) (hheld : a'.heldUnder workerId token = true) :
    a.heldUnder workerId token = true := by
  cases h with
  | kept => exact hheld
  | granted request _ _ _ =>
    rw [request] at hop
    cases hop
  | acknowledged _ held =>
    have hflight : a.status.inFlight = true := by rw [held]; rfl
    rw [StageAssignment.heldUnder, Bool.and_assoc] at hheld ⊢
    rw [hflight]
    exact (Bool.and_eq_true_iff.mp hheld).2
  | renewed _ _ => exact hheld
  | @submitted success _ _ _ _ _ _ _ => cases success <;> cases hheld
  | requeued _ _ => cases hheld
  | exhausted _ _ => cases hheld
  | cancelled _ _ => cases hheld

theorem background_tenures {op : Op} (hop : op.isBackground = true) :
    tenures (step db op) workerId token ≤ tenures db workerId token :=
  (background_assignments hop).count_le (fun _ _ hmove => hmove.id) (fun _ _ hnew => hnew.elim)
    fun _ _ _ hmove hheld => heldUnder_move hmove hop hheld

/-- A tick's new rows are nobody's claim. -/
def Contender.Unclaimed : Contender → Prop
  | tick t => ∀ a ∈ t.own.created, a.claimedBy = none
  | claim _ => True

theorem TickMove.unclaimed {held' : List RowLock} {t t' : Tick} (h : TickMove db held' t t')
    (hbefore : (Contender.tick t).Unclaimed) : (Contender.tick t').Unclaimed := by
  intro a ha
  cases h with
  | quiet _ own _ =>
    rw [own] at ha
    exact hbefore a ha
  | counted _ own _ _ =>
    rw [own] at ha
    exact hbefore a ha
  | placed _ _ own _ =>
    rw [own] at ha
    rcases List.mem_append.mp ha with hold | hnew
    · exact hbefore a hold
    · rw [List.mem_singleton.mp hnew]
      rfl
  | gaveUp _ own _ _ =>
    rw [own] at ha
    obtain ⟨b, hb, heq⟩ := List.mem_map.mp ha
    have hnone := hbefore b hb
    rw [← heq]
    split
    · exact hnone
    · exact hnone

/-- The commit puts an assignment in flight under the token. -/
def Contender.takes (workerId token : Nat) : Contender → Bool
  | tick _ => false
  | claim c => c.own.granted.isSome && c.workerId == workerId && c.claimToken == some token

theorem commit_tenures (db : Db) {x : Contender} (hshaped : x.Shaped) (hunclaimed : x.Unclaimed)
    (workerId token : Nat) :
    tenures (x.own.apply db) workerId token ≤
      tenures db workerId token + (x.takes workerId token).toNat := by
  cases x with
  | tick t =>
    have hnone : t.own.granted = none := hshaped
    have hinserts := insertAll_count_le (p := (·.heldUnder workerId token))
        (r := (·.heldUnder workerId token))
      (fun _ _ h => h) t.own.created (t.own.changed db.now db.assignments)
    have hcreated : t.own.created.filter (·.heldUnder workerId token) = [] := by
      refine List.filter_eq_nil_iff.mpr fun a ha hheld => ?_
      simp [StageAssignment.heldUnder, hunclaimed a ha] at hheld
    have hcancels : (t.own.changed db.now db.assignments).count (·.heldUnder workerId token) ≤
        db.assignments.count (·.heldUnder workerId token) := by
      rw [OwnWrites.changed, hnone, Table.count_modifyWhere]
      refine Table.count_mono fun a _ hheld => ?_
      split at hheld
      · cases hheld
      · exact hheld
    rw [hcreated] at hinserts
    exact hinserts.trans hcancels
  | claim c =>
    show (c.own.apply db).assignments.count _ ≤ _
    rw [Claiming.apply_assignments db hshaped]
    cases hgranted : c.own.granted with
    | none => exact Nat.le_add_right _ _
    | some g =>
      obtain ⟨now, lease, hupdate⟩ := hshaped.2.2.2 g hgranted
      have htakes : (Contender.claim c).takes workerId token =
          (c.workerId == workerId && c.claimToken == some token) := by
        simp [Contender.takes, hgranted]
      cases hfound : db.assignments.get? g.assignmentId with
      | none =>
        rw [Option.elim_some, Table.modify_of_none hfound]
        exact Nat.le_add_right _ _
      | some a =>
        have hcount := Table.count_modify (u := g.update) hfound (·.heldUnder workerId token)
        have hgained : (g.update.apply a).heldUnder workerId token =
            (Contender.claim c).takes workerId token := by
          rw [htakes, hupdate, StageAssignment.heldUnder_grant]
        rw [hgained] at hcount
        unfold tenures
        rw [Option.elim_some]
        omega

/-! ## What the lookup says until the commit -/

/-- The worker holds nothing under the claim's token. -/
def Claiming.NoneHeld (db : Db) (c : Claiming) : Prop :=
  ∀ token, c.claimToken = some token → tenures db c.workerId token = 0

/-- From the lookup on nothing is held under the token, unless the claim has come to nothing. -/
def Claiming.Looked (db : Db) (c : Claiming) : Prop :=
  match c.point with
  | .worker | .lookup _ => True
  | .done _ => c.own.granted.isSome = true → c.NoneHeld db
  | _ => c.NoneHeld db

def Contender.Exclusive (db : Db) (held : List RowLock) (x : Contender) : Prop :=
  x.Shaped ∧ x.Relied db held ∧ x.Unclaimed ∧
    match x with
    | tick _ => True
    | claim c => c.Looked db

/-- Everything in flight under the token is found, if anything is. -/
theorem heldByToken_of_held {w : WorkerRegistration} {a : StageAssignment} (ha : a ∈ db.assignments)
    (hheld : a.heldUnder w.id token = true) (hmissed : a.isMissed w = false)
    (hsingle : db.TokensSingle) :
    heldByToken db w (some token) = some a := by
  have hunder : ∀ b : StageAssignment, (b.claimedBy == some w.id && b.claimToken == some token &&
      b.status == .dispatched && w.serves b.workspaceId) = true →
        b.heldUnder w.id token = true := by
    intro b hb
    simp only [Bool.and_eq_true, beq_iff_eq] at hb
    simp [StageAssignment.heldUnder, hb.1.1.1, hb.1.1.2, hb.1.2, StageAssignmentStatus.inFlight]
  have hfound : (a.claimedBy == some w.id && a.claimToken == some token &&
      a.status == .dispatched &&
      w.serves a.workspaceId) = true := by
    simp only [StageAssignment.heldUnder, Bool.and_eq_true] at hheld
    obtain ⟨⟨hflight, hworker⟩, htoken⟩ := hheld
    simp only [StageAssignment.isMissed, Bool.or_eq_false_iff, Bool.not_eq_false'] at hmissed
    obtain ⟨hunacknowledged, hserves⟩ := hmissed
    have hdispatched : a.status = .dispatched := by
      cases hstatus : a.status with
      | dispatched => rfl
      | acknowledged =>
        rw [hstatus] at hunacknowledged
        cases hunacknowledged
      | _ =>
        rw [hstatus] at hflight
        cases hflight
    rw [hworker, htoken, hserves, hdispatched]
    rfl
  unfold heldByToken
  rw [Option.bind_some]
  cases hrows : db.assignments.select fun a =>
    a.claimedBy == some w.id && a.claimToken == some token &&
      a.status == .dispatched && w.serves a.workspaceId with
  | nil =>
    rw [Table.select_eq_nil] at hrows
    rw [hrows a ha] at hfound
    cases hfound
  | cons b rest =>
    have hmem : b ∈ db.assignments.select fun a =>
        a.claimedBy == some w.id && a.claimToken == some token &&
        a.status == .dispatched && w.serves a.workspaceId := hrows ▸ List.mem_cons_self
    obtain ⟨hb, hbunder⟩ := Table.mem_select.mp hmem
    have heq : b = a := Table.eq_of_count_le_one (hsingle w.id token) hb ha (hunder b hbunder) hheld
    rw [List.head?_cons, heq]

/-- What the condition says of a claim at its lookup. -/
theorem findsHeld_lookup {w : World Db RowLock Contender} {x : Tx RowLock Contender} {c : Claiming}
    {worker : WorkerRegistration} (hx : x ∈ w.running) (hlocals : x.locals = .claim c)
    (hpoint : c.point = .lookup worker) (htoken : c.claimToken = some token)
    (hok : findsHeld w (.run x.id) = true) {a : StageAssignment} (ha : a ∈ w.store.assignments)
    (hheld : a.heldUnder worker.id token = true) : a.isMissed worker = false := by
  have hfound : w.running.get? x.id = some x := Table.get?_of_mem hx
  simp only [findsHeld, hfound, Option.all_some, hlocals, hpoint, htoken, List.all_eq_true] at hok
  have hfinds := hok a ha
  rw [hheld, Bool.true_and] at hfinds
  simpa using hfinds

/-- A lookup that finds nothing leaves nothing to find. -/
theorem Claiming.NoneHeld.of_lookup {w : WorkerRegistration} {c : Claiming}
    (hworker : w.id = c.workerId) (hfresh : heldByToken db w c.claimToken = none)
    (hsingle : db.TokensSingle)
    (hfinds : ∀ token, c.claimToken = some token → ∀ a ∈ db.assignments, a.heldUnder w.id token =
      true → a.isMissed w = false) : c.NoneHeld db := by
  intro token htoken
  rw [← hworker]
  refine Table.count_eq_zero.mpr fun a ha => ?_
  cases hheld : a.heldUnder w.id token with
  | false => rfl
  | true =>
    have hsome := heldByToken_of_held ha hheld (hfinds token htoken a ha hheld) hsingle
    rw [htoken, hsome] at hfresh
    cases hfresh

theorem ClaimMove.looked {c c' : Claiming} {taken : RowLock → Bool} {held held' : List RowLock}
    (h : ClaimMove db taken held c held' c') (hshaped : (Contender.claim c).Shaped)
    (hlooked : c.Looked db)
    (hlookup : ∀ w, c.point = .lookup w → heldByToken db w c.claimToken = none → c.NoneHeld db) :
    c'.Looked db := by
  have hungranted : (∀ r, c.point ≠ .done r) → c.own.granted.isSome ≠ true := by
    intro hpoint
    rw [hshaped.2.2.1 hpoint]
    exact Bool.false_ne_true
  cases h with
  | ended nothing ungranted => exact fun hsome => absurd hsome (hungranted ungranted)
  | replayed point _ => exact fun hsome => absurd hsome (hungranted (by simp [point]))
  | registered _ _ => trivial
  | searching point fresh => exact hlookup _ point fresh
  | chosen point _ =>
    simp only [Claiming.Looked, point] at hlooked
    exact hlooked
  | unbudgeted point _ =>
    simp only [Claiming.Looked, point] at hlooked
    exact hlooked
  | budgeted point _ =>
    simp only [Claiming.Looked, point] at hlooked
    exact hlooked
  | admitted point _ =>
    simp only [Claiming.Looked, point] at hlooked
    exact hlooked
  | skipped point =>
    simp only [Claiming.Looked, point] at hlooked
    exact hlooked
  | settled point =>
    rename_i row
    have hnone : c.NoneHeld db := by simpa [Claiming.Looked, point] using hlooked
    obtain ⟨quiet, heq | heq⟩ := c.settleSpend_cases db row
    · rw [heq]
      exact fun hsome => absurd hsome (hungranted (by simp [point]))
    · rw [heq]
      exact fun _ => hnone

theorem Claiming.NoneHeld.mono {s t : Db} {c : Claiming} (h : c.NoneHeld s)
    (hless : ∀ token, c.claimToken = some token →
    tenures t c.workerId token ≤ tenures s c.workerId token) :
    c.NoneHeld t := by
  intro token htoken
  have hbefore := h token htoken
  have hafter := hless token htoken
  omega

/-- What the lookup said stays true as long as nobody else claims for the locked worker. -/
theorem Claiming.Looked.mono {s t : Db} {c : Claiming} {held : List RowLock} (h : c.Looked s)
    (hrelies : c.Relies s held) (hshaped : (Contender.claim c).Shaped)
    (hless : .worker c.workerId ∈ held → ∀ token, c.claimToken = some token →
      tenures t c.workerId token ≤ tenures s c.workerId token) : c.Looked t := by
  have hdone : ∀ g, c.own.granted = some g → .worker c.workerId ∈ held := fun g hg =>
    (hrelies.granted hshaped hg).1
  unfold Claiming.Looked at h ⊢
  unfold Claiming.Relies at hrelies
  cases hpoint : c.point <;> simp only [hpoint] at h hrelies ⊢
  case candidate search => exact h.mono (hless hrelies)
  case budget search row savepoint => exact h.mono (hless hrelies.1)
  case count search row savepoint => exact h.mono (hless hrelies.1)
  case reserve row => exact h.mono (hless hrelies.1)
  case done result =>
    intro hsome
    obtain ⟨g, hg⟩ := Option.isSome_iff_exists.mp hsome
    exact (h hsome).mono (hless (hdone g hg))

/-- A claim that takes a tenure has locked its worker. -/
theorem Contender.Exclusive.worker_locked {x : Contender} {held : List RowLock}
    (h : x.Exclusive db held) (htakes : x.takes workerId token = true) :
    .worker workerId ∈ held := by
  obtain ⟨hshaped, hrelied, _, _⟩ := h
  cases x with
  | tick t => cases htakes
  | claim c =>
    simp only [Contender.takes, Bool.and_eq_true, beq_iff_eq] at htakes
    obtain ⟨g, hg⟩ := Option.isSome_iff_exists.mp htakes.1.1
    have hlocked : RowLock.worker c.workerId ∈ held :=
      (Claiming.Relies.granted hrelied.2 hshaped hg).1
    rw [htakes.1.2] at hlocked
    exact hlocked

/-- **A commit keeps tokens single**: a claim that takes a tenure has found none under its token. -/
theorem Contender.Exclusive.tokensSingle {x : Contender} {held : List RowLock}
    (h : x.Exclusive db held) (hsingle : db.TokensSingle) : (x.own.apply db).TokensSingle := by
  intro workerId token
  have hcommit := commit_tenures db h.1 h.2.2.1 workerId token
  cases htakes : x.takes workerId token with
  | false =>
    rw [htakes] at hcommit
    exact hcommit.trans (hsingle workerId token)
  | true =>
    rw [htakes] at hcommit
    have hnone : tenures db workerId token = 0 := by
      cases x with
      | tick t => cases htakes
      | claim c =>
        obtain ⟨hshaped, _, _, hlooked⟩ := h
        simp only [Contender.takes, Bool.and_eq_true, beq_iff_eq] at htakes
        obtain ⟨⟨hsome, hworker⟩, htoken⟩ := htakes
        have hdone : ∃ result, c.point = .done result := by
          by_contra hnot
          rw [hshaped.2.2.1 fun r hr => hnot ⟨r, hr⟩] at hsome
          cases hsome
        obtain ⟨result, hpoint⟩ := hdone
        simp only [Claiming.Looked, hpoint] at hlooked
        rw [← hworker]
        exact hlooked hsome token htoken
    rw [hnone] at hcommit
    exact hcommit

/-! ## Every interleaving -/

theorem claims_outline :
    Outline contention (fun w a => findsHeld w a = true) Db.TokensSingle Contender.Exclusive where
  starts := by
    intro w request _ _
    obtain ⟨hshaped, hrelied⟩ := contention_start_relied w.store request
    refine ⟨hshaped, hrelied, ?_⟩
    cases request with
    | tick batchSize jitter => exact ⟨fun _ ha => absurd ha List.not_mem_nil, trivial⟩
    | claim workerId claimToken => exact ⟨trivial, trivial⟩
  runs := by
    intro w x held locals hw hx hok hnext _
    obtain ⟨hshaped, hrelied, hunclaimed, hlooked⟩ := hw.running x hx
    refine ⟨contention_next_shaped hnext hshaped, contention_next_relied hnext hshaped hrelied, ?_⟩
    cases hlocals : x.locals with
    | tick t =>
      rw [hlocals] at hnext hunclaimed
      obtain ⟨⟨held', t'⟩, hstep, heq⟩ := Option.map_eq_some_iff.mp hnext
      cases heq
      exact ⟨(Tick.next_move hstep).unclaimed hunclaimed, trivial⟩
    | claim c =>
      rw [hlocals] at hnext hshaped hrelied hlooked
      obtain ⟨⟨held', c'⟩, hstep, heq⟩ := Option.map_eq_some_iff.mp hnext
      cases heq
      refine ⟨trivial, (Claiming.next_move hstep).looked hshaped hlooked
        fun worker hpoint hfresh => ?_⟩
      have hrelies : c.Relies w.store x.held := hrelied.2
      simp only [Claiming.Relies, hpoint] at hrelies
      exact .of_lookup hrelies.2 hfresh hw.store fun token htoken a ha hheld =>
        findsHeld_lookup hx hlocals hpoint htoken hok ha hheld
  commits := by
    intro w x u hw hx _ hcommit
    have hexclusive := hw.running x hx
    rw [contention_commit hcommit]
    refine ⟨hexclusive.tokensSingle hw.store, fun y hy hne => ?_⟩
    have hapart := hw.exclusive y hy x hx hne
    obtain ⟨hshaped, hrelied, hunclaimed, hlooked⟩ := hw.running y hy
    refine ⟨hshaped, hrelied.commit hexclusive.2.1 hapart, hunclaimed, ?_⟩
    cases hlocals : y.locals with
    | tick t => trivial
    | claim c =>
      rw [hlocals] at hshaped hrelied hlooked
      refine hlooked.mono hrelied.2 hshaped fun hworker token htoken => ?_
      have htenures := commit_tenures w.store hexclusive.1 hexclusive.2.2.1 c.workerId token
      cases htakes : x.locals.takes c.workerId token with
      | false =>
        rw [htakes] at htenures
        exact htenures
      | true => exact absurd (hexclusive.worker_locked htakes) (hapart _ hworker)
  others := by
    intro w event hw _ hfree
    refine ⟨fun workerId token =>
      (background_tenures event.2).trans (hw.store workerId token), fun y hy => ?_⟩
    obtain ⟨hshaped, hrelied, hunclaimed, hlooked⟩ := hw.running y hy
    refine ⟨hshaped, hrelied.background event.2 (hfree y hy), hunclaimed, ?_⟩
    cases hlocals : y.locals with
    | tick t => trivial
    | claim c =>
      rw [hlocals] at hshaped hrelied hlooked
      exact hlooked.mono hrelied.2 hshaped fun _ _ _ => background_tenures event.2

/-- What the outline says of a state. -/
theorem claimsExclusive_of_holds {w : World Db RowLock Contender}
    (hw : w.Holds Db.TokensSingle Contender.Exclusive) : ClaimsExclusive w where
  single := hw.store
  waiting := by
    intro x hx g hg
    obtain ⟨hshaped, hrelied, _, _⟩ := hw.running x hx
    cases hlocals : x.locals with
    | tick t =>
      rw [hlocals] at hshaped hg
      have hnone : t.own.granted = none := hshaped
      have hsome : t.own.granted = some g := hg
      rw [hnone] at hsome
      cases hsome
    | claim c =>
      rw [hlocals] at hshaped hrelied hg
      obtain ⟨_, row, hid, hkept⟩ := Claiming.Relies.granted hrelied.2 hshaped hg
      exact ⟨row, hid ▸ hkept.stored, hkept.waiting⟩
  once := by
    intro x hx y hy g g' hg hg' heq
    have hxlocked := (hw.running x hx).2.1.1.2 g hg
    have hylocked := (hw.running y hy).2.1.1.2 g' hg'
    by_contra hne
    exact hw.exclusive x hx y hy hne _ hxlocked (heq ▸ hylocked)
  replays := by
    intro x hx c worker token hlocals hpoint htoken a ha hheld hok
    have hrelied := (hw.running x hx).2.1
    rw [hlocals] at hrelied
    have hrelies : c.Relies w.store x.held := hrelied.2
    simp only [Claiming.Relies, hpoint] at hrelies
    rw [← hrelies.2] at hheld
    have hmissed := findsHeld_lookup hx hlocals hpoint htoken hok ha hheld
    have hfound := heldByToken_of_held ha hheld hmissed hw.store
    simp only [contention, hlocals, Claiming.next, hpoint, htoken, hfound, Option.map_some]

/-- **Claim exclusion and token idempotency**: in every interleaving in which no replay lookup runs
while its worker holds an acknowledged assignment under the token, no assignment is granted to two
tenures at once, each worker has at most one assignment in flight under a token, and a retry returns
it. -/
theorem claims_exclusive {db : Db} (hstart : db.TokensSingle) {w : World Db RowLock Contender}
    (h : Reach contention.Steps (fun w a => findsHeld w a = true) { store := db } w) :
    ClaimsExclusive w :=
  claimsExclusive_of_holds (claims_outline.sound (.idle hstart) h)

/-! ## A retry before the acknowledgement, and one after it -/

theorem demoDb_tokensSingle : demoDb.TokensSingle := by
  intro workerId token
  have hnone : tenures demoDb workerId token = 0 := rfl
  rw [hnone]
  exact Nat.zero_le _

/-- The retry gets the assignment it already has. -/
theorem claims_exclusive_retry :
    ClaimsExclusive (replay contention.step { store := demoDb }
        (waitingRuns ++ firstClaim ++ secondClaim (some 7))) ∧
      tenures (replay contention.step { store := demoDb }
        (waitingRuns ++ firstClaim ++ secondClaim (some 7))).store 0 7 = 1 := by
  have hadmits : admits contention.step findsHeld { store := demoDb }
      (waitingRuns ++ firstClaim ++ secondClaim (some 7)) = true := by decide +kernel
  exact ⟨claims_exclusive demoDb_tokensSingle (reach_replay _ _ hadmits), by decide +kernel⟩

/-- The worker acknowledges what it was granted. -/
def acknowledgement : List (Action ContenderRequest BackgroundOp) := [.other ⟨.ack 0 none 0, rfl⟩]

/-- After the acknowledgement the retry gets a second assignment. -/
theorem retry_after_ack_granted_again :
    ¬ ∀ (db : Db) (w : World Db RowLock Contender), db.TokensSingle →
        Reach contention.Steps (fun _ _ => True) { store := db } w → ClaimsExclusive w := by
  intro h
  have hexclusive := h demoDb _ demoDb_tokensSingle
    (reach_any (waitingRuns ++ firstClaim ++ acknowledgement ++ secondClaim (some 7)) _)
  have hsingle := hexclusive.single 0 7
  have htwo : tenures (replay contention.step { store := demoDb }
      (waitingRuns ++ firstClaim ++ acknowledgement ++ secondClaim (some 7))).store 0 7 = 2 := by
        decide +kernel
  rw [htwo] at hsingle
  have hmax : ¬ 2 ≤ 1 := by omega
  exact hmax hsingle

end ContentOrchestrator
