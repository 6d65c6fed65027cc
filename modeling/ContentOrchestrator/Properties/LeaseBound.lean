import ContentOrchestrator.Orchestration.AssignmentMoves

/-! # How long a worker holds an assignment

A tenure begins when a dispatch or a claim sets the start of the lease and ends when a
result or a recovery clears it. Within a tenure the start stays, every extension moves
the end forward, and no end lies further from the start than the larger of the lease's
length and the longest total lease. -/

namespace ContentOrchestrator

open Lib

variable {s t : Db} {a a' : StageAssignment}

/-- The settings a lease is measured by. -/
def Db.leaseSettings (db : Db) : Nat × Nat :=
  (db.settings.assignmentLeaseSeconds, db.settings.assignmentMaxLeaseSeconds)

/-- The longest a lease may run from its start. -/
def Db.leaseBound (db : Db) : Nat :=
  seconds (max db.settings.assignmentLeaseSeconds db.settings.assignmentMaxLeaseSeconds)

/-- The endpoints pass no length of their own, and the settings stay. -/
def keepsLeases (db : Db) : Op → Bool
  | .ack _ leaseSeconds _ => leaseSeconds.isNone
  | .renew _ leaseSeconds _ => leaseSeconds.isNone
  | .change _ (some environment) =>
    decide ((environment.settings.assignmentLeaseSeconds,
      environment.settings.assignmentMaxLeaseSeconds) =
      db.leaseSettings)
  | _ => true

/-! ## What one step does to a lease -/

inductive LeaseMove (s : Db) (a a' : StageAssignment) : Prop
  | kept (started : a'.leaseStartedAt = a.leaseStartedAt)
      (expires : a'.leaseExpiresAt = a.leaseExpiresAt)
      (waiting : a'.status = .pending → a.status = .pending)
  | cleared (started : a'.leaseStartedAt = none) (expires : a'.leaseExpiresAt = none)
  | granted (waiting : a.status = .pending) (held : a'.status ≠ .pending)
      (started : a'.leaseStartedAt = some s.now)
      (expires : a'.leaseExpiresAt = some (s.now + seconds s.settings.assignmentLeaseSeconds))
  | extended {workerId : Nat} (held : a'.status ≠ .pending)
      (admitted : assertLeaseExtendable s a workerId s.settings.assignmentLeaseSeconds = .ok ())
      (started : a'.leaseStartedAt = some (a.leaseStartedAt.getD (a.dispatchedAt.getD s.now)))
      (expires : a'.leaseExpiresAt = some (s.now + seconds s.settings.assignmentLeaseSeconds))

/-- A new row waits without a lease, or its lease begins now. -/
inductive NewLease (s : Db) (a : StageAssignment) : Prop
  | waiting (started : a.leaseStartedAt = none) (expires : a.leaseExpiresAt = none)
  | granted (held : a.status ≠ .pending) (started : a.leaseStartedAt = some s.now)
      (expires : a.leaseExpiresAt = some (s.now + seconds s.settings.assignmentLeaseSeconds))

/-- What the checks of an extension say about the row's lease. -/
theorem extendable_of_ok {workerId leaseSeconds : Nat}
    (h : assertLeaseExtendable s a workerId leaseSeconds = .ok ()) :
    a.leaseExpired s.now = false ∧ s.now + seconds leaseSeconds ≤
      a.leaseStartedAt.getD (a.dispatchedAt.getD s.now) +
        seconds s.settings.assignmentMaxLeaseSeconds := by
  have hheld := assertLeaseExtendable_ok h
  unfold assertLeaseExtendable at h
  cases hexpired : a.leaseExpired s.now with
  | true =>
    simp only [hheld, hexpired, Bool.not_true, Bool.false_eq_true, if_false, if_true] at h
    split at h <;> cases h
  | false =>
    refine ⟨rfl, ?_⟩
    by_contra hlong
    simp only [hheld, hexpired, Bool.not_true, Bool.false_eq_true, if_false,
      if_pos (Nat.lt_of_not_le hlong)] at h
    split at h <;> cases h

theorem ack_returns {assignmentId workerId : Nat} {u : Unit}
    (h : Returns (acknowledge assignmentId none (some workerId)) s u t) :
    ∃ a, s.assignments.get? assignmentId = some a ∧
      assertLeaseExtendable s a workerId s.settings.assignmentLeaseSeconds = .ok () ∧
      t.assignments = s.assignments.modify assignmentId
        ((StageAssignment.acknowledged s.now).andThen
        (StageAssignment.extendLease s.now s.settings.assignmentLeaseSeconds)) := by
  unfold acknowledge at h
  simp only [returns_bind, returns_loadAssignment, returns_get, returns_liftExcept] at h
  obtain ⟨a, _, ⟨hload, rfl⟩, _, _, ⟨rfl, rfl⟩, _, _, ⟨hadmitted, rfl⟩, h⟩ := h
  split at h
  · simp at h
  · simp only [returns_modify] at h
    exact ⟨a, hload, hadmitted, h ▸ Table.modify_modify⟩

theorem renew_returns {assignmentId workerId : Nat} {u : Unit}
    (h : Returns (renewLease assignmentId none (some workerId)) s u t) :
    ∃ a, s.assignments.get? assignmentId = some a ∧
      assertLeaseExtendable s a workerId s.settings.assignmentLeaseSeconds = .ok () ∧
      t.assignments = s.assignments.modify assignmentId
        (StageAssignment.extendLease s.now s.settings.assignmentLeaseSeconds) := by
  unfold renewLease at h
  simp only [returns_bind, returns_loadAssignment, returns_get, returns_liftExcept,
    returns_modify] at h
  obtain ⟨a, _, ⟨hload, rfl⟩, _, _, ⟨rfl, rfl⟩, _, _, ⟨hadmitted, rfl⟩, h⟩ := h
  exact ⟨a, hload, hadmitted, h ▸ rfl⟩

/-- A refusal comes before every write. -/
theorem ack_raises {assignmentId workerId : Nat} {leaseSeconds : Option Nat}
    {e : OrchestrationError}
    (h : Raises (acknowledge assignmentId leaseSeconds (some workerId)) s e t) : t = s := by
  unfold acknowledge at h
  simp only [loadAssignment, raises_bind, returns_bind, raises_get, returns_get, raises_require,
    returns_require, raises_liftExcept, returns_liftExcept, false_or] at h
  rcases h with ⟨_, _, ⟨rfl, rfl⟩, -, -, rfl⟩ |
    ⟨a, _, ⟨_, _, ⟨rfl, rfl⟩, -, rfl⟩, _, _, ⟨rfl, rfl⟩, ⟨-, rfl⟩ | ⟨_, _, ⟨-, rfl⟩, h⟩⟩
  · rfl
  · rfl
  · split at h
    · have hraised : OrchestrationError.leaseConflict "invalid_status" = e ∧ s = t := by
        simpa using h
      exact hraised.2.symm
    · simp at h

theorem renew_raises {assignmentId workerId : Nat} {leaseSeconds : Option Nat}
    {e : OrchestrationError}
    (h : Raises (renewLease assignmentId leaseSeconds (some workerId)) s e t) : t = s := by
  unfold renewLease at h
  simp only [loadAssignment, raises_bind, returns_bind, raises_get, returns_get, raises_require,
    returns_require, raises_liftExcept, returns_liftExcept, raises_modify, false_or] at h
  rcases h with ⟨_, _, ⟨rfl, rfl⟩, -, -, rfl⟩ |
    ⟨a, _, ⟨_, _, ⟨rfl, rfl⟩, -, rfl⟩, _, _, ⟨rfl, rfl⟩, ⟨-, rfl⟩ | ⟨_, _, -, h⟩⟩
  · rfl
  · rfl
  · exact h.elim

theorem AssignmentMove.leaseMove {op : Op} (h : AssignmentMove op s a a')
    (hack : ∀ assignmentId leaseSeconds workerId, op ≠ .ack assignmentId leaseSeconds workerId)
    (hrenew : ∀ assignmentId leaseSeconds workerId,
    op ≠ .renew assignmentId leaseSeconds workerId) :
    LeaseMove s a a' := by
  cases h with
  | kept => exact .kept rfl rfl fun h => h
  | granted _ _ waiting _ => exact .granted waiting (by simp [StageAssignment.grant]) rfl rfl
  | acknowledged request _ => exact absurd request (hack _ _ _)
  | renewed request _ => exact absurd request (hrenew _ _ _)
  | submitted _ _ _ => exact .cleared rfl rfl
  | requeued _ _ => exact .cleared rfl rfl
  | exhausted _ _ => exact .cleared rfl rfl
  | cancelled _ _ => exact .kept rfl rfl fun h => by cases h

theorem IsDispatched.newLease {op : Op} (h : IsDispatched op s a) : NewLease s a := by
  cases h with
  | @made job run runId lockedWorkers jitter stage worker priority =>
    cases worker with
    | none => exact .waiting rfl rfl
    | some w => exact .granted (by simp [newAssignment]) rfl rfl

/-- Old rows keep their keys, and their leases move. -/
abbrev LeasesMove (s t : Db) : Prop :=
  Table.Evolves (fun a a' => a'.id = a.id ∧ LeaseMove s a a') (NewLease s) s.assignments
    t.assignments

/-- **What one step does to the leases.** -/
theorem step_leaseMoves (op : Op) (hs : s.Sound) (hop : keepsLeases s op = true) :
    LeasesMove s (step s op) := by
  have hrefl : ∀ a : StageAssignment, a.id = a.id ∧ LeaseMove s a a := fun _ =>
      ⟨rfl, .kept rfl rfl fun h => h⟩
  have hothers : (∀ assignmentId leaseSeconds workerId,
      op ≠ .ack assignmentId leaseSeconds workerId) →
      (∀ assignmentId leaseSeconds workerId, op ≠ .renew assignmentId leaseSeconds workerId) →
        LeasesMove s (step s op) :=
    fun hack hrenew => (step_assignments op hs).mono
      (fun _ _ _ _ hmove => ⟨hmove.id, hmove.leaseMove hack hrenew⟩) fun _ _ hnew => hnew.newLease
  rcases atomically_cases op.body s with ⟨u, hdone⟩ | ⟨-, hsame⟩
  · change Returns op.body s u (step s op) at hdone
    cases op with
    | ack assignmentId leaseSeconds workerId =>
      obtain rfl : leaseSeconds = none := by simpa [keepsLeases] using hop
      obtain ⟨a, hfound, hadmitted, hrows⟩ := ack_returns hdone
      refine Table.Evolves.modify hrefl (fun b hb => ?_) hrows
      obtain rfl : a = b := Option.some.inj (hfound.symm.trans hb)
      exact ⟨rfl, .extended (fun h => by cases h) hadmitted rfl rfl⟩
    | renew assignmentId leaseSeconds workerId =>
      obtain rfl : leaseSeconds = none := by simpa [keepsLeases] using hop
      obtain ⟨a, hfound, hadmitted, hrows⟩ := renew_returns hdone
      refine Table.Evolves.modify hrefl (fun b hb => ?_) hrows
      obtain rfl : a = b := Option.some.inj (hfound.symm.trans hb)
      have hheld := assertLeaseExtendable_ok hadmitted
      refine ⟨rfl, .extended (fun h => ?_) hadmitted rfl rfl⟩
      rw [show a.status = .pending from h] at hheld
      cases hheld
    | _ => exact hothers (by simp) (by simp)
  · exact Table.Evolves.of_eq hrefl (congrArg Db.assignments hsame)

/-! ## What every history keeps -/

/-- A waiting row has no lease, and a lease ends within its bound and within its length from now. -/
structure LeaseSound (db : Db) (a : StageAssignment) : Prop where
  waiting : a.status = .pending → a.leaseStartedAt = none
  bounded : ∀ e, a.leaseExpiresAt = some e →
    ∃ started, a.leaseStartedAt = some started ∧ e ≤ started + db.leaseBound
  ahead : ∀ e, a.leaseExpiresAt = some e → e ≤ db.now + seconds db.settings.assignmentLeaseSeconds

theorem lease_le_bound (db : Db) : seconds db.settings.assignmentLeaseSeconds ≤ db.leaseBound :=
  Nat.mul_le_mul_right _ (Nat.le_max_left ..)

theorem maxLease_le_bound (db : Db) :
    seconds db.settings.assignmentMaxLeaseSeconds ≤ db.leaseBound :=
  Nat.mul_le_mul_right _ (Nat.le_max_right ..)

/-- A lease that may be extended has begun, and has not ended. -/
theorem LeaseSound.running (h : LeaseSound s a) (hlive : a.leaseExpired s.now = false) :
    ∃ started e, a.leaseStartedAt = some started ∧ a.leaseExpiresAt = some e := by
  cases hexpires : a.leaseExpiresAt with
  | none => simp [StageAssignment.leaseExpired, hexpires] at hlive
  | some e =>
    obtain ⟨started, hstarted, -⟩ := h.bounded e hexpires
    exact ⟨started, e, hstarted, rfl⟩

theorem LeaseSound.of_waiting (hstarted : a.leaseStartedAt = none)
    (hexpires : a.leaseExpiresAt = none) : LeaseSound s a := by
  refine ⟨fun _ => hstarted, fun e he => ?_, fun e he => ?_⟩
  · rw [hexpires] at he
    cases he
  · rw [hexpires] at he
    cases he

/-- A lease that ends one length from now is sound where its start is within the bound. -/
theorem LeaseSound.of_running {start : Nat} (hheld : a.status ≠ .pending)
    (hstarted : a.leaseStartedAt = some start)
    (hexpires : a.leaseExpiresAt = some (s.now + seconds s.settings.assignmentLeaseSeconds))
    (hroom : s.now + seconds s.settings.assignmentLeaseSeconds ≤ start + s.leaseBound) :
    LeaseSound s a := by
  refine ⟨fun h => absurd h hheld, fun e he => ⟨start, hstarted, ?_⟩, fun e he => ?_⟩
  · rw [hexpires, Option.some.injEq] at he
    exact he ▸ hroom
  · rw [hexpires, Option.some.injEq] at he
    exact Nat.le_of_eq he.symm

theorem LeaseSound.of_granted (hheld : a.status ≠ .pending)
    (hstarted : a.leaseStartedAt = some s.now)
    (hexpires : a.leaseExpiresAt = some (s.now + seconds s.settings.assignmentLeaseSeconds)) :
    LeaseSound s a :=
  .of_running hheld hstarted hexpires (Nat.add_le_add_left (lease_le_bound s) s.now)

theorem LeaseMove.sound (h : LeaseMove s a a') (ha : LeaseSound s a) : LeaseSound s a' := by
  cases h with
  | kept started expires waiting =>
    refine ⟨fun h => started.trans (ha.waiting (waiting h)), fun e he => ?_, fun e he =>
      ha.ahead e (expires ▸ he)⟩
    rw [started]
    exact ha.bounded e (expires ▸ he)
  | cleared started expires => exact .of_waiting started expires
  | granted _ held started expires => exact .of_granted held started expires
  | extended held admitted started expires =>
    obtain ⟨hlive, hroom⟩ := extendable_of_ok admitted
    obtain ⟨start, _, hstart, -⟩ := ha.running hlive
    rw [hstart, Option.getD_some] at started hroom
    exact .of_running held started expires
      (hroom.trans (Nat.add_le_add_left (maxLease_le_bound s) start))

theorem NewLease.sound (h : NewLease s a) : LeaseSound s a := by
  cases h with
  | waiting started expires => exact .of_waiting started expires
  | granted held started expires => exact .of_granted held started expires

/-- Later, under the same settings. -/
theorem LeaseSound.later (h : LeaseSound s a) (hnow : s.now ≤ t.now)
    (hsettings : t.leaseSettings = s.leaseSettings) :
    LeaseSound t a := by
  obtain ⟨hlease, hmax⟩ := Prod.mk.inj hsettings
  refine ⟨h.waiting, fun e he => ?_, fun e he => ?_⟩
  · rw [show t.leaseBound = s.leaseBound by rw [Db.leaseBound, Db.leaseBound, hlease, hmax]]
    exact h.bounded e he
  · rw [hlease]
    exact (h.ahead e he).trans (Nat.add_le_add_right hnow _)

theorem step_leaseSettings (op : Op) (hs : s.Sound) (hop : keepsLeases s op = true) :
    s.now ≤ (step s op).now ∧ (step s op).leaseSettings = s.leaseSettings := by
  refine ⟨step_now_le op hs, ?_⟩
  rcases step_cases s op with heq | heffect
  · rw [heq]
  · generalize step s op = t at heffect
    cases hkind : op with
    | change elapsed environment =>
      subst hkind
      cases heffect with
      | changed =>
        cases environment with
        | none => rfl
        | some environment => exact of_decide_eq_true hop
    | _ =>
      have hconfig : t.config = s.config := heffect.config hs.jobs (by rw [hkind]; simp)
      exact congrArg (fun c : Configuration =>
        (c.settings.assignmentLeaseSeconds, c.settings.assignmentMaxLeaseSeconds))
        hconfig

def Db.LeasesSound (db : Db) : Prop := ∀ a ∈ db.assignments, LeaseSound db a

theorem step_leasesSound (op : Op) (hs : s.Sound) (hleases : s.LeasesSound)
    (hop : keepsLeases s op = true) :
    (step s op).LeasesSound := by
  obtain ⟨hnow, hsettings⟩ := step_leaseSettings op hs hop
  intro b hb
  rcases (step_leaseMoves op hs hop).new b hb with ⟨a, ha, -, hmove⟩ | hnew
  · exact (hmove.sound (hleases a ha)).later hnow hsettings
  · exact hnew.sound.later hnow hsettings

theorem history_leasesSound {db : Db} (hfresh : db.Fresh)
    (h : Reach Steps (fun u op => keepsLeases u op = true) db s) :
    s.Sound ∧ s.LeasesSound := by
  refine h.invariant (P := fun u => u.Sound ∧ u.LeasesSound) ⟨hfresh.sound, fun a ha => ?_⟩ ?_
  · rw [hfresh.assignments] at ha
    cases ha
  · rintro u op v ⟨hu, hleases⟩ hop rfl
    exact ⟨step_sound u op hu, step_leasesSound op hu hleases hop⟩

/-- The lease of the assignment runs on: its start stays, and its end is no earlier. -/
def RunsOn (s t : Db) (assignmentId : Nat) : Prop :=
  ∃ a a' started e e', s.assignments.get? assignmentId = some a ∧
    t.assignments.get? assignmentId = some a' ∧
    a.leaseStartedAt = some started ∧ a'.leaseStartedAt = some started ∧
      a.leaseExpiresAt = some e ∧ a'.leaseExpiresAt = some e' ∧ e ≤ e'

theorem runsOn_of_extended {assignmentId workerId : Nat} {u : Update StageAssignment}
    (hleases : s.LeasesSound) (hfound : s.assignments.get? assignmentId = some a)
    (hadmitted : assertLeaseExtendable s a workerId s.settings.assignmentLeaseSeconds = .ok ())
    (hrows : t.assignments = s.assignments.modify assignmentId u)
    (started : (u.apply a).leaseStartedAt =
    some (a.leaseStartedAt.getD (a.dispatchedAt.getD s.now)))
      (expires : (u.apply a).leaseExpiresAt =
        some (s.now + seconds s.settings.assignmentLeaseSeconds)) :
    RunsOn s t assignmentId := by
  have ha := hleases a (Table.get?_eq_some.mp hfound).1
  obtain ⟨start, e, hstart, he⟩ := ha.running (extendable_of_ok hadmitted).1
  rw [hstart, Option.getD_some] at started
  refine ⟨a, u.apply a, start, e, _, hfound, ?_, hstart, started, he, expires, ha.ahead e he⟩
  rw [hrows, Table.get?_modify, if_pos rfl, hfound, Option.map_some]

/-- **Lease bound.** -/
theorem leases_bounded {db : Db} (hfresh : db.Fresh)
    (hrun : Reach Steps (fun u op => keepsLeases u op = true) db s) :
    (∀ a ∈ s.assignments, ∀ e, a.leaseExpiresAt = some e →
      ∃ started, a.leaseStartedAt = some started ∧ e ≤ started +
        seconds (max s.settings.assignmentLeaseSeconds s.settings.assignmentMaxLeaseSeconds)) ∧
    (∀ op, keepsLeases s op = true →
    ∀ a ∈ s.assignments, ∀ started, a.leaseStartedAt = some started →
      ∃ a', (step s op).assignments.get? a.id = some a' ∧
        (a'.leaseStartedAt = some started ∨ a'.leaseStartedAt = none)) ∧
    ∀ (assignmentId workerId : Nat) (extend : Session Unit),
      extend = acknowledge assignmentId none (some workerId) ∨
        extend = renewLease assignmentId none (some workerId) →
        (∀ u t, Returns extend s u t → RunsOn s t assignmentId) ∧ ∀ e t, Raises extend s e t →
          t = s := by
  obtain ⟨hs, hleases⟩ := history_leasesSound hfresh hrun
  refine ⟨fun a ha => (hleases a ha).bounded, ?_, ?_⟩
  · intro op hop a ha started hstarted
    obtain ⟨a', hafter, -, hmove⟩ :=
      (step_leaseMoves op hs hop).get? (fun _ _ h => h.1) (Table.get?_of_mem ha)
    refine ⟨a', hafter, ?_⟩
    cases hmove with
    | kept same _ _ => exact .inl (same.trans hstarted)
    | cleared cleared _ => exact .inr cleared
    | granted waiting _ _ _ =>
      rw [(hleases a ha).waiting waiting] at hstarted
      cases hstarted
    | extended _ _ same _ =>
      rw [hstarted, Option.getD_some] at same
      exact .inl same
  · rintro assignmentId workerId extend (rfl | rfl)
    · refine ⟨fun u t h => ?_, fun e t h => ack_raises h⟩
      obtain ⟨a, hfound, hadmitted, hrows⟩ := ack_returns h
      exact runsOn_of_extended hleases hfound hadmitted hrows rfl rfl
    · refine ⟨fun u t h => ?_, fun e t h => renew_raises h⟩
      obtain ⟨a, hfound, hadmitted, hrows⟩ := renew_returns h
      exact runsOn_of_extended hleases hfound hadmitted hrows rfl rfl

/-- The worker acknowledges, and renews before the lease ends. -/
def renewedHistory : List Op :=
  [.startRun 0 0 0, .poll 10 [], .processJob 0 [] 0, .ack 0 none 0, elapse (seconds 50),
    .renew 0 none 0]

theorem leases_bounded_renewed :
    (∃ a ∈ (replay step demoDb renewedHistory).assignments,
      a.leaseStartedAt = some 0 ∧ a.leaseExpiresAt = some (seconds 110)) ∧
    ∀ a ∈ (replay step demoDb renewedHistory).assignments, ∀ e, a.leaseExpiresAt = some e →
      ∃ started, a.leaseStartedAt = some started ∧ e ≤ started +
        seconds (max (replay step demoDb renewedHistory).settings.assignmentLeaseSeconds
          (replay step demoDb renewedHistory).settings.assignmentMaxLeaseSeconds) := by
  have hadmits : admits step keepsLeases demoDb renewedHistory = true := by decide +kernel
  have hreach := reach_replay renewedHistory demoDb hadmits
  exact ⟨by decide +kernel, (leases_bounded demoDb_fresh hreach).1⟩

end ContentOrchestrator
