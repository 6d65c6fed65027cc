import ContentOrchestrator.Workers.FleetMoves

/-! # Credentials and pins

No transaction moves a registered worker's pin, and none but the administrator touches
a credential: it is issued in its worker's workspace and, once revoked, stays so. A stop
clears the workers it gets to, all but what other transactions have locked. -/

namespace ContentOrchestrator

open Lib

variable {f g : Fleet} {op : FleetOp} {s t : Db}

/-! ## Pins -/

theorem step_pins {op : Op} (hs : s.Sound) (hkeeps : keepsPins s op = true) {workerId : Nat}
    {pin : Option Nat} (hpin : s.pins workerId = some pin) :
    (step s op).pins workerId = some pin := by
  rcases step_cases s op with heq | heffect
  · rw [heq]
    exact hpin
  · exact heffect.pins hs.jobs hkeeps hpin

theorem Reaped.pins {reason : RecoveryReason} {ids : List Nat} (h : Reaped reason ids s t) :
    t.pins = s.pins := by
  induction h with
  | done => rfl
  | next _ recovered _ _ ih => exact ih.trans (congrArg Configuration.pins recovered.config)

theorem pins_modifyWorker {workerId : Nat} {u : Update WorkerRegistration}
    (hu : ∀ w, (u.apply w).workspaceId = w.workspaceId) :
    (modifyWorker workerId u s).pins = s.pins :=
  funext (pins_modify hu)

theorem WorkerRegistration.forceOffline_pin (w : WorkerRegistration) :
    (forceOffline.apply w).workspaceId = w.workspaceId := by
  show (if w.deregisteredAt.isNone then _ else w).workspaceId = _
  split <;> rfl

theorem EachStopped.pins {workspaceId : Nat} {actor : AdminSession} {ids : List Nat}
    (h : EachStopped workspaceId actor ids f g) : g.db.pins = f.db.pins := by
  induction h with
  | done => rfl
  | next stopped _ ih =>
    obtain ⟨t, hreaped, hrow⟩ := stopped.row
    rw [ih, hrow, pins_modifyWorker (u := WorkerRegistration.stop) fun _ => rfl, hreaped.pins]

/-- Registered workers keep their pins, whoever acts. -/
def FleetOp.keepsPins (f : Fleet) : FleetOp → Bool
  | engine op => ContentOrchestrator.keepsPins f.db op
  | _ => true

theorem FleetEffect.pins {answer : Option SubmitOut} (h : FleetEffect op f answer g)
    (hs : f.db.Sound) (hkeeps : op.keepsPins f = true) {workerId : Nat} {pin : Option Nat}
    (hpin : f.db.pins workerId = some pin) : g.db.pins workerId = some pin := by
  cases h with
  | engine => exact step_pins hs hkeeps hpin
  | registered reaped _ _ =>
    rw [pins_modifyWorker fun _ => rfl, reaped.pins]
    exact hpin
  | beat _ _ _ _ =>
    rw [pins_modifyWorker fun _ => rfl]
    exact hpin
  | deregistered _ _ reaped =>
    rw [pins_modifyWorker fun _ => rfl, reaped.pins]
    exact hpin
  | already => exact hpin
  | claimed _ => exact step_pins hs rfl hpin
  | acknowledged _ => exact step_pins hs rfl hpin
  | renewed _ => exact step_pins hs rfl hpin
  | replayed _ _ => exact hpin
  | submitted _ _ _ _ taken => exact taken ▸ step_pins hs rfl hpin
  | @provisioned workspaceId maxConcurrency supportedStages secretHash f =>
    obtain ⟨worker, hworker, rfl⟩ := Option.map_eq_some_iff.mp hpin
    have hkept :
        (provisionWorker workspaceId supportedStages maxConcurrency secretHash f).db.workers.get?
        workerId = some worker :=
      Table.get?_eq_some.mpr ⟨Table.mem_insert.mpr (.inl (Table.get?_eq_some.mp hworker).1),
        (Table.get?_eq_some.mp hworker).2⟩
    exact Option.map_eq_some_iff.mpr ⟨worker, hkept, rfl⟩
  | rotated _ _ => exact hpin
  | revoked _ _ reaped =>
    rw [pins_modifyWorker WorkerRegistration.forceOffline_pin, reaped.pins]
    exact hpin
  | stopped each => exact (congrFun (stopEach_returns each).pins workerId).trans hpin

/-! ## Credentials -/

/-- A credential keeps its holder, and does not come back into force. -/
structure CredentialMove (c c' : WorkerCredential) : Prop where
  id : c'.id = c.id
  worker : c'.workerId = c.workerId
  workspace : c'.workspaceId = c.workspaceId
  active : c'.status = .active → c.status = .active

theorem CredentialMove.refl (c : WorkerCredential) : CredentialMove c c :=
  ⟨rfl, rfl, rfl, fun h => h⟩

theorem CredentialMove.trans {c c' c'' : WorkerCredential} (h : CredentialMove c c')
    (h' : CredentialMove c' c'') : CredentialMove c c'' :=
  ⟨h'.id.trans h.id, h'.worker.trans h.worker, h'.workspace.trans h.workspace, fun hc =>
    h.active (h'.active hc)⟩

theorem CredentialMove.revoked (c : WorkerCredential) :
    CredentialMove c (WorkerCredential.revoke.apply c) :=
  ⟨rfl, rfl, rfl, fun h => by cases h⟩

/-- A new credential is issued to a worker in the workspace it is pinned to. -/
def IssuedIn (db : Db) (c : WorkerCredential) : Prop :=
  db.pins c.workerId = some (some c.workspaceId)

abbrev CredentialsMove (f g : Fleet) : Prop :=
  Table.Evolves CredentialMove (IssuedIn g.db) f.credentials g.credentials

theorem CredentialsMove.of_eq (h : g.credentials = f.credentials) : CredentialsMove f g :=
  Table.Evolves.of_eq CredentialMove.refl h

theorem WorkerStopped.moved {workspaceId workerId : Nat} {actor : AdminSession}
    {New : WorkerCredential → Prop} (h : WorkerStopped workspaceId workerId actor f g) :
    Table.Evolves CredentialMove New f.credentials g.credentials :=
  Table.Evolves.modifyWhere CredentialMove.refl (fun c _ _ => .revoked c) h.credentials

theorem EachStopped.moved {workspaceId : Nat} {actor : AdminSession} {ids : List Nat}
    (h : EachStopped workspaceId actor ids f g) :
    Table.Evolves CredentialMove (fun _ => False) f.credentials g.credentials := by
  induction h with
  | done => exact Table.Evolves.of_eq CredentialMove.refl rfl
  | next stopped _ ih =>
    exact Table.Evolves.trans (fun _ _ _ => CredentialMove.trans) (fun _ _ hnone _ => hnone)
      stopped.moved ih

theorem FleetEffect.credentials {answer : Option SubmitOut} (h : FleetEffect op f answer g) :
    CredentialsMove f g := by
  cases h with
  | @provisioned workspaceId capacity stages secretHash f =>
    have hissued : IssuedIn (provisionWorker workspaceId stages capacity secretHash f).db
        ((newCredential f.db.workers.next workspaceId secretHash).make f.credentials.next) := by
      simp [IssuedIn, Db.pins, provisionWorker, newCredential, Table.get?_insert]
    exact Table.Evolves.insert CredentialMove.refl hissued rfl
  | @rotated workspaceId workerId secretHash f w found pinned =>
    have hretired : Table.Evolves CredentialMove (fun _ => False) f.credentials
        (f.credentials.modifyWhere (·.isActiveOf workerId)
          (WorkerCredential.retireBy (f.db.now + seconds workerCredentialRotationGraceSeconds))) :=
      Table.Evolves.modifyWhere CredentialMove.refl (fun c _ _ => ⟨rfl, rfl, rfl, fun h => h⟩) rfl
    have hissued :
        IssuedIn f.db ((newCredential workerId workspaceId secretHash).make f.credentials.next) :=
      Option.map_eq_some_iff.mpr ⟨w, found, pinned⟩
    have hkept : ∀ c c', IssuedIn f.db c → CredentialMove c c' → IssuedIn f.db c' := by
      intro c c' hc hmove
      rw [IssuedIn, hmove.worker, hmove.workspace]
      exact hc
    exact Table.Evolves.trans (fun _ _ _ => CredentialMove.trans) hkept
      (hretired.mono (fun _ _ _ _ h => h) fun _ _ hnone => hnone.elim)
      (Table.Evolves.insert CredentialMove.refl hissued rfl)
  | revoked _ _ _ =>
    exact Table.Evolves.modifyWhere CredentialMove.refl (fun c _ _ => .revoked c) rfl
  | stopped each =>
    exact (stopEach_returns each).moved.mono (fun _ _ _ _ h => h) fun _ _ hnone => hnone.elim
  | _ => exact .of_eq rfl

/-- Every credential belongs to a registered worker, and to its workspace if the worker is
pinned. -/
def Fleet.AtHome (f : Fleet) : Prop :=
  ∀ c ∈ f.credentials, ∃ pin, f.db.pins c.workerId = some pin ∧ pin.all (· == c.workspaceId) = true

theorem FleetEffect.atHome {answer : Option SubmitOut} (h : FleetEffect op f answer g)
    (hs : f.db.Sound) (hkeeps : op.keepsPins f = true) (hhome : f.AtHome) : g.AtHome := by
  intro c' hc'
  rcases h.credentials.new c' hc' with ⟨c, hc, hmove⟩ | hissued
  · obtain ⟨pin, hpin, hall⟩ := hhome c hc
    rw [hmove.worker, hmove.workspace]
    exact ⟨pin, h.pins hs hkeeps hpin, hall⟩
  · exact ⟨_, hissued, by simp⟩

/-! ## What a stop clears -/

/-- A recovered row is in flight no more. -/
theorem Reaped.cleared {reason : RecoveryReason} {ids : List Nat} (h : Reaped reason ids s t)
    {b : StageAssignment} (hb : b ∈ t.assignments) (hid : b.id ∈ ids) :
    b.status.inFlight = false := by
  induction h with
  | done => cases hid
  | @next id rest a s t u found recovered _ later ih =>
    rcases List.mem_cons.mp hid with hhead | htail
    · obtain ⟨ha, haid⟩ := Table.get?_eq_some.mp found
      have hidle : ∀ c ∈ t.assignments, c.id = a.id → c.status.inFlight = false := by
        intro c hc hcid
        have hrow : ∀ {u : Update StageAssignment}, t.assignments = s.assignments.modify a.id u →
            (u.apply a).status.inFlight = false → c.status.inFlight = false := by
          intro u hu hclosed
          have hget : t.assignments.get? a.id = some (u.apply a) := by
            have hfound : s.assignments.get? a.id = some a := Table.get?_of_mem ha
            rw [hu]
            exact Table.get?_modified _ hfound
          have hcget : t.assignments.get? a.id = some c := Table.get?_eq_some.mpr ⟨hc, hcid⟩
          rw [Option.some.inj (hcget.symm.trans hget)]
          exact hclosed
        cases recovered with
        | skipped idle => rw [Table.eq_of_key hc ha hcid]; exact idle
        | requeued _ _ _ => exact hrow requeueAssignment_assignments rfl
        | exhausted _ _ => exact hrow deadLetterAssignment_assignments rfl
      rcases later.reclaims.new b hb with ⟨c, hc, hmove⟩ | hnone
      · have hkey : c.id = b.id := by cases hmove <;> rfl
        have hcidle := hidle c hc (by rw [hkey, hhead]; exact haid.symm)
        cases hmove with
        | kept => exact hcidle
        | requeued _ => rfl
        | exhausted _ => rfl
      · exact hnone.elim
    · exact ih hb htail

/-- A row that is still in flight was so before, as it was. -/
theorem Reclaims.kept (h : Reclaims s t) {b : StageAssignment} (hb : b ∈ t.assignments)
    (hheld : b.status.inFlight = true) : b ∈ s.assignments := by
  rcases h.new b hb with ⟨a, ha, hmove⟩ | hnone
  · cases hmove with
    | kept => exact ha
    | requeued _ => cases hheld
    | exhausted _ => cases hheld
  · exact hnone.elim

/-- What a worker still holds after its holdings were reaped is locked elsewhere. -/
theorem Reaped.left {reason : RecoveryReason} {workerId : Nat} {locked : List Nat}
    (h : Reaped reason (workerHoldings s workerId locked) s t) {b : StageAssignment}
    (hb : b ∈ t.assignments) (hheld : b.status.inFlight = true)
    (howner : b.workerId = some workerId) :
    b.id ∈ locked := by
  by_contra hfree
  have hbefore := h.reclaims.kept hb hheld
  have hlisted : b.id ∈ workerHoldings s workerId locked := by
    refine List.mem_filter.mpr ⟨List.mem_map.mpr ⟨b, Table.mem_select.mpr ⟨hbefore, ?_⟩, rfl⟩, ?_⟩
    · simp [howner, hheld]
    · simp [hfree]
  have hidle := h.cleared hb hlisted
  rw [hheld] at hidle
  cases hidle

/-- The session passes over what others have locked and what it may not update. -/
theorem AdminSession.passedOver_iff {actor : AdminSession} {b : StageAssignment}
    (hb : b ∈ s.assignments) :
    b.id ∈ actor.passedOver s ↔ b.id ∈ actor.locked ∨ b.workspaceId ∉ actor.administered := by
  rw [AdminSession.passedOver, List.mem_append]
  refine or_congr Iff.rfl ((Table.mem_keys_select hb).trans ?_)
  simp

theorem EachStopped.left {workspaceId : Nat} {actor : AdminSession} {ids : List Nat}
    (h : EachStopped workspaceId actor ids f g) (hs : f.db.Sound) {workerId : Nat}
    (hmem : workerId ∈ ids) {b : StageAssignment} (hb : b ∈ g.db.assignments)
    (hheld : b.status.inFlight = true) (howner : b.workerId = some workerId) :
    b.id ∈ actor.locked ∨ b.workspaceId ∉ actor.administered := by
  induction h with
  | done => cases hmem
  | @next first rest f m g stopped later ih =>
    obtain ⟨t, hreaped, hrow⟩ := stopped.row
    have hsound : m.db.Sound := hrow ▸ (hreaped.sound hs).modifyWorker
    rcases List.mem_cons.mp hmem with hfirst | hrest
    · have hmid : b ∈ m.db.assignments := (later.moves hsound).2.kept hb hheld
      rw [hrow] at hmid
      have hpassed := hreaped.left hmid hheld (hfirst ▸ howner)
      exact AdminSession.passedOver_iff (hreaped.reclaims.kept hmid hheld) |>.mp hpassed
    · exact ih hsound hrest hb

/-- Of the workers stopped no credential of the workspace is active. -/
theorem EachStopped.inactive {workspaceId : Nat} {actor : AdminSession} {ids : List Nat}
    (h : EachStopped workspaceId actor ids f g) {c : WorkerCredential} (hc : c ∈ g.credentials)
    (hworkspace : c.workspaceId = workspaceId) (hmem : c.workerId ∈ ids) : c.status ≠ .active := by
  induction h with
  | done => cases hmem
  | @next first rest f m g stopped later ih =>
    rcases List.mem_cons.mp hmem with hfirst | hrest
    · intro hactive
      rcases later.moved.new c hc with ⟨d, hd, hmove⟩ | hnone
      · rw [stopped.credentials] at hd
        obtain ⟨e, _, rfl⟩ := Table.mem_modifyWhere.mp hd
        have hstill := hmove.active hactive
        have hworker := hmove.worker.symm.trans hfirst
        have hspace := hmove.workspace.symm.trans hworkspace
        split at hstill
        · cases hstill
        · rename_i hno
          rw [if_neg hno] at hworker hspace
          simp [WorkerCredential.isActiveOf, hworker, hspace, hstill] at hno
      · exact hnone.elim
    · exact ih hc hrest

end ContentOrchestrator
