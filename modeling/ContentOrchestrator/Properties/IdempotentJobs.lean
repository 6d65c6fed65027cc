import ContentOrchestrator.Services.JobRequests

/-! # One job for a key

A transaction that has passed the insert of its run holds the entry of its key in the
unique index, and no run is stored under it. So the commit that writes a job is the
only one for its key; a later request finds the run, whatever has become of it. -/

namespace ContentOrchestrator

open Lib

/-- The answer is about this run. -/
structure JobAnswer.Names (a : JobAnswer) (run : PipelineRun) : Prop where
  workspaceId : run.workspaceId = a.workspaceId
  idempotencyKey : run.idempotencyKey = a.idempotencyKey
  runId : run.id = a.runId
  contentItemId : run.contentItemId = a.contentItemId

def JobAnswer.isUnder (workspaceId : Nat) (idempotencyKey : String) (a : JobAnswer) : Bool :=
  a.workspaceId == workspaceId && a.idempotencyKey == some idempotencyKey

/-- What is committed of the jobs of one key. -/
structure JobStore.OneJob (s : JobStore) (workspaceId : Nat) (idempotencyKey : String) : Prop where
  runs : (s.desk.db.runs.select (·.isUnder workspaceId idempotencyKey)).length ≤ 1
  created : (s.answers.filter fun a => a.created && a.isUnder workspaceId idempotencyKey).length ≤ 1
  answers : ∀ a ∈ s.answers, a.isUnder workspaceId idempotencyKey = true →
    ∃ run ∈ s.desk.db.runs, run.isUnder workspaceId idempotencyKey = true ∧ a.Names run
  /-- The run was created by a request, with its content item and its one reservation, which is
  settled. -/
  job : ∀ run ∈ s.desk.db.runs, run.isUnder workspaceId idempotencyKey = true →
    (∃ a ∈ s.answers, a.created = true ∧ a.Names run) ∧
    (∃ v, s.desk.db.reservations.select (·.isOf run.id) = [v] ∧ v.status = .committed ∧
      v.stage = .scripting) ∧
    ∀ j ∈ s.desk.db.jobs, j.isStageJob = true → j.refId = .run run.id → j.isActive = false

/-- A request answers, and one that has created nothing leaves the tables as they are; or nothing is
left of it. -/
def LeavesAnswer (s s' : JobStore) : Prop :=
  s' = s ∨ ∃ a, s'.answers = s.answers ++ [a] ∧ (a.created = false → s'.desk = s.desk)

/-! ## The invariant -/

structure JobStore.Sound (s : JobStore) : Prop where
  desked : s.desk.db.Desked
  unique : ∀ run ∈ s.desk.db.runs, ∀ run' ∈ s.desk.db.runs, ∀ workspaceId key,
    run.isUnder workspaceId key = true → run'.isUnder workspaceId key = true → run = run'
  answers : ∀ a ∈ s.answers, ∃ run ∈ s.desk.db.runs, a.Names run
  created : ∀ run ∈ s.desk.db.runs, run.idempotencyKey ≠ none →
    ∃ a ∈ s.answers, a.created = true ∧ a.Names run
  once : ((s.answers.filter (·.created)).map (·.runId)).Nodup

variable {s s' : JobStore} {r : JobRequest} {run existing : PipelineRun}

theorem PipelineRun.isUnder_iff {workspaceId : Nat} {key : String} :
    run.isUnder workspaceId key = true ↔
      run.workspaceId = workspaceId ∧ run.idempotencyKey = some key := by
  simp [PipelineRun.isUnder]

theorem JobAnswer.isUnder_iff {workspaceId : Nat} {key : String} {a : JobAnswer} :
    a.isUnder workspaceId key = true ↔
      a.workspaceId = workspaceId ∧ a.idempotencyKey = some key := by
  simp [JobAnswer.isUnder]

/-- The request's answer with this run. -/
def JobRequest.answer (r : JobRequest) (runId contentItemId : Nat) (created : Bool) : JobAnswer :=
  ⟨r.workspaceId, r.idempotencyKey, runId, contentItemId, created⟩

/-- The run the request found is stored, in whatever state. -/
def JobStore.Keeps (s : JobStore) (r : JobRequest) (existing : PipelineRun) : Prop :=
  ∃ run ∈ s.desk.db.runs, (r.answer existing.id existing.contentItemId false).Names run

/-- The key is the transaction's own, and free. -/
def JobStore.Free (s : JobStore) (held : List JobLock) (r : JobRequest) : Prop :=
  ∀ key, r.idempotencyKey = some key →
    .run r.workspaceId key ∈ held ∧ ∀ run ∈ s.desk.db.runs, run.isUnder r.workspaceId key = false

/-- What a request knows. -/
def JobPoint.Asserts (s : JobStore) (held : List JobLock) : JobPoint → Prop
  | .gateOf r existing | .itemOf r existing _ | .answered r existing => s.Keeps r existing
  | .reserve r | .drafted r => s.Free held r
  | _ => True

/-- What the assertions are about stays. -/
theorem JobPoint.Asserts.stable {point : JobPoint} {held : List JobLock} (h : point.Asserts s held)
    (hnamed : ∀ a : JobAnswer, (∃ run ∈ s.desk.db.runs, a.Names run) →
      ∃ run ∈ s'.desk.db.runs, a.Names run)
    (hfree : ∀ workspaceId key, .run workspaceId key ∈ held →
      (∀ run ∈ s.desk.db.runs, run.isUnder workspaceId key = false) →
      ∀ run ∈ s'.desk.db.runs, run.isUnder workspaceId key = false) : point.Asserts s' held := by
  have hkept : ∀ {r existing}, s.Keeps r existing → s'.Keeps r existing :=
    fun hkeeps => hnamed _ hkeeps
  have hstill : ∀ {r}, s.Free held r → s'.Free held r := by
    intro r hr key hkey
    obtain ⟨hheld, hnone⟩ := hr key hkey
    exact ⟨hheld, hfree _ _ hheld hnone⟩
  cases point with
  | gateOf _ _ => exact hkept h
  | itemOf _ _ _ => exact hkept h
  | answered _ _ => exact hkept h
  | reserve _ => exact hstill h
  | drafted _ => exact hstill h
  | lookup _ => trivial
  | findWorkflow _ => trivial
  | insertWorkflow _ => trivial
  | insertRun _ => trivial
  | failed _ => trivial

theorem JobPoint.next_asserts {point point' : JobPoint} {held held' : List JobLock}
    (h : point.Asserts s held) (hnext : point.next s.desk.db held = some (held', point')) :
    point'.Asserts s held' := by
  cases point with
  | lookup r =>
    dsimp only [JobPoint.next] at hnext
    split at hnext
    · cases hnext
      trivial
    · rename_i key hkey
      split at hnext
      · cases hnext
        trivial
      · rename_i existing hfound
        cases hnext
        have hrows : s.desk.db.runs.select (·.isUnder r.workspaceId key) = [existing] :=
          scalarOneOrNone_eq_some.mp hfound
        have hmem : existing ∈ s.desk.db.runs.select (·.isUnder r.workspaceId key) := by
          rw [hrows]
          exact List.mem_singleton_self _
        obtain ⟨hrun, hunder⟩ := Table.mem_select.mp hmem
        obtain ⟨hworkspace, hrunKey⟩ := PipelineRun.isUnder_iff.mp hunder
        exact ⟨existing, hrun, hworkspace, hrunKey.trans hkey.symm, rfl, rfl⟩
      · cases hnext
        trivial
  | gateOf r existing =>
    dsimp only [JobPoint.next] at hnext
    split at hnext
    · cases hnext
      trivial
    · cases hnext
      exact h
  | itemOf r existing gate =>
    dsimp only [JobPoint.next] at hnext
    split at hnext
    · cases hnext
      trivial
    · cases hnext
      exact h
  | findWorkflow r =>
    dsimp only [JobPoint.next] at hnext
    split at hnext <;> cases hnext <;> trivial
  | insertWorkflow r =>
    dsimp only [JobPoint.next] at hnext
    cases hnext
    split <;> trivial
  | insertRun r =>
    dsimp only [JobPoint.next] at hnext
    split at hnext
    · rename_i hnone
      cases hnext
      intro key hkey
      rw [hnone] at hkey
      cases hkey
    · rename_i key hkey
      cases hnext
      split
      · rename_i hempty
        intro key' hkey'
        rw [hkey] at hkey'
        cases hkey'
        exact ⟨List.mem_cons_self, Table.select_eq_nil.mp (List.isEmpty_iff.mp hempty)⟩
      · trivial
  | reserve r =>
    dsimp only [JobPoint.next] at hnext
    split at hnext
    · cases hnext
      trivial
    · cases hnext
      exact h
  | answered _ _ => cases hnext
  | drafted _ => cases hnext
  | failed _ => cases hnext

/-! ## The commits -/

/-- The rows of a committed job. -/
structure JobCommitted (r : JobRequest) (s s' : JobStore) : Prop where
  desked : s'.desk.db.Desked
  row : ∃ run, (r.answer s.desk.db.runs.next s.desk.db.contentItems.next true).Names run ∧
    ∀ x, x ∈ s'.desk.db.runs ↔ x ∈ s.desk.db.runs ∨ x = run
  answers : s'.answers = s.answers ++
    [r.answer s.desk.db.runs.next s.desk.db.contentItems.next true]

theorem Drafted.row {workspaceId contentItemId : Nat} {key : Option String} {db t : Db}
    (h : Drafted workspaceId contentItemId db t)
    (h' : DraftDelivered workspaceId contentItemId key db t) :
    ∃ run, (⟨workspaceId, key, db.runs.next, contentItemId, true⟩ : JobAnswer).Names run ∧
      ∀ x, x ∈ t.runs ↔ x ∈ db.runs ∨ x = run := by
  obtain ⟨run, hrun, hworkspace, hitem, hkey⟩ := h'.row
  obtain ⟨hmem, hid⟩ := Table.get?_eq_some.mp hrun
  refine ⟨run, ⟨hworkspace, hkey, hid, hitem⟩, fun x => ⟨fun hx => ?_, ?_⟩⟩
  · rcases h.runs.new x hx with ⟨_, hold, rfl⟩ | ⟨hnew, _⟩
    · exact .inl hold
    · exact .inr (Table.eq_of_key hx hmem (hnew.trans hid.symm))
  · rintro (hold | rfl)
    · obtain ⟨x', hx', rfl⟩ := h.runs.get? (fun _ _ heq => by rw [heq]) (Table.get?_of_mem hold)
      exact (Table.get?_eq_some.mp hx').1
    · exact hmem

theorem commitDraft_cases (hs : s.desk.db.Desked) :
    commitDraft r s = s ∨ JobCommitted r s (commitDraft r s) := by
  dsimp only [commitDraft]
  split
  · rename_i v db hran
    have hwritten : (insertDraft r.workspaceId r.topic r.script s.desk).db.Desked :=
      insertDraft_desked hs
    have hgranted : ({ (insertDraft r.workspaceId r.topic r.script s.desk).db with
        spendCaps := grantedCaps r.workspaceId s.desk.db } : Db).Desked :=
      hwritten.keep (hwritten.sound.congr rfl rfl rfl rfl) rfl rfl rfl rfl rfl (fun _ hj => hj)
        fun g hg => ⟨g, hg, rfl, rfl⟩
    have hdelivered := runDraft_delivers hran hgranted
    have hdrafted := runDraft_returns hran
    have hdb : db.Desked := hdelivered.desked hdrafted hgranted
    exact .inr ⟨hdb.keep (hdb.sound.congr rfl rfl rfl rfl) rfl rfl rfl rfl rfl (fun _ hj => hj)
      fun g hg => ⟨g, hg, rfl, rfl⟩, hdrafted.row hdelivered, rfl⟩
  · exact .inl rfl

/-- The new run is the only one under its key. -/
theorem JobCommitted.sound (h : JobCommitted r s s') (hs : s.Sound)
    (hfree : ∀ key, r.idempotencyKey = some key →
    ∀ run ∈ s.desk.db.runs, run.isUnder r.workspaceId key = false) :
    s'.Sound := by
  obtain ⟨run, hnames, hruns⟩ := h.row
  have hother : ∀ x ∈ s.desk.db.runs, ∀ workspaceId key, x.isUnder workspaceId key = true →
      run.isUnder workspaceId key = true → False := by
    intro x hx workspaceId key hunder hnew
    obtain ⟨hworkspace, hkey⟩ := PipelineRun.isUnder_iff.mp hnew
    have hnone := hfree key (hnames.idempotencyKey.symm.trans hkey) x hx
    have hsame : r.workspaceId = workspaceId := hnames.workspaceId.symm.trans hworkspace
    rw [hsame, hunder] at hnone
    cases hnone
  have hrunMem : run ∈ s'.desk.db.runs := (hruns run).mpr (.inr rfl)
  refine ⟨h.desked, fun x hx y hy workspaceId key hunder hunder' => ?_, fun a ha => ?_,
    fun x hx hkey => ?_, ?_⟩
  · rcases (hruns x).mp hx with hold | rfl <;> rcases (hruns y).mp hy with hold' | rfl
    · exact hs.unique x hold y hold' workspaceId key hunder hunder'
    · exact (hother x hold workspaceId key hunder hunder').elim
    · exact (hother y hold' workspaceId key hunder' hunder).elim
    · rfl
  · rw [h.answers] at ha
    rcases List.mem_append.mp ha with hold | hnew
    · obtain ⟨x, hx, hxa⟩ := hs.answers a hold
      exact ⟨x, (hruns x).mpr (.inl hx), hxa⟩
    · exact ⟨run, hrunMem, List.mem_singleton.mp hnew ▸ hnames⟩
  · rw [h.answers]
    rcases (hruns x).mp hx with hold | rfl
    · obtain ⟨a, ha, hcreated, hxa⟩ := hs.created x hold hkey
      exact ⟨a, List.mem_append_left _ ha, hcreated, hxa⟩
    · exact ⟨_, List.mem_append_right _ (List.mem_singleton_self _), rfl, hnames⟩
  · have hnew : s.desk.db.runs.next ∉ (s.answers.filter (·.created)).map (·.runId) := by
      intro hin
      obtain ⟨a, ha, hid⟩ := List.mem_map.mp hin
      obtain ⟨x, hx, hxa⟩ := hs.answers a (List.mem_filter.mp ha).1
      have hlt : x.id < s.desk.db.runs.next := Table.key_lt hx
      rw [hxa.runId, hid] at hlt
      exact Nat.lt_irrefl _ hlt
    rw [h.answers, List.filter_append, List.map_append]
    exact List.nodup_append'.mpr ⟨hs.once, List.nodup_singleton _, List.disjoint_singleton.mpr hnew⟩

theorem commitAnswer_sound (hs : s.Sound) (hkeeps : s.Keeps r existing) :
    (commitAnswer r existing s).Sound := by
  refine ⟨hs.desked, hs.unique, fun a ha => ?_, fun run hrun hkey => ?_, ?_⟩
  · rcases List.mem_append.mp ha with hold | hnew
    · exact hs.answers a hold
    · rw [List.mem_singleton.mp hnew]
      exact hkeeps
  · obtain ⟨a, ha, hcreated, hnames⟩ := hs.created run hrun hkey
    exact ⟨a, List.mem_append_left _ ha, hcreated, hnames⟩
  · simpa [commitAnswer, List.filter_append] using hs.once

/-! ## The other services -/

theorem JobAnswer.Names.same {a : JobAnswer} {run run' : PipelineRun} (h : a.Names run)
    (hsame : SameRun run run') :
    a.Names run' :=
  ⟨hsame.workspaceId.trans h.workspaceId, hsame.idempotencyKey.trans h.idempotencyKey,
    hsame.id.trans h.runId,
    hsame.contentItemId.trans h.contentItemId⟩

section

variable {op : { op : DeskOp // op.isOther = true }}

theorem names_apply (hs : s.Sound) (a : JobAnswer) (h : ∃ run ∈ s.desk.db.runs, a.Names run) :
    ∃ run ∈ (contentJobs.apply op s).desk.db.runs, a.Names run := by
  obtain ⟨run, hrun, hnames⟩ := h
  obtain ⟨run', hrun', hsame⟩ :=
    (deskStep_keys op.property hs.desked.sound).get? (fun _ _ hab => hab.id)
      (Table.get?_of_mem hrun)
  exact ⟨run', (Table.get?_eq_some.mp hrun').1, hnames.same hsame⟩

/-- A run under a key was there before. -/
theorem under_apply (hs : s.Sound) {run' : PipelineRun}
    (hrun' : run' ∈ (contentJobs.apply op s).desk.db.runs) (hkey : run'.idempotencyKey ≠ none) :
    ∃ run ∈ s.desk.db.runs, SameRun run run' := by
  rcases (deskStep_keys op.property hs.desked.sound).new run' hrun' with hold | hnone
  · exact hold
  · exact absurd hnone hkey

theorem apply_sound (hs : s.Sound) : (contentJobs.apply op s).Sound := by
  refine ⟨deskStep_desked op.property hs.desked, fun x hx y hy workspaceId key hunder hunder' => ?_,
    fun a ha => names_apply hs a (hs.answers a ha), fun run' hrun' hkey => ?_, hs.once⟩
  · obtain ⟨hworkspace, hkey⟩ := PipelineRun.isUnder_iff.mp hunder
    obtain ⟨hworkspace', hkey'⟩ := PipelineRun.isUnder_iff.mp hunder'
    obtain ⟨x₀, hx₀, hsame⟩ := under_apply hs hx (by simp [hkey])
    obtain ⟨y₀, hy₀, hsame'⟩ := under_apply hs hy (by simp [hkey'])
    have hone : x₀ = y₀ := hs.unique x₀ hx₀ y₀ hy₀ workspaceId key
      (PipelineRun.isUnder_iff.mpr ⟨hsame.workspaceId.symm.trans hworkspace,
        hsame.idempotencyKey.symm.trans hkey⟩)
      (PipelineRun.isUnder_iff.mpr ⟨hsame'.workspaceId.symm.trans hworkspace',
        hsame'.idempotencyKey.symm.trans hkey'⟩)
    exact Table.eq_of_key hx hy (hsame.id.trans (hone ▸ hsame'.id.symm))
  · obtain ⟨run, hrun, hsame⟩ := under_apply hs hrun' hkey
    obtain ⟨a, ha, hcreated, hnames⟩ := hs.created run hrun (hsame.idempotencyKey ▸ hkey)
    exact ⟨a, ha, hcreated, hnames.same hsame⟩

end

/-! ## The interleaving -/

theorem contentJobs_outline :
    Outline contentJobs (fun _ _ => True) JobStore.Sound JobPoint.Asserts where
  starts _ _ := trivial
  runs hw hx _ hnext _ := JobPoint.next_asserts (hw.running _ hx) hnext
  commits := by
    intro w x u hw hx _ hcommit
    have hknown := hw.running x hx
    change JobPoint.commit x.locals = some u at hcommit
    generalize x.locals = point at hknown hcommit
    cases point with
    | answered r existing =>
      cases hcommit
      exact ⟨commitAnswer_sound hw.store hknown, fun y hy _ =>
        (hw.running y hy).stable (fun _ h => h)
        fun _ _ _ h => h⟩
    | drafted r =>
      cases hcommit
      rcases commitDraft_cases (r := r) hw.store.desked with heq | hcommitted
      · rw [heq]
        exact ⟨hw.store, fun y hy _ => hw.running y hy⟩
      · refine ⟨hcommitted.sound hw.store fun key hkey => (hknown key hkey).2, fun y hy hne => ?_⟩
        obtain ⟨run, hnames, hruns⟩ := hcommitted.row
        refine (hw.running y hy).stable (fun a ha => ?_)
          fun workspaceId key hheld hnone run' hrun' => ?_
        · obtain ⟨old, hold, ha⟩ := ha
          exact ⟨old, (hruns old).mpr (.inl hold), ha⟩
        · rcases (hruns run').mp hrun' with hold | rfl
          · exact hnone run' hold
          · -- the entry of the new run's key is held by this transaction alone
            cases hunder : run'.isUnder workspaceId key with
            | false => rfl
            | true =>
              obtain ⟨hworkspace, hkey⟩ := PipelineRun.isUnder_iff.mp hunder
              have hmine := (hknown key (hnames.idempotencyKey.symm.trans hkey)).1
              have hsame : r.workspaceId = workspaceId := hnames.workspaceId.symm.trans hworkspace
              exact absurd (hsame ▸ hheld) (hw.exclusive x hx y hy hne.symm _ hmine)
    | _ => cases hcommit
  others hw _ _ := by
    refine ⟨apply_sound hw.store, fun y hy => (hw.running y hy).stable (names_apply hw.store)
      fun workspaceId key _ hnone run' hrun' => ?_⟩
    cases hunder : run'.isUnder workspaceId key with
    | false => rfl
    | true =>
      obtain ⟨hworkspace, hkey⟩ := PipelineRun.isUnder_iff.mp hunder
      obtain ⟨run, hrun, hsame⟩ := under_apply hw.store hrun' (by simp [hkey])
      have hold := PipelineRun.isUnder_iff.mpr
        ⟨hsame.workspaceId.symm.trans hworkspace, hsame.idempotencyKey.symm.trans hkey⟩
      rw [hnone run hrun] at hold
      cases hold

/-! ## One job -/

/-- A list without repetition in which all is one. -/
theorem length_le_one_of_same {α : Type} {l : List α} (hnodup : l.Nodup)
    (hsame : ∀ a ∈ l, ∀ b ∈ l, a = b) :
    l.length ≤ 1 := by
  cases l with
  | nil => exact Nat.zero_le 1
  | cons a rest =>
    cases rest with
    | nil => exact Nat.le_refl 1
    | cons b rest =>
      have hab : a = b := hsame a List.mem_cons_self b (List.mem_cons_of_mem _ List.mem_cons_self)
      exact absurd (hab ▸ List.mem_cons_self) (List.nodup_cons.mp hnodup).1

theorem JobAnswer.Names.isUnder {a : JobAnswer} (h : a.Names run) {workspaceId : Nat} {key : String}
    (hunder : a.isUnder workspaceId key = true) : run.isUnder workspaceId key = true := by
  obtain ⟨hworkspace, hkey⟩ := JobAnswer.isUnder_iff.mp hunder
  exact PipelineRun.isUnder_iff.mpr ⟨h.workspaceId.trans hworkspace, h.idempotencyKey.trans hkey⟩

theorem JobStore.Sound.oneJob (hs : s.Sound) (workspaceId : Nat) (key : String) :
    s.OneJob workspaceId key where
  runs := by
    have hnodup : s.desk.db.runs.rows.Nodup := s.desk.db.runs.nodup.of_map
    refine length_le_one_of_same (hnodup.filter _) fun x hx y hy => ?_
    obtain ⟨hx, hunder⟩ := Table.mem_select.mp hx
    obtain ⟨hy, hunder'⟩ := Table.mem_select.mp hy
    exact hs.unique x hx y hy workspaceId key hunder hunder'
  created := by
    have hsub : (s.answers.filter fun a => a.created && a.isUnder workspaceId key).Sublist
        (s.answers.filter (·.created)) := by
      rw [← List.filter_filter]
      exact List.filter_sublist.filter _
    have hnodup := hs.once.sublist (hsub.map (·.runId))
    have hlength := length_le_one_of_same hnodup fun i hi j hj => by
      obtain ⟨a, ha, rfl⟩ := List.mem_map.mp hi
      obtain ⟨b, hb, rfl⟩ := List.mem_map.mp hj
      obtain ⟨ha, hunder⟩ := List.mem_filter.mp ha
      obtain ⟨hb, hunder'⟩ := List.mem_filter.mp hb
      obtain ⟨x, hx, hxa⟩ := hs.answers a ha
      obtain ⟨y, hy, hyb⟩ := hs.answers b hb
      have hone : x = y := hs.unique x hx y hy workspaceId key
        (hxa.isUnder (Bool.and_eq_true_iff.mp hunder).2)
          (hyb.isUnder (Bool.and_eq_true_iff.mp hunder').2)
      exact hxa.runId.symm.trans (hone ▸ hyb.runId)
    rwa [List.length_map] at hlength
  answers a ha hunder := by
    obtain ⟨run, hrun, hnames⟩ := hs.answers a ha
    exact ⟨run, hrun, hnames.isUnder hunder, hnames⟩
  job run hrun hunder := by
    have hkeyed : run.idempotencyKey ≠ none := by
      rw [(PipelineRun.isUnder_iff.mp hunder).2]
      exact fun h => by cases h
    have hdelivered := hs.desked.keyed run hrun hkeyed
    exact ⟨hs.created run hrun hkeyed, hdelivered.spend, hdelivered.rest.jobs⟩

theorem JobStore.sound_of_fresh {d : Desk} (hfresh : d.Fresh)
    (hdefinitions : d.db.DeskDefinitions) :
    ({ desk := d } : JobStore).Sound := by
  have hnone : ∀ run, run ∉ d.db.runs := by
    rw [hfresh.db.runs]
    exact fun _ => Table.mem_empty
  exact ⟨hfresh.db.desked hdefinitions, fun run hrun => absurd hrun (hnone run),
    fun a ha => absurd ha List.not_mem_nil, fun run hrun => absurd hrun (hnone run), List.nodup_nil⟩

/-- A step that is none of the other services' leaves an answer or nothing. -/
theorem contentJobs_leaves {w : World JobStore JobLock JobPoint}
    {a : Action JobRequest { op : DeskOp // op.isOther = true }}
    (hother : ∀ event, a ≠ .other event) (hs : w.store.Sound) :
    LeavesAnswer w.store (contentJobs.step w a).store := by
  rcases contentJobs.step_cases w a with heq | heffect
  · rw [heq]
    exact .inl rfl
  generalize contentJobs.step w a = w' at heffect
  cases heffect with
  | started _ => exact .inl rfl
  | ran _ _ _ _ => exact .inl rfl
  | aborted _ => exact .inl rfl
  | happened event _ => exact absurd rfl (hother event)
  | @committed x _ u commit =>
    change JobPoint.commit x.locals = some u at commit
    generalize x.locals = point at commit
    cases point with
    | answered r existing =>
      cases commit
      exact .inr ⟨_, rfl, fun _ => rfl⟩
    | drafted r =>
      cases commit
      rcases commitDraft_cases (r := r) hs.desked with heq | hcommitted
      · exact .inl heq
      · exact .inr ⟨_, hcommitted.answers, fun hcreated => by cases hcreated⟩
    | _ => cases commit

/-- **A content job is created once for its key.** However requests interleave, and whatever becomes
of the run meanwhile: one run, one creation, and answers that all name that run and its item; the
draft's one reservation is committed and none of its jobs is left to dispatch; and a request leaves
its answer or nothing. -/
theorem content_jobs_idempotent {d : Desk} {w : World JobStore JobLock JobPoint} (hfresh : d.Fresh)
    (hdefinitions : d.db.DeskDefinitions)
    (hreach : Reach contentJobs.Steps (fun _ _ => True) { store := { desk := d } } w) :
    (∀ workspaceId key, w.store.OneJob workspaceId key) ∧
    ∀ a w', (∀ event, a ≠ .other event) → contentJobs.Steps w a w' →
      LeavesAnswer w.store w'.store := by
  have hstart : World.Holds JobStore.Sound JobPoint.Asserts
      ({ store := { desk := d } } : World JobStore JobLock JobPoint) :=
    .idle (JobStore.sound_of_fresh hfresh hdefinitions)
  have hsound : w.store.Sound := (contentJobs_outline.sound hstart hreach).store
  refine ⟨hsound.oneJob, fun a w' hother htaken => ?_⟩
  have hstep : contentJobs.step w a = w' := htaken
  rw [← hstep]
  exact contentJobs_leaves hother hsound

/-- Two requests at once, of which one fails, and a third after the run's approval. -/
def repeatedRequests : List (Action JobRequest { op : DeskOp // op.isOther = true }) :=
  let request : JobRequest :=
    { workspaceId := 0, topic := "tides", script := {}, idempotencyKey := some "k" }
  [.start request, .start request, .run 0, .run 1, .run 0, .run 1, .run 0, .run 0, .run 0,
    .commit 0,
   .run 1, .run 1, .commit 1, .abort 1, .other ⟨.engine (.decide 0 0 7 true (some 1)), rfl⟩,
   .start request, .run 2, .run 2, .run 2, .commit 2]

theorem content_jobs_idempotent_repeated :
    (replay contentJobs.step
      { store := { desk := demoDesk } } repeatedRequests).store.OneJob 0 "k" ∧
    (replay contentJobs.step { store := { desk := demoDesk } } repeatedRequests).store.answers =
      [⟨0, some "k", 0, 1, true⟩, ⟨0, some "k", 0, 1, false⟩] := by
  have hdefinitions : demoDesk.db.DeskDefinitions := by
    have hnames : ∀ w ∈ demoDesk.db.definitions, w.name ≠ deskWorkflowName := by decide
    exact fun w hw hname => absurd hname (hnames w hw)
  obtain ⟨hone, _⟩ := content_jobs_idempotent demoDesk_fresh hdefinitions
    (reach_any repeatedRequests _)
  exact ⟨hone 0 "k", by decide +kernel⟩

end ContentOrchestrator
