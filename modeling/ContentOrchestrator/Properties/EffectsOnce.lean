import ContentOrchestrator.Workers.EffectRecords
import ContentOrchestrator.Lib.Transition

/-! # Provider effects at most once

Of the acknowledgements and submissions of an assignment the first to commit makes its
effect record, and the later ones find it. That rests on the key: it has to be the one
the assignment is on record under, and nobody else's. A submission may name any key, and
the record is unique by its key, not by its assignment. -/

namespace ContentOrchestrator

open Lib

/-- The fleet, and what its committed requests have said of effects so far. -/
structure EffectWorld where
  fleet : Fleet
  reports : List EffectReport := []

def effectStep (w : EffectWorld) (op : FleetOp) : EffectWorld where
  fleet := fleetStep w.fleet op
  reports := w.reports ++ (effectReport w.fleet op).toList

/-- Nothing is on record yet. -/
def EffectWorld.start (db : Db) (credentials : Table WorkerCredential) : EffectWorld :=
  { fleet := { db, credentials } }

def EffectWorld.reportsOf (w : EffectWorld) (assignmentId : Nat) : List EffectReport :=
  w.reports.filter (·.assignmentId == assignmentId)

/-- Of the requests on an assignment the first made its record, and every later one found that
record. -/
def EffectsOnce (w : EffectWorld) : Prop :=
  ∀ assignmentId, w.reportsOf assignmentId = [] ∨
    ∃ k ∈ w.fleet.effectKeys, k.assignmentId = assignmentId ∧
      ∃ n, w.reportsOf assignmentId =
        ⟨assignmentId, some k.id, true⟩ :: List.replicate n ⟨assignmentId, some k.id, false⟩

/-- The records under the key are the records of the assignment. -/
def keyFits (f : Fleet) (a : StageAssignment) (key : String) : Bool :=
  decide (∀ k ∈ f.effectKeys, (k.workspaceId = a.workspaceId ∧ k.effectKey = key) ↔
    k.assignmentId = a.id)

/-- An acknowledgement or submission that is answered comes with a key that fits its assignment. -/
def bringsOwnKey (w : EffectWorld) (op : FleetOp) : Bool :=
  match op.effectRequest with
  | none => true
  | some (assignmentId, key) =>
    (effectReport w.fleet op).isNone || (w.fleet.db.assignments.get? assignmentId).all fun a =>
      keyFits w.fleet a key

/-! ## The records -/

/-- A record's key is its own, and its maker said so. -/
structure EffectWorld.Recorded (w : EffectWorld) : Prop where
  unique : ∀ k ∈ w.fleet.effectKeys, ∀ k' ∈ w.fleet.effectKeys,
    k'.workspaceId = k.workspaceId → k'.effectKey = k.effectKey → k' = k
  reported : ∀ k ∈ w.fleet.effectKeys, ⟨k.assignmentId, some k.id, true⟩ ∈ w.reports

section Records

variable {f : Fleet} {w : EffectWorld} {a : StageAssignment} {key : String}

theorem hasEffectKey_iff {workspaceId : Nat} :
    hasEffectKey f workspaceId key = true ↔
      ∃ k ∈ f.effectKeys, k.workspaceId = workspaceId ∧ k.effectKey = key := by
  have hselect := Table.select_eq_nil (t := f.effectKeys)
    (p := fun k => k.workspaceId == workspaceId && k.effectKey == key)
  unfold hasEffectKey
  rw [decide_eq_true_eq, ← Bool.not_eq_true, List.isEmpty_iff, hselect]
  simp

/-- The key is on record: nothing is written, and the record is the one under the key. -/
theorem recordKey_known {k : ProviderEffectKey} (hrecorded : w.Recorded)
    (hk : k ∈ w.fleet.effectKeys) (hworkspace : k.workspaceId = a.workspaceId)
    (hkey : k.effectKey = key) {g : Fleet}
    (hg : g.effectKeys = (recordKey a key w.fleet).effectKeys) :
    hasEffectKey w.fleet a.workspaceId key = true ∧ g.effectKeys = w.fleet.effectKeys ∧
      keyRecord g a.workspaceId key = some k := by
  have hknown : hasEffectKey w.fleet a.workspaceId key =
      true := hasEffectKey_iff.mpr ⟨k, hk, hworkspace, hkey⟩
  have hsame : g.effectKeys = w.fleet.effectKeys := by
    rw [hg, recordKey, if_pos hknown]
  refine ⟨hknown, hsame, ?_⟩
  have hmatch : ∀ k' ∈ g.effectKeys.select fun k =>
      k.workspaceId == a.workspaceId && k.effectKey == key,
      k' = k := by
    intro k' hk'
    obtain ⟨hmem, hmatches⟩ := Table.mem_select.mp hk'
    simp only [Bool.and_eq_true, beq_iff_eq] at hmatches
    exact hrecorded.unique k hk k' (hsame ▸ hmem) (hmatches.1.trans hworkspace.symm)
      (hmatches.2.trans hkey.symm)
  have hin : k ∈ g.effectKeys.select fun k =>
      k.workspaceId == a.workspaceId && k.effectKey == key :=
    Table.mem_select.mpr ⟨hsame ▸ hk, by simp [hworkspace, hkey]⟩
  unfold keyRecord
  cases hhead :
    (g.effectKeys.select fun k => k.workspaceId == a.workspaceId && k.effectKey == key).head? with
  | none =>
    rw [List.head?_eq_none_iff.mp hhead] at hin
    cases hin
  | some k' => rw [hmatch k' (List.mem_of_mem_head? hhead)]

/-- The key is new: the record is the one made for it. -/
theorem recordKey_new (hnew : hasEffectKey f a.workspaceId key = false) {g : Fleet}
    (hg : g.effectKeys = (recordKey a key f).effectKeys) :
    ∃ k, g.effectKeys = (insertEffectKey a.workspaceId a.id a.attemptNumber key f).effectKeys ∧
      k ∈ g.effectKeys ∧ k.assignmentId = a.id ∧ k.workspaceId = a.workspaceId ∧ k.effectKey = key ∧
        (∀ k' ∈ g.effectKeys, k' ∈ f.effectKeys ∨ k' = k) ∧
          keyRecord g a.workspaceId key = some k := by
  have hinsert : g.effectKeys =
      (insertEffectKey a.workspaceId a.id a.attemptNumber key f).effectKeys := by
    rw [hg, recordKey, if_neg (by rw [hnew]; exact Bool.false_ne_true)]
  have hnone : f.effectKeys.select (fun k =>
      k.workspaceId == a.workspaceId && k.effectKey == key) = [] := by
    unfold hasEffectKey at hnew
    simpa using hnew
  refine ⟨⟨f.effectKeys.next, a.workspaceId, a.id, a.attemptNumber, key⟩, hinsert, ?_, rfl, rfl,
    rfl,
    fun k' hk' => ?_, ?_⟩
  · rw [hinsert]
    exact Table.mem_insert.mpr (.inr rfl)
  · rw [hinsert] at hk'
    exact Table.mem_insert.mp hk'
  · unfold keyRecord
    rw [hinsert]
    unfold insertEffectKey
    rw [Table.select_insert, hnone]
    simp

end Records

/-! ## One request -/

/-- One more report keeps the pattern if it is the first and made the record, or a later one that
found it. -/
theorem snoc_eq_pattern {α : Type} {old : List α} {x y z : α} {n : Nat} :
    old ++ [x] = y :: List.replicate n z ↔
      (old = [] ∧ x = y ∧ n = 0) ∨ ∃ m, n = m + 1 ∧ old = y :: List.replicate m z ∧ x = z := by
  cases n with
  | zero =>
    constructor
    · intro h
      cases old with
      | nil =>
        simp only [List.nil_append, List.replicate_zero, List.cons.injEq, and_true] at h
        exact .inl ⟨rfl, h, rfl⟩
      | cons b rest => simp at h
    · rintro (⟨rfl, rfl, _⟩ | ⟨m, hm, _⟩)
      · rfl
      · cases hm
  | succ n =>
    rw [List.replicate_succ', ← List.cons_append]
    constructor
    · intro h
      obtain ⟨hold, hlast⟩ := List.append_inj' h rfl
      exact .inr ⟨n, rfl, hold, List.head_eq_of_cons_eq hlast⟩
    · rintro (⟨_, _, hn⟩ | ⟨m, hm, rfl, rfl⟩)
      · cases hn
      · rw [Nat.succ.inj hm]

section Step

variable {w : EffectWorld} {op : FleetOp}

theorem reportsOf_step {r : EffectReport} (h : effectReport w.fleet op = some r)
    (assignmentId : Nat) :
    (effectStep w op).reportsOf assignmentId =
      w.reportsOf assignmentId ++ if r.assignmentId = assignmentId then [r] else [] := by
  unfold EffectWorld.reportsOf effectStep
  rw [h, List.filter_append]
  congr 1
  by_cases hid : r.assignmentId = assignmentId <;> simp [hid]

theorem mem_reportsOf {r : EffectReport} (h : r ∈ w.reports) : r ∈ w.reportsOf r.assignmentId :=
  List.mem_filter.mpr ⟨h, by simp⟩

/-- No operation breaks the records. -/
theorem EffectWorld.Recorded.step (h : w.Recorded) (op : FleetOp) : (effectStep w op).Recorded := by
  rcases fleetStep_record w.fleet op with
    ⟨hnone, hkeys⟩ | ⟨assignmentId, key, a, _, _, hreport, hkeys⟩
  · have hreports : (effectStep w op).reports = w.reports := by
      simp [effectStep, hnone]
    refine ⟨?_, ?_⟩
    · change ∀ k ∈ (fleetStep w.fleet op).effectKeys, ∀ k' ∈ (fleetStep w.fleet op).effectKeys, _
      rw [hkeys]
      exact h.unique
    · change ∀ k ∈ (fleetStep w.fleet op).effectKeys, _
      rw [hkeys, hreports]
      exact h.reported
  · have hgrows : ∀ r ∈ w.reports, r ∈ (effectStep w op).reports := fun r hr =>
      List.mem_append.mpr (.inl hr)
    cases hknown : hasEffectKey w.fleet a.workspaceId key with
    | true =>
      have hsame : (effectStep w op).fleet.effectKeys = w.fleet.effectKeys :=
        hkeys.trans (by rw [recordKey, if_pos hknown])
      refine ⟨?_, ?_⟩
      · rw [hsame]
        exact h.unique
      · rw [hsame]
        exact fun k hk => hgrows _ (h.reported k hk)
    | false =>
      obtain ⟨k, _, hk, hassignment, hworkspace, hkey, hold, hrecord⟩ := recordKey_new hknown hkeys
      have hfree : ∀ k' ∈ w.fleet.effectKeys, k'.workspaceId = k.workspaceId →
          k'.effectKey = k.effectKey →
          False := by
        intro k' hk' hspace hsame
        rw [hasEffectKey_iff.mpr ⟨k', hk', hspace.trans hworkspace, hsame.trans hkey⟩] at hknown
        cases hknown
      refine ⟨fun k₁ hk₁ k₂ hk₂ hspace hsame => ?_, fun k₁ hk₁ => ?_⟩
      · rcases hold k₁ hk₁ with hk₁ | rfl
        · rcases hold k₂ hk₂ with hk₂ | rfl
          · exact h.unique k₁ hk₁ k₂ hk₂ hspace hsame
          · exact (hfree k₁ hk₁ hspace.symm hsame.symm).elim
        · rcases hold k₂ hk₂ with hk₂ | rfl
          · exact (hfree k₂ hk₂ hspace hsame).elim
          · rfl
      · rcases hold k₁ hk₁ with hk₁ | rfl
        · exact hgrows _ (h.reported k₁ hk₁)
        · refine List.mem_append.mpr (.inr ?_)
          rw [hreport, reportOn, hrecord, hknown, hassignment]
          exact List.mem_singleton.mpr rfl

/-- An assignment that has reports has one record, the one they name. -/
theorem EffectWorld.Recorded.sole (h : w.Recorded) {k k₁ : ProviderEffectKey} {n : Nat}
    (hk : k ∈ w.fleet.effectKeys) (hk₁ : k₁ ∈ w.fleet.effectKeys)
    (hpattern : w.reportsOf k.assignmentId =
      ⟨k.assignmentId, some k₁.id, true⟩ :: List.replicate n ⟨k.assignmentId, some k₁.id, false⟩) :
        k = k₁ := by
  have hin := mem_reportsOf (h.reported k hk)
  dsimp only at hin
  rw [hpattern] at hin
  rcases List.mem_cons.mp hin with hfirst | hlater
  · have hid : some k.id = some k₁.id := congrArg EffectReport.recordId hfirst
    exact Table.eq_of_key hk hk₁ (Option.some.inj hid)
  · have hcreated : true = false := congrArg EffectReport.created (List.eq_of_mem_replicate hlater)
    cases hcreated

/-- Requests on other assignments keep their pattern. -/
theorem EffectsOnce.others {r : EffectReport} (honce : EffectsOnce w)
    (hreport : effectReport w.fleet op = some r)
    (hgrows : ∀ k ∈ w.fleet.effectKeys, k ∈ (fleetStep w.fleet op).effectKeys) {assignmentId : Nat}
    (hne : r.assignmentId ≠ assignmentId) :
    (effectStep w op).reportsOf assignmentId = [] ∨
      ∃ k ∈ (effectStep w op).fleet.effectKeys, k.assignmentId = assignmentId ∧
        ∃ n, (effectStep w op).reportsOf assignmentId =
          ⟨assignmentId, some k.id, true⟩ :: List.replicate n ⟨assignmentId, some k.id, false⟩ := by
  rw [reportsOf_step hreport, if_neg hne, List.append_nil]
  rcases honce assignmentId with hempty | ⟨k, hk, hid, hpattern⟩
  · exact .inl hempty
  · exact .inr ⟨k, hgrows k hk, hid, hpattern⟩

variable {a : StageAssignment} {key : String}

/-- A request that finds its key on record: it fits if the record is its assignment's. -/
theorem effectsOnce_known {k : ProviderEffectKey} (hrecorded : w.Recorded) (honce : EffectsOnce w)
    (hk : k ∈ w.fleet.effectKeys) (hworkspace : k.workspaceId = a.workspaceId)
    (hkey : k.effectKey = key) (hsame : (fleetStep w.fleet op).effectKeys = w.fleet.effectKeys)
    (hreport : effectReport w.fleet op = some ⟨a.id, some k.id, false⟩) :
    EffectsOnce (effectStep w op) ↔ keyFits w.fleet a key = true := by
  have hown := reportsOf_step hreport a.id
  rw [if_pos rfl] at hown
  rw [keyFits, decide_eq_true_eq]
  constructor
  · intro hafter k' hk'
    rcases hafter a.id with hempty | ⟨k₁, hk₁, hid₁, n, hpattern⟩
    · rw [hown] at hempty
      simp at hempty
    rw [hown, snoc_eq_pattern] at hpattern
    rcases hpattern with ⟨_, hfirst, _⟩ | ⟨m, _, hold, hlast⟩
    · have hcreated : false = true := congrArg EffectReport.created hfirst
      cases hcreated
    have hk₁' : k₁ ∈ w.fleet.effectKeys := by
      rw [← hsame]
      exact hk₁
    have hrecord : some k.id = some k₁.id := congrArg EffectReport.recordId hlast
    have hsole : k = k₁ := Table.eq_of_key hk hk₁' (Option.some.inj hrecord)
    constructor
    · rintro ⟨hspace, hkey'⟩
      rw [hrecorded.unique k hk k' hk' (hspace.trans hworkspace.symm) (hkey'.trans hkey.symm),
        hsole]
      exact hid₁
    · intro hid'
      rw [← hid'] at hold
      rw [hrecorded.sole hk' hk₁' hold, ← hsole]
      exact ⟨hworkspace, hkey⟩
  · intro hfits id
    have hmine : k.assignmentId = a.id := (hfits k hk).mp ⟨hworkspace, hkey⟩
    by_cases hid : a.id = id
    · subst hid
      rcases honce a.id with hempty | ⟨k₁, hk₁, _, n, hpattern⟩
      · have hin := mem_reportsOf (hrecorded.reported k hk)
        dsimp only at hin
        rw [hmine, hempty] at hin
        cases hin
      have hsole : k = k₁ := by
        rw [← hmine] at hpattern
        exact hrecorded.sole hk hk₁ hpattern
      refine .inr ⟨k, ?_, hmine, n + 1, ?_⟩
      · change k ∈ (fleetStep w.fleet op).effectKeys
        rw [hsame]
        exact hk
      · rw [hown, hpattern, ← hsole]
        exact snoc_eq_pattern.mpr (.inr ⟨n, rfl, rfl, rfl⟩)
    · exact honce.others hreport (fun k hk => by rw [hsame]; exact hk) hid

/-- A request whose key is new: it fits if its assignment has no record. -/
theorem effectsOnce_new {k : ProviderEffectKey} (hrecorded : w.Recorded) (honce : EffectsOnce w)
    (hfree : ∀ k' ∈ w.fleet.effectKeys, ¬ (k'.workspaceId = a.workspaceId ∧ k'.effectKey = key))
    (hk : k ∈ (fleetStep w.fleet op).effectKeys) (hmine : k.assignmentId = a.id)
    (hgrows : ∀ k ∈ w.fleet.effectKeys, k ∈ (fleetStep w.fleet op).effectKeys)
    (hreport : effectReport w.fleet op = some ⟨a.id, some k.id, true⟩) :
    EffectsOnce (effectStep w op) ↔ keyFits w.fleet a key = true := by
  have hown := reportsOf_step hreport a.id
  rw [if_pos rfl] at hown
  rw [keyFits, decide_eq_true_eq]
  constructor
  · intro hafter k' hk'
    rcases hafter a.id with hempty | ⟨k₁, _, _, n, hpattern⟩
    · rw [hown] at hempty
      simp at hempty
    rw [hown, snoc_eq_pattern] at hpattern
    rcases hpattern with ⟨hold, _, _⟩ | ⟨m, _, _, hlast⟩
    · refine ⟨fun hmatches => (hfree k' hk' hmatches).elim, fun hid' => ?_⟩
      have hin := mem_reportsOf (hrecorded.reported k' hk')
      dsimp only at hin
      rw [hid', hold] at hin
      cases hin
    · have hcreated : true = false := congrArg EffectReport.created hlast
      cases hcreated
  · intro hfits id
    by_cases hid : a.id = id
    · subst hid
      have hempty : w.reportsOf a.id = [] := by
        rcases honce a.id with hempty | ⟨k₁, hk₁, hid₁, _⟩
        · exact hempty
        · exact (hfree k₁ hk₁ ((hfits k₁ hk₁).mpr hid₁)).elim
      refine .inr ⟨k, hk, hmine, 0, ?_⟩
      rw [hown, hempty]
      rfl
    · exact honce.others hreport hgrows hid

/-- **One step keeps the pattern exactly when the request brings its assignment's own key.** -/
theorem effectsOnce_step_iff (hrecorded : w.Recorded) (honce : EffectsOnce w) :
    EffectsOnce (effectStep w op) ↔ bringsOwnKey w op = true := by
  rcases fleetStep_record w.fleet op with
    ⟨hnone, hkeys⟩ | ⟨assignmentId, key, a, hrequest, hfound, hreport, hkeys⟩
  · have hok : bringsOwnKey w op = true := by
      unfold bringsOwnKey
      split
      · rfl
      · rw [hnone]
        rfl
    have hafter : EffectsOnce (effectStep w op) := by
      intro id
      have hreports : (effectStep w op).reportsOf id = w.reportsOf id := by
        simp [effectStep, EffectWorld.reportsOf, hnone]
      rw [hreports]
      change _ ∨ ∃ k ∈ (fleetStep w.fleet op).effectKeys, _
      rw [hkeys]
      exact honce id
    exact ⟨fun _ => hok, fun _ => hafter⟩
  have hok : bringsOwnKey w op = keyFits w.fleet a key := by
    simp [bringsOwnKey, hrequest, hreport, hfound]
  rw [hok]
  cases hknown : hasEffectKey w.fleet a.workspaceId key with
  | true =>
    obtain ⟨k, hk, hworkspace, hkey⟩ := hasEffectKey_iff.mp hknown
    obtain ⟨_, hsame, hrecord⟩ := recordKey_known hrecorded hk hworkspace hkey hkeys
    rw [reportOn, hrecord, hknown] at hreport
    exact effectsOnce_known hrecorded honce hk hworkspace hkey hsame hreport
  | false =>
    obtain ⟨k, hinsert, hk, hmine, _, _, _, hrecord⟩ := recordKey_new hknown hkeys
    rw [reportOn, hrecord, hknown] at hreport
    have hfree : ∀ k' ∈ w.fleet.effectKeys, ¬ (k'.workspaceId = a.workspaceId ∧
        k'.effectKey = key) := by
      intro k' hk' hmatches
      rw [hasEffectKey_iff.mpr ⟨k', hk', hmatches⟩] at hknown
      cases hknown
    refine effectsOnce_new hrecorded honce hfree hk hmine (fun k' hk' => ?_) hreport
    rw [hinsert]
    exact Table.mem_insert.mpr (.inl hk')

end Step

/-- **Provider effects at most once, exactly.** In a history of requests over any workspaces, in
which submissions may name any key, the first acknowledgement or submission of every assignment
makes its record and all later ones find it, exactly when each that is answered brings a key that
fits: the assignment's own, if it is on record, and otherwise one that nobody in its workspace
has. -/
theorem provider_effects_once_iff (db : Db) (credentials : Table WorkerCredential)
    (requests : List FleetOp) :
    (∀ n, EffectsOnce (replay effectStep (.start db credentials) (requests.take n))) ↔
      admits effectStep bringsOwnKey (.start db credentials) requests = true := by
  have hrecorded : (EffectWorld.start db credentials).Recorded :=
    ⟨fun k hk => (Table.mem_empty hk).elim, fun k hk => (Table.mem_empty hk).elim⟩
  have hstart : EffectsOnce (.start db credentials) := fun _ => .inl rfl
  have hsteps : ∀ w op, EffectWorld.Recorded w → (effectStep w op).Recorded :=
    fun w op h => h.step op
  exact throughout_iff_admits hsteps (fun w op h honce => effectsOnce_step_iff h honce) requests _
    hrecorded hstart

/-- The worker acknowledges its assignment, and submits under a key of its own. -/
def ownKeyHistory : List FleetOp :=
  givenHistory ++ [.ack 0 firstBearer,
    .submit 0 { success := true, providerEffectKey := some "image-7" } firstBearer 0]

/-- Both requests make a record, and both are told to go ahead. -/
theorem second_key_creates_again :
    ¬ ∀ (db : Db) (credentials : Table WorkerCredential) (requests : List FleetOp),
      EffectsOnce (replay effectStep (.start db credentials) requests) := by
  intro h
  have honce := h demoFleet.db demoFleet.credentials ownKeyHistory
  have hreports :
      (replay effectStep (.start demoFleet.db demoFleet.credentials) ownKeyHistory).reportsOf 0 =
      [⟨0, some 0, true⟩, ⟨0, some 1, true⟩] := by decide +kernel
  rcases honce 0 with hempty | ⟨k, _, _, n, hpattern⟩
  · rw [hreports] at hempty
    cases hempty
  · have hlater : (⟨0, some 1, true⟩ : EffectReport) ∈ List.replicate n ⟨0, some k.id, false⟩ := by
      rw [hreports] at hpattern
      rw [← (List.cons.inj hpattern).2]
      exact List.mem_singleton.mpr rfl
    have hcreated : true = false := congrArg EffectReport.created (List.eq_of_mem_replicate hlater)
    cases hcreated

end ContentOrchestrator
