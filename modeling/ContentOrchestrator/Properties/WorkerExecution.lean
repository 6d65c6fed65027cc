import ContentOrchestrator.Properties.EffectsOnce
import ContentOrchestrator.Workers.ReferenceWorker

/-! # Reference workers execute an assignment once

Requests and answers get lost, clients crash, assignments go from one worker to the next, and
anyone else may acknowledge and submit as well. Still no two executors are ever handed one
assignment: a client executes on the answer that its acknowledgement made the effect record,
and the record of an assignment is made once and never taken back. -/

namespace ContentOrchestrator

open Lib

variable {f g : Fleet} {w w' : Workshop} {i : Nat}

/-! ## The record of an assignment -/

/-- The assignment's own effect record has been made. -/
def Spent (f : Fleet) (assignmentId : Nat) : Prop :=
  ∃ a, f.db.assignments.get? assignmentId = some a ∧
    hasEffectKey f a.workspaceId (defaultEffectKey assignmentId) = true

theorem hasEffectKey_mono (h : ∀ k ∈ f.effectKeys, k ∈ g.effectKeys) {workspaceId : Nat}
    {key : String} (hkey : hasEffectKey f workspaceId key = true) :
    hasEffectKey g workspaceId key = true := by
  obtain ⟨k, hk, hthere⟩ := hasEffectKey_iff.mp hkey
  exact hasEffectKey_iff.mpr ⟨k, h k hk, hthere⟩

theorem recordKey_mono {a : StageAssignment} {key : String} {k : ProviderEffectKey}
    (h : k ∈ f.effectKeys) : k ∈ (recordKey a key f).effectKeys := by
  unfold recordKey
  split
  · exact h
  · exact Table.mem_insert.mpr (.inl h)

/-- Whether or not it was there before, the key is on record after the request. -/
theorem hasEffectKey_recorded {a : StageAssignment} {key : String}
    (hkeys : g.effectKeys = (recordKey a key f).effectKeys) :
    hasEffectKey g a.workspaceId key = true := by
  cases hknown : hasEffectKey f a.workspaceId key with
  | true =>
    refine hasEffectKey_mono (fun k hk => ?_) hknown
    rw [hkeys]
    exact recordKey_mono hk
  | false =>
    obtain ⟨k, -, hk, -, hworkspace, hkey, -⟩ := recordKey_new hknown hkeys
    exact hasEffectKey_iff.mpr ⟨k, hk, hworkspace, hkey⟩

theorem fleetStep_effectKeys (f : Fleet) (op : FleetOp) :
    ∀ k ∈ f.effectKeys, k ∈ (fleetStep f op).effectKeys := by
  intro k hk
  rcases fleetStep_record f op with ⟨-, hsame⟩ | ⟨_, _, _, -, -, -, hkeys⟩
  · rw [hsame]
    exact hk
  · rw [hkeys]
    exact recordKey_mono hk

/-- A row is there under its key after any transaction, in its workspace. -/
theorem fleetStep_row (op : FleetOp) (hs : f.db.Sound) {assignmentId : Nat} {a : StageAssignment}
    (h : f.db.assignments.get? assignmentId = some a) :
    ∃ b, (fleetStep f op).db.assignments.get? assignmentId = some b ∧
      b.workspaceId = a.workspaceId := by
  obtain ⟨hmem, hid⟩ := Table.get?_eq_some.mp h
  obtain ⟨b, hb, hmove⟩ := (fleetStep_moves f op hs).2.old a hmem
  exact ⟨b, Table.get?_eq_some.mpr ⟨hb, hmove.id.trans hid⟩, hmove.workspaceId⟩

theorem Spent.fleetStep {op : FleetOp} (hs : f.db.Sound) {assignmentId : Nat}
    (h : Spent f assignmentId) : Spent (fleetStep f op) assignmentId := by
  obtain ⟨a, hrow, hkey⟩ := h
  obtain ⟨b, hb, hws⟩ := fleetStep_row op hs hrow
  exact ⟨b, hb, hws ▸ hasEffectKey_mono (fleetStep_effectKeys f op) hkey⟩

/-! ## Requests -/

/-- What the server never takes back. -/
structure Retains (f g : Fleet) : Prop where
  sound : g.db.Sound
  spent : ∀ assignmentId, Spent f assignmentId → Spent g assignmentId

theorem retains_fleetStep (hs : f.db.Sound) (op : FleetOp) : Retains f (fleetStep f op) :=
  ⟨(fleetStep_moves f op hs).1, fun _ h => h.fleetStep hs⟩

theorem atomically_answered {α β : Type} (x : Endpoint α) (h : α → β) (f : Fleet) :
    atomically (do return h (← x)) f = atomically x f := by
  rcases atomically_cases x f with ⟨a, hreturned⟩ | ⟨⟨e, t, hraised⟩, hstay⟩
  · have hbody : Returns (do return h (← x)) f (h a) (atomically x f) := by
      simp only [returns_bind, returns_pure]
      exact ⟨a, _, hreturned, rfl, rfl⟩
    exact hbody.atomically
  · have hbody : Raises (do return h (← x)) f e t := raises_bind.mpr (.inl hraised)
    have hrun : (do return h (← x) : Endpoint β).run f = .error e t := hbody
    rw [hstay, atomically, hrun]

theorem retains_served {α : Type} (hs : f.db.Sound) (fate : Fate) {x : Endpoint α} (op : FleetOp)
    (h : atomically x f = fleetStep f op) : Retains f (fate.served x f) := by
  cases fate with
  | requestLost => exact ⟨hs, fun _ h => h⟩
  | refused _ => exact ⟨hs, fun _ h => h⟩
  | answerLost =>
    rw [Fate.served, h]
    exact retains_fleetStep hs op
  | answered =>
    rw [Fate.served, h]
    exact retains_fleetStep hs op

/-! ## What the clients hold -/

/-- The assignment the client may hand to its executor next. -/
def CyclePhase.permit : CyclePhase → Option Nat
  | .renewing assignmentId | .ready assignmentId => some assignmentId
  | _ => none

/-- The assignment its executor is at. -/
def CyclePhase.running : CyclePhase → Option Nat
  | .executing assignmentId => some assignmentId
  | _ => none

/-- The result it is about to submit, other than a refusal. -/
def CyclePhase.result : CyclePhase → Option (Nat × Outcome)
  | .submitting assignmentId outcome => some (assignmentId, outcome)
  | _ => none

/-- An assignment somebody may execute has its record and was not executed; one that was executed
has it too, and one result at most. -/
structure OnceOnly (w : Workshop) : Prop where
  sound : w.fleet.db.Sound
  permitted : ∀ i a, (w.clients i).phase.permit = some a → Spent w.fleet a ∧ a ∉ w.executions
  exclusive : ∀ i j a, (w.clients i).phase.permit = some a → (w.clients j).phase.permit = some a →
    i = j
  executed : ∀ a ∈ w.executions, Spent w.fleet a
  distinct : w.executions.Nodup
  running : ∀ i a, (w.clients i).phase.running = some a →
    a ∈ w.executions ∧ a ∉ w.results.map Prod.fst
  alone : ∀ i j a, (w.clients i).phase.running = some a → (w.clients j).phase.running = some a →
    i = j
  results : ∀ r ∈ w.results, r.1 ∈ w.executions
  single : (w.results.map Prod.fst).Nodup
  submitted : ∀ i r, (w.clients i).phase.result = some r → r.2 = effectRefusal ∨ r ∈ w.results

/-- The new phase gives the client nothing to execute or submit that it did not have. -/
structure Quiet (old new : CyclePhase) : Prop where
  permit : ∀ a, new.permit = some a → old.permit = some a
  running : ∀ a, new.running = some a → old.running = some a
  result : ∀ r, new.result = some r → r.2 = effectRefusal ∨ old.result = some r

theorem Quiet.refl (p : CyclePhase) : Quiet p p := ⟨fun _ h => h, fun _ h => h, fun _ h => .inr h⟩

theorem quiet_of_none {old new : CyclePhase} (hpermit : new.permit = none)
    (hrunning : new.running = none) (hresult : new.result = none) : Quiet old new where
  permit a h := by
    rw [hpermit] at h
    cases h
  running a h := by
    rw [hrunning] at h
    cases h
  result r h := by
    rw [hresult] at h
    cases h

/-- A step that only quiets clients. -/
theorem OnceOnly.quiet (h : OnceOnly w) (hkept : Retains w.fleet w'.fleet)
    (hquiet : ∀ j, Quiet (w.clients j).phase (w'.clients j).phase)
    (hexecutions : w'.executions = w.executions) (hresults : w'.results = w.results) :
    OnceOnly w' where
  sound := hkept.sound
  permitted j a hj := by
    obtain ⟨hspent, hnot⟩ := h.permitted j a ((hquiet j).permit a hj)
    rw [hexecutions]
    exact ⟨hkept.spent a hspent, hnot⟩
  exclusive j k a hj hk := h.exclusive j k a ((hquiet j).permit a hj) ((hquiet k).permit a hk)
  executed a ha := by
    rw [hexecutions] at ha
    exact hkept.spent a (h.executed a ha)
  distinct := hexecutions ▸ h.distinct
  running j a hj := by
    rw [hexecutions, hresults]
    exact h.running j a ((hquiet j).running a hj)
  alone j k a hj hk := h.alone j k a ((hquiet j).running a hj) ((hquiet k).running a hk)
  results := by
    rw [hresults, hexecutions]
    exact h.results
  single := hresults ▸ h.single
  submitted j r hj := by
    rw [hresults]
    rcases (hquiet j).result r hj with hrefused | hold
    · exact .inl hrefused
    · exact h.submitted j r hold

/-- What a phase shows is the changed client's, or another's as it was. -/
theorem shown_update {β : Type} {c : ReferenceWorkerClient} {view : CyclePhase → Option β}
    (hclients : w'.clients = Function.update w.clients i c) {j : Nat} {b : β}
    (h : view (w'.clients j).phase = some b) :
    j = i ∧ view c.phase = some b ∨ j ≠ i ∧ view (w.clients j).phase = some b := by
  rw [hclients] at h
  by_cases hj : j = i
  · rw [hj, Function.update_self] at h
    exact .inl ⟨hj, h⟩
  · rw [Function.update_of_ne hj] at h
    exact .inr ⟨hj, h⟩

/-- One client is quieted, the others stay as they are. -/
theorem OnceOnly.quietClient (h : OnceOnly w) {c : ReferenceWorkerClient}
    (hkept : Retains w.fleet w'.fleet) (hclients : w'.clients = Function.update w.clients i c)
    (hquiet : Quiet (w.clients i).phase c.phase) (hexecutions : w'.executions = w.executions)
    (hresults : w'.results = w.results) : OnceOnly w' := by
  refine h.quiet hkept (fun j => ?_) hexecutions hresults
  rw [hclients]
  by_cases hj : j = i
  · rw [hj, Function.update_self]
    exact hquiet
  · rw [Function.update_of_ne hj]
    exact .refl _

/-! ## The three steps that are not quiet -/

section

variable {c : ReferenceWorkerClient} {a : Nat} (h : OnceOnly w)
  (hclients : w'.clients = Function.update w.clients i c)
include h hclients

/-- An acknowledgement made the record: nobody held the assignment before. -/
theorem OnceOnly.acknowledged (hkept : Retains w.fleet w'.fleet) (hphase : c.phase = .renewing a)
    (hfresh : ¬ Spent w.fleet a) (hspent : Spent w'.fleet a)
    (hexecutions : w'.executions = w.executions) (hresults : w'.results = w.results) :
    OnceOnly w' := by
  have hpermit : ∀ b, c.phase.permit = some b → b = a := fun b hb => by
    rw [hphase] at hb
    exact (Option.some.inj hb).symm
  have hrunning : c.phase.running = none := by rw [hphase]; rfl
  have hresult : c.phase.result = none := by rw [hphase]; rfl
  have hnot : a ∉ w.executions := fun ha => hfresh (h.executed a ha)
  have hfree : ∀ j, (w.clients j).phase.permit ≠ some a :=
    fun j hj => hfresh (h.permitted j a hj).1
  refine
    { sound := hkept.sound
      permitted := fun j b hj => ?_, exclusive := fun j k b hj hk => ?_
      executed := fun b hb => hkept.spent b (h.executed b (hexecutions ▸ hb))
      distinct := hexecutions ▸ h.distinct
      running := fun j b hj => ?_, alone := fun j k b hj hk => ?_
      results := by rw [hresults, hexecutions]; exact h.results
      single := hresults ▸ h.single
      submitted := fun j r hj => ?_ }
  · rw [hexecutions]
    rcases shown_update hclients hj with ⟨-, hb⟩ | ⟨-, hb⟩
    · rw [hpermit b hb]
      exact ⟨hspent, hnot⟩
    · exact ⟨hkept.spent b (h.permitted j b hb).1, (h.permitted j b hb).2⟩
  · rcases shown_update hclients hj with ⟨rfl, hb⟩ | ⟨-, hb⟩
    · rcases shown_update hclients hk with ⟨rfl, -⟩ | ⟨-, hb'⟩
      · rfl
      · exact absurd (hpermit b hb ▸ hb') (hfree k)
    · rcases shown_update hclients hk with ⟨rfl, hb'⟩ | ⟨-, hb'⟩
      · exact absurd (hpermit b hb' ▸ hb) (hfree j)
      · exact h.exclusive j k b hb hb'
  · rw [hexecutions, hresults]
    rcases shown_update hclients hj with ⟨-, hb⟩ | ⟨-, hb⟩
    · cases hrunning.symm.trans hb
    · exact h.running j b hb
  · rcases shown_update hclients hj with ⟨-, hb⟩ | ⟨-, hb⟩
    · cases hrunning.symm.trans hb
    · rcases shown_update hclients hk with ⟨-, hb'⟩ | ⟨-, hb'⟩
      · cases hrunning.symm.trans hb'
      · exact h.alone j k b hb hb'
  · rw [hresults]
    rcases shown_update hclients hj with ⟨-, hr⟩ | ⟨-, hr⟩
    · cases hresult.symm.trans hr
    · exact h.submitted j r hr

/-- The client that holds the permit hands the assignment to its executor. -/
theorem OnceOnly.handed (hfleet : w'.fleet = w.fleet) (hold : (w.clients i).phase.permit = some a)
    (hphase : c.phase = .executing a) (hexecutions : w'.executions = w.executions ++ [a])
    (hresults : w'.results = w.results) : OnceOnly w' := by
  obtain ⟨hspent, hnot⟩ := h.permitted i a hold
  have hpermit : c.phase.permit = none := by rw [hphase]; rfl
  have hrunning : ∀ b, c.phase.running = some b → b = a := fun b hb => by
    rw [hphase] at hb
    exact (Option.some.inj hb).symm
  have hresult : c.phase.result = none := by rw [hphase]; rfl
  have hidle : ∀ j, (w.clients j).phase.running ≠ some a :=
    fun j hj => hnot (h.running j a hj).1
  have hunreported : a ∉ w.results.map Prod.fst := by
    intro hmem
    obtain ⟨r, hr, rfl⟩ := List.mem_map.mp hmem
    exact hnot (h.results r hr)
  refine
    { sound := hfleet ▸ h.sound
      permitted := fun j b hj => ?_, exclusive := fun j k b hj hk => ?_
      executed := fun b hb => ?_, distinct := ?_
      running := fun j b hj => ?_, alone := fun j k b hj hk => ?_
      results := fun r hr => ?_, single := hresults ▸ h.single
      submitted := fun j r hj => ?_ }
  · rw [hfleet, hexecutions, List.mem_append, List.mem_singleton]
    rcases shown_update hclients hj with ⟨-, hb⟩ | ⟨hne, hb⟩
    · cases hpermit.symm.trans hb
    · refine ⟨(h.permitted j b hb).1, not_or.mpr ⟨(h.permitted j b hb).2, ?_⟩⟩
      rintro rfl
      exact hne (h.exclusive j i b hb hold)
  · rcases shown_update hclients hj with ⟨-, hb⟩ | ⟨-, hb⟩
    · cases hpermit.symm.trans hb
    · rcases shown_update hclients hk with ⟨-, hb'⟩ | ⟨-, hb'⟩
      · cases hpermit.symm.trans hb'
      · exact h.exclusive j k b hb hb'
  · rw [hfleet]
    rcases List.mem_append.mp (hexecutions ▸ hb) with hb | hb
    · exact h.executed b hb
    · exact List.mem_singleton.mp hb ▸ hspent
  · rw [hexecutions]
    exact List.nodup_append.mpr ⟨h.distinct, List.nodup_singleton a, fun b hb b' hb' heq =>
      hnot (List.mem_singleton.mp hb' ▸ heq ▸ hb)⟩
  · rw [hexecutions, hresults, List.mem_append, List.mem_singleton]
    rcases shown_update hclients hj with ⟨-, hb⟩ | ⟨-, hb⟩
    · rw [hrunning b hb]
      exact ⟨.inr rfl, hunreported⟩
    · exact ⟨.inl (h.running j b hb).1, (h.running j b hb).2⟩
  · rcases shown_update hclients hj with ⟨rfl, hb⟩ | ⟨-, hb⟩
    · rcases shown_update hclients hk with ⟨rfl, -⟩ | ⟨-, hb'⟩
      · rfl
      · exact absurd (hrunning b hb ▸ hb') (hidle k)
    · rcases shown_update hclients hk with ⟨rfl, hb'⟩ | ⟨-, hb'⟩
      · exact absurd (hrunning b hb' ▸ hb) (hidle j)
      · exact h.alone j k b hb hb'
  · rw [hexecutions]
    exact List.mem_append_left _ (h.results r (hresults ▸ hr))
  · rw [hresults]
    rcases shown_update hclients hj with ⟨-, hr⟩ | ⟨-, hr⟩
    · cases hresult.symm.trans hr
    · exact h.submitted j r hr

/-- The executor returns. -/
theorem OnceOnly.returned {outcome : Outcome} (hfleet : w'.fleet = w.fleet)
    (hold : (w.clients i).phase.running = some a) (hphase : c.phase = .submitting a outcome)
    (hexecutions : w'.executions = w.executions)
    (hresults : w'.results = w.results ++ [(a, outcome)]) : OnceOnly w' := by
  obtain ⟨hexecuted, hunreported⟩ := h.running i a hold
  have hpermit : c.phase.permit = none := by rw [hphase]; rfl
  have hrunning : c.phase.running = none := by rw [hphase]; rfl
  have hmap : w'.results.map Prod.fst = w.results.map Prod.fst ++ [a] := by
    rw [hresults, List.map_append]
    rfl
  refine
    { sound := hfleet ▸ h.sound
      permitted := fun j b hj => ?_, exclusive := fun j k b hj hk => ?_
      executed := fun b hb => ?_, distinct := hexecutions ▸ h.distinct
      running := fun j b hj => ?_, alone := fun j k b hj hk => ?_
      results := fun r hr => ?_, single := ?_
      submitted := fun j r hj => ?_ }
  · rw [hfleet, hexecutions]
    rcases shown_update hclients hj with ⟨-, hb⟩ | ⟨-, hb⟩
    · cases hpermit.symm.trans hb
    · exact h.permitted j b hb
  · rcases shown_update hclients hj with ⟨-, hb⟩ | ⟨-, hb⟩
    · cases hpermit.symm.trans hb
    · rcases shown_update hclients hk with ⟨-, hb'⟩ | ⟨-, hb'⟩
      · cases hpermit.symm.trans hb'
      · exact h.exclusive j k b hb hb'
  · rw [hfleet]
    exact h.executed b (hexecutions ▸ hb)
  · rw [hexecutions, hmap, List.mem_append, List.mem_singleton]
    rcases shown_update hclients hj with ⟨-, hb⟩ | ⟨hne, hb⟩
    · cases hrunning.symm.trans hb
    · refine ⟨(h.running j b hb).1, not_or.mpr ⟨(h.running j b hb).2, ?_⟩⟩
      rintro rfl
      exact hne (h.alone j i b hb hold)
  · rcases shown_update hclients hj with ⟨-, hb⟩ | ⟨-, hb⟩
    · cases hrunning.symm.trans hb
    · rcases shown_update hclients hk with ⟨-, hb'⟩ | ⟨-, hb'⟩
      · cases hrunning.symm.trans hb'
      · exact h.alone j k b hb hb'
  · rw [hexecutions]
    rcases List.mem_append.mp (hresults ▸ hr) with hr | hr
    · exact h.results r hr
    · exact List.mem_singleton.mp hr ▸ hexecuted
  · rw [hmap]
    exact List.nodup_append.mpr ⟨h.single, List.nodup_singleton a, fun b hb b' hb' heq =>
      hunreported (List.mem_singleton.mp hb' ▸ heq ▸ hb)⟩
  · rw [hresults, List.mem_append, List.mem_singleton]
    rcases shown_update hclients hj with ⟨-, hr⟩ | ⟨-, hr⟩
    · rw [hphase] at hr
      exact .inr (.inr (Option.some.inj hr).symm)
    · exact (h.submitted j r hr).imp_right .inl

end

/-! ## Every step -/

theorem onClaim_silent (c : ReferenceWorkerClient) (token attempts : Nat)
    (answer : Option (Except ApiError ClaimResult)) (old : CyclePhase) :
    Quiet old (c.onClaim token attempts answer).phase := by
  rcases answer with _ | (_ | result)
  · simp only [ReferenceWorkerClient.onClaim]
    split <;> exact quiet_of_none rfl rfl rfl
  · exact quiet_of_none rfl rfl rfl
  · simp only [ReferenceWorkerClient.onClaim]
    split <;> exact quiet_of_none rfl rfl rfl

theorem onRenew_quiet (c : ReferenceWorkerClient) (a : Nat)
    (answer : Option (Except ApiError LeaseOut)) :
    Quiet (.renewing a) (c.onRenew a answer).phase := by
  rcases answer with _ | (_ | out)
  · exact quiet_of_none rfl rfl rfl
  · exact quiet_of_none rfl rfl rfl
  · exact ⟨fun b hb => hb, fun b hb => hb, fun r hr => .inr hr⟩

theorem onSubmit_quiet (c : ReferenceWorkerClient) (answer : Option (Except ApiError SubmitOut))
    (old : CyclePhase) : Quiet old (c.onSubmit answer).phase := by
  rcases answer with _ | (_ | out) <;> exact quiet_of_none rfl rfl rfl

/-- The answer to an acknowledgement: either the cycle goes on without a permit, or the request made
the record. -/
theorem onAck_cases (c : ReferenceWorkerClient) (a : Nat) (fate : Fate) (f : Fleet) :
    (∀ old, Quiet old (c.onAck a (fate.answer (ackAssignment a c.worker) f)).phase) ∨
      (c.onAck a (fate.answer (ackAssignment a c.worker) f)).phase = .renewing a ∧
        ¬ Spent f a ∧ (f.db.Sound → Spent (fate.served (ackAssignment a c.worker) f) a) := by
  have hbroken : ∀ old, Quiet old c.breakOff.phase := fun _ => quiet_of_none rfl rfl rfl
  cases fate with
  | requestLost => exact .inl hbroken
  | refused _ => exact .inl hbroken
  | answerLost => exact .inl hbroken
  | answered =>
    rcases hrun : (ackAssignment a c.worker).run f with ⟨out, g⟩ | ⟨e, g⟩
    · obtain ⟨row, hrow, hcreated, hkeys⟩ := ackAssignment_record hrun
      have hanswer : Fate.answered.answer (ackAssignment a c.worker) f = some (.ok out) := by
        rw [Fate.answer, hrun]
      have hserved : Fate.answered.served (ackAssignment a c.worker) f = g :=
        Returns.atomically hrun
      rw [hanswer, hserved]
      simp only [ReferenceWorkerClient.onAck, hcreated]
      cases hknown : hasEffectKey f row.workspaceId (defaultEffectKey a) with
      | true =>
        refine .inl fun old => ⟨fun b hb => ?_, fun b hb => ?_, fun r hr => ?_⟩
        · cases hb
        · cases hb
        · exact .inl (Option.some.inj hr ▸ rfl)
      | false =>
        refine .inr ⟨rfl, ?_, fun hs => ?_⟩
        · rintro ⟨row', hrow', hkey⟩
          obtain rfl : row = row' := Option.some.inj (hrow.symm.trans hrow')
          rw [hknown] at hkey
          cases hkey
        · have hstep : fleetStep f (.ack a c.worker) = g :=
            Returns.atomically (returns_then_none.mpr ⟨rfl, out, hrun⟩)
          obtain ⟨row', hrow', hws⟩ := fleetStep_row (.ack a c.worker) hs hrow
          rw [hstep] at hrow'
          refine ⟨row', hrow', ?_⟩
          rw [hws]
          exact hasEffectKey_recorded hkeys
    · have hanswer : Fate.answered.answer (ackAssignment a c.worker) f = some (.error e) := by
        rw [Fate.answer, hrun]
      rw [hanswer]
      exact .inl hbroken

theorem retains_request {α : Type} (h : OnceOnly w) (fate : Fate) {x : Endpoint α} (op : FleetOp)
    (answer : α → Option SubmitOut) (hbody : op.body = do return answer (← x)) :
    Retains w.fleet (fate.served x w.fleet) := by
  refine retains_served h.sound fate op ?_
  rw [fleetStep, hbody, atomically_answered]

theorem OnceOnly.clientStep (h : OnceOnly w) (op : ClientOp) : OnceOnly (w.clientStep i op) := by
  have hstay : Retains w.fleet w.fleet := ⟨h.sound, fun _ h => h⟩
  unfold Workshop.clientStep
  dsimp only
  split
  · rename_i _ locked fate
    exact h.quiet (retains_request h fate (.register _ _ locked) (fun _ => none) rfl)
      (fun _ => .refl _) rfl rfl
  · rename_i _ fate
    exact h.quiet (retains_request h fate (.heartbeat _ _) (fun _ => none) rfl)
      (fun _ => .refl _) rfl rfl
  · exact h.quietClient hstay rfl (.refl _) rfl rfl
  · rename_i _ locked fate
    exact h.quiet (retains_request h fate (.deregister _ locked) (fun _ => none) rfl)
      (fun _ => .refl _) rfl rfl
  · split
    · exact h
    · exact h.quietClient hstay rfl (quiet_of_none rfl rfl rfl) rfl rfl
  · rename_i locked fate token attempts _
    exact h.quietClient (retains_request h fate (.claim (some token) _ locked) (fun _ => none) rfl)
      rfl (onClaim_silent _ token attempts _ _) rfl rfl
  · rename_i fate a hphase
    have hkept := retains_request h fate (.ack a (w.clients i).worker) (fun _ => none) rfl
    rcases onAck_cases (w.clients i) a fate w.fleet with
      hquiet | ⟨hnext, hfresh, hspent⟩
    · exact h.quietClient hkept rfl (hquiet _) rfl rfl
    · exact h.acknowledged rfl hkept hnext hfresh (hspent h.sound) rfl rfl
  · rename_i fate a hphase
    refine h.quietClient (retains_request h fate (.renew a _) (fun _ => none) rfl) rfl ?_ rfl rfl
    rw [hphase]
    exact onRenew_quiet _ a _
  · rename_i a hphase
    exact h.handed rfl rfl (hphase ▸ rfl) rfl rfl rfl
  · rename_i outcome a hphase
    exact h.returned rfl rfl (hphase ▸ rfl) rfl rfl rfl
  · exact h.quietClient hstay rfl (quiet_of_none rfl rfl rfl) rfl rfl
  · rename_i jitter fate a outcome hphase
    have hkept := retains_request h fate
      (.submit a (ReferenceWorkerClient.payload outcome) (w.clients i).worker jitter) some rfl
    split
    · exact h.quietClient hkept rfl (onSubmit_quiet _ _ _) rfl rfl
    · exact h.quietClient hkept rfl (onSubmit_quiet _ _ _) rfl rfl
  · exact h.quietClient hstay rfl (quiet_of_none rfl rfl rfl) rfl rfl
  · exact h

theorem OnceOnly.step (h : OnceOnly w) (op : WorkshopOp) : OnceOnly (w.step op) := by
  cases op with
  | serve op => exact h.quiet (retains_fleetStep h.sound op) (fun _ => .refl _) rfl rfl
  | client i op => exact h.clientStep op

theorem OnceOnly.replay (ops : List WorkshopOp) (h : OnceOnly w) :
    OnceOnly (replay Workshop.step w ops) := by
  induction ops generalizing w with
  | nil => exact h
  | cons op rest ih => exact ih (h.step op)

theorem Workshop.Opening.onceOnly (h : w.Opening) : OnceOnly w where
  sound := h.fresh.sound
  permitted i a hi := by
    rw [h.idle i] at hi
    cases hi
  exclusive i j a hi := by
    rw [h.idle i] at hi
    cases hi
  executed a ha := by
    rw [h.executions] at ha
    cases ha
  distinct := h.executions ▸ List.nodup_nil
  running i a hi := by
    rw [h.idle i] at hi
    cases hi
  alone i j a hi := by
    rw [h.idle i] at hi
    cases hi
  results r hr := by
    rw [h.results] at hr
    cases hr
  single := h.results ▸ List.nodup_nil
  submitted i r hi := by
    rw [h.idle i] at hi
    cases hi

/-- However requests are lost, clients crash and assignments change hands, an assignment is handed
to an executor once at most, and what a client submits for it is the one result or the refusal. -/
theorem assignments_executed_once (hopen : w.Opening) (ops : List WorkshopOp) :
    let w' := replay Workshop.step w ops
    w'.executions.Nodup ∧ (w'.results.map Prod.fst).Nodup ∧
      (∀ r ∈ w'.results, r.1 ∈ w'.executions) ∧
      ∀ i a outcome, (w'.clients i).phase = .submitting a outcome →
        outcome = effectRefusal ∨ (a, outcome) ∈ w'.results := by
  have h : OnceOnly (replay Workshop.step w ops) := hopen.onceOnly.replay ops
  refine ⟨h.distinct, h.single, h.results, fun i a outcome hphase => ?_⟩
  exact h.submitted i (a, outcome) (hphase ▸ rfl)

/-- The first worker's result gets lost; when the lease has run out the second worker is given the
assignment. -/
def takenOver : List WorkshopOp :=
  givenHistory.map .serve ++
    [.serve (.engine (.change 61 none)), .client 0 (.heartbeat .answered),
      .serve (.engine (.recover 0 .leaseExpired)), .client 0 (.claimNext 7),
      .client 0 (.claim [] .answerLost), .client 0 (.claim [] .answered),
      .client 0 (.ack .answered), .client 0 (.renew .answered), .client 0 .execute,
      .client 0 (.executed { success := true, result := some [] }),
      .client 0 (.submit 0 .requestLost), .serve (.engine (.change 61 none)),
      .client 1 (.heartbeat .answered), .serve (.engine (.recover 0 .leaseExpired)),
      .client 1 (.claimNext 8), .client 1 (.claim [] .answered), .client 1 (.ack .answered)]

theorem assignments_executed_once_takenOver :
    let w' := replay Workshop.step demoWorkshop takenOver
    w'.executions = [0] ∧ (w'.clients 1).phase.result.map Prod.fst = some 0 ∧
      w'.executions.Nodup ∧ (w'.results.map Prod.fst).Nodup ∧
      (∀ r ∈ w'.results, r.1 ∈ w'.executions) ∧
      ∀ i a outcome, (w'.clients i).phase = .submitting a outcome →
        outcome = effectRefusal ∨ (a, outcome) ∈ w'.results :=
  ⟨by decide +kernel, by decide +kernel, assignments_executed_once demoWorkshop_opening takenOver⟩

end ContentOrchestrator
