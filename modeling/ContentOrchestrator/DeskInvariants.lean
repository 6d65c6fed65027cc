import ContentOrchestrator.DeskSystem

/-! # What a desk operation makes of gates, runs and items

An approved gate is never changed again and a waiting one changes with its verdict, its
timeout or an edit; a run stays a run of its item; and an item's current version only ever
moves to a version that did not exist before. -/

namespace ContentOrchestrator

open Lib

variable {d d' : Desk} {op : DeskOp}

/-! ## Soundness -/

theorem Drafted.sound {workspaceId contentItemId : Nat} {s t : Db}
    (h : Drafted workspaceId contentItemId s t) (hs : s.Sound) : t.Sound where
  jobs j hj := by
    rcases h.jobs j hj with hold | ⟨hkind, _⟩
    · exact hs.jobs j hold
    · exact hkind
  keyed a ha := hs.keyed a (h.assignments ▸ ha)
  gates := h.unescalated hs.gates
  due j hj hleased := by
    rcases h.jobs j hj with hold | ⟨_, hne⟩
    · rw [h.now]
      exact hs.due j hold hleased
    · exact absurd hleased hne

/-- What the engine's invariant reads is the same. -/
theorem Db.Sound.congr {s t : Db} (hs : s.Sound) (hjobs : t.jobs = s.jobs)
    (hassignments : t.assignments = s.assignments) (hgates : t.gates = s.gates)
    (hnow : t.now = s.now) :
    t.Sound where
  jobs := by rw [hjobs]; exact hs.jobs
  keyed := by rw [hassignments]; exact hs.keyed
  gates := by rw [hgates]; exact hs.gates
  due := by rw [hjobs, hnow]; exact hs.due

theorem DeskEffect.sound (h : DeskEffect op d d') (hs : d.db.Sound) : d'.db.Sound := by
  cases h with
  | engine => exact step_sound _ _ hs
  | created drafted => exact drafted.sound (hs.congr rfl rfl rfl rfl)
  | drafted => exact hs.congr rfl rfl rfl rfl
  | edited done =>
    obtain ⟨gate, _, _, _, _, _, _, _, _, _, rfl⟩ := done.gate
    exact ⟨hs.jobs, hs.keyed, hs.gates.modify fun _ hawait => ⟨hawait, rfl⟩, hs.due⟩
  | attested => exact hs
  | deleted =>
    exact ⟨fun j hj => hs.jobs j (Table.mem_deleteWhere.mp hj).1, hs.keyed, hs.gates,
      fun j hj => hs.due j (Table.mem_deleteWhere.mp hj).1⟩

/-! ## Gates -/

/-- What a desk operation makes of a gate. -/
inductive DeskGateMove (op : DeskOp) (d : Desk) (g : ReviewGate) : ReviewGate → Prop
  | kept : DeskGateMove op d g g
  | engine {e : Op} {g' : ReviewGate} (request : op = .engine e) (move : GateMove e d.db g g') :
      DeskGateMove op d g g'
  | edited {workspaceId expected : Nat} {edit : Script}
      (request : op = .editReviewGateContent workspaceId g.id expected edit)
        (waiting : g.status = .awaiting) :
      DeskGateMove op d g ((ReviewGate.setVersion d.versions.next).apply g)

/-- A gate as it is opened: waiting, of a stored run, over a stored version or the one just
written. -/
structure IsNewGate (d d' : Desk) (g : ReviewGate) : Prop where
  waiting : g.status = .awaiting
  run : ∃ run, d'.db.runs.get? g.pipelineRunId = some run
  version : ∀ v, g.contentVersionId = some v →
    (∃ item ∈ d.db.contentItems, item.currentVersionId = some v) ∨
      v = d.versions.next ∧ d'.versions.next = v + 1

/-- The gates move, and a new gate waits. -/
abbrev DeskGatesMove (op : DeskOp) (d d' : Desk) : Prop :=
  Table.Evolves (DeskGateMove op d) (IsNewGate d d') d.db.gates d'.db.gates

theorem DeskEffect.gates (h : DeskEffect op d d') (hs : d.db.Sound) : DeskGatesMove op d d' := by
  cases h with
  | @engine e _ =>
    rcases step_cases d.db e with heq | heffect
    · rw [heq]
      exact .of_eq (fun _ => .kept) rfl
    refine (heffect.gates hs.jobs hs.gates).mono (fun _ _ _ _ hmove => .engine rfl hmove) ?_
    rintro g - ⟨run, item, stageDef, hrun, hitem, -, rfl⟩
    obtain ⟨run', hrun', -⟩ := (heffect.runs hs.jobs hs.gates).get? hrun
    exact ⟨rfl, ⟨run', hrun'⟩, fun v hv => .inl ⟨item, (Table.get?_eq_some.mp hitem).1, hv⟩⟩
  | @created workspaceId topic script key _ db drafted =>
    refine drafted.gates.mono (fun a _ b _ heq => ?_) ?_
    · subst heq
      exact .kept
    rintro g - ⟨hrun, -, hwaiting, item, hitem, hversion⟩
    refine ⟨hwaiting, ?_, fun v hv => .inr ?_⟩
    · rw [hrun]
      exact drafted.run
    · rw [hversion, insertDraft_item hitem, Option.some.injEq] at hv
      exact ⟨hv.symm, by rw [← hv]; rfl⟩
  | drafted => exact .of_eq (fun _ => .kept) rfl
  | @edited workspaceId gateId expected edit _ _ done =>
    obtain ⟨gate, hgate, _, hwaiting, _, _, _, _, _, _, rfl⟩ := done.gate
    refine .modify (fun _ => .kept) (fun g hg => ?_) rfl
    obtain ⟨-, hid⟩ := Table.get?_eq_some.mp hg
    have hkey : g.id = gateId := hid
    subst hkey
    rw [hgate] at hg
    cases hg
    exact .edited rfl hwaiting
  | attested => exact .of_eq (fun _ => .kept) rfl
  | deleted => exact .of_eq (fun _ => .kept) rfl

/-- What a desk operation makes of a run. -/
inductive DeskRunMove (op : DeskOp) (d : Desk) (run : PipelineRun) : PipelineRun → Prop
  | kept : DeskRunMove op d run run
  | engine {e : Op} {run' : PipelineRun} (request : op = .engine e)
      (move : RunMove e d.db run run') :
      DeskRunMove op d run run'

theorem DeskRunMove.same {run run' : PipelineRun} (h : DeskRunMove op d run run') :
    SameRun run run' := by
  cases h with
  | kept => exact .refl run
  | engine _ move => exact move.same

theorem DeskEffect.runs (h : DeskEffect op d d') (hs : d.db.Sound) :
    Table.Evolves (DeskRunMove op d) (fun run => run.id = d.db.runs.next) d.db.runs d'.db.runs := by
  cases h with
  | @engine e _ =>
    rcases step_cases d.db e with heq | heffect
    · rw [heq]
      exact .of_eq (fun _ => .kept) rfl
    refine (heffect.runs hs.jobs hs.gates).mono (fun _ _ _ _ hmove => .engine rfl hmove) ?_
    rintro run - ⟨_, _, _, definition, first, -, -, -, rfl⟩
    rfl
  | created drafted =>
    refine drafted.runs.mono (fun a _ b _ heq => ?_) fun run _ hnew => hnew.1
    subst heq
    exact .kept
  | drafted => exact .of_eq (fun _ => .kept) rfl
  | edited done =>
    obtain ⟨_, _, _, _, _, _, _, _, _, _, rfl⟩ := done.gate
    exact .of_eq (fun _ => .kept) rfl
  | attested => exact .of_eq (fun _ => .kept) rfl
  | deleted => exact .of_eq (fun _ => .kept) rfl

/-! ## Every history -/

/-- The engine's invariant, and every gate is a gate of a stored run. -/
structure Desk.Sound (d : Desk) : Prop where
  db : d.db.Sound
  owned : ∀ g ∈ d.db.gates, ∃ run, d.db.runs.get? g.pipelineRunId = some run

theorem DeskGateMove.same {g g' : ReviewGate} (h : DeskGateMove op d g g') :
    g'.id = g.id ∧ g'.workspaceId = g.workspaceId ∧ g'.pipelineRunId = g.pipelineRunId := by
  cases h with
  | kept => exact ⟨rfl, rfl, rfl⟩
  | engine _ move => cases move <;> exact ⟨rfl, rfl, rfl⟩
  | edited _ _ => exact ⟨rfl, rfl, rfl⟩

theorem deskStep_sound (d : Desk) (op : DeskOp) (hs : d.Sound) : (deskStep d op).Sound := by
  rcases deskStep_cases d op with heq | heffect
  · rw [heq]
    exact hs
  refine ⟨heffect.sound hs.db, fun g' hg' => ?_⟩
  rcases (heffect.gates hs.db).new g' hg' with ⟨g, hg, hmove⟩ | hnew
  · obtain ⟨run, hrun⟩ := hs.owned g hg
    obtain ⟨run', hrun', -⟩ := (heffect.runs hs.db).get? (fun _ _ hmove => hmove.same.id) hrun
    rw [hmove.same.2.2]
    exact ⟨run', hrun'⟩
  · exact hnew.run

theorem Desk.Fresh.sound (h : d.Fresh) : d.Sound := by
  refine ⟨h.db.sound, fun g hg => ?_⟩
  rw [h.db.gates] at hg
  cases hg

theorem desk_history_sound {ok : Desk → DeskOp → Prop} (hfresh : d.Fresh)
    (h : Reach DeskSteps ok d d') :
    d'.Sound := by
  refine h.invariant (P := Desk.Sound) hfresh.sound ?_
  rintro u op v hu _ rfl
  exact deskStep_sound u op hu

/-! ## The queue and its workspaces -/

/-- Runs and gates stay in their workspace. -/
theorem DeskEffect.housesRef (h : DeskEffect op d d') (hs : d.db.Sound) (ref : Ref) (owner : Nat)
    (hin : d.db.housesRef ref owner) : d'.db.housesRef ref owner := by
  cases ref with
  | run runId =>
    obtain ⟨run, hrun, hws⟩ := hin
    obtain ⟨run', hrun', hmove⟩ := (h.runs hs).get? (fun _ _ hmove => hmove.same.id) hrun
    exact ⟨run', hrun', hmove.same.workspaceId.trans hws⟩
  | gate gateId =>
    obtain ⟨gate, hgate, hws⟩ := hin
    obtain ⟨gate', hgate', hmove⟩ := (h.gates hs).get? (fun _ _ hmove => hmove.same.1) hgate
    exact ⟨gate', hgate', hmove.same.2.1.trans hws⟩
  | _ => exact hin.elim

theorem Drafted.lodges {workspaceId contentItemId : Nat} {s t : Db}
    (h : Drafted workspaceId contentItemId s t) (hs : s.Lodged)
    (hkeep : ∀ ref owner, s.housesRef ref owner → t.housesRef ref owner) : t.Lodged := by
  have hnew : t.housesRef (.run s.runs.next) workspaceId := by
    obtain ⟨run, hrun⟩ := h.run
    rcases h.runs.back (fun _ _ heq => by rw [heq]) hrun with ⟨row, hrow, _⟩ | hdraft
    · rw [Table.get?_next] at hrow
      cases hrow
    · exact ⟨run, hrun, hdraft.2.1⟩
  exact (h.lodged t.housesRef hnew fun _ => Db.housesRef_gate).lodged hs hkeep

theorem deskStep_lodged (hs : d.Sound) (hlodged : d.db.Lodged) : (deskStep d op).db.Lodged := by
  rcases deskStep_cases d op with heq | heffect
  · rw [heq]
    exact hlodged
  have hkeep := heffect.housesRef hs.db
  generalize deskStep d op = d' at heffect hkeep
  cases heffect with
  | engine => exact step_lodged hs.db hlodged
  | created drafted => exact drafted.lodges hlodged hkeep
  | drafted => exact hlodged
  | edited done =>
    obtain ⟨_, _, _, _, _, _, _, _, _, _, rfl⟩ := done.gate
    exact fun j hj => (hlodged j hj).mono hkeep
  | attested => exact hlodged
  | deleted => exact fun j hj => hlodged j (Table.mem_deleteWhere.mp hj).1

theorem desk_history_lodged {ok : Desk → DeskOp → Prop} (hfresh : d.Fresh)
    (h : Reach DeskSteps ok d d') :
    d'.Sound ∧ d'.db.Lodged := by
  refine h.invariant (P := fun u => u.Sound ∧ u.db.Lodged) ⟨hfresh.sound, fun j hj => ?_⟩ ?_
  · rw [hfresh.db.jobs] at hj
    cases hj
  · rintro u op v ⟨hs, hlodged⟩ _ rfl
    exact ⟨deskStep_sound u op hs, deskStep_lodged hs hlodged⟩

/-- A step that may also do nothing. -/
theorem deskStep_gates (hs : d.Sound) (op : DeskOp) : DeskGatesMove op d (deskStep d op) := by
  rcases deskStep_cases d op with heq | heffect
  · rw [heq]
    exact .of_eq (fun _ => .kept) rfl
  · exact heffect.gates hs.db

theorem deskStep_runs (hs : d.Sound) (op : DeskOp) :
    Table.Evolves (DeskRunMove op d) (fun run => run.id = d.db.runs.next) d.db.runs
      (deskStep d op).db.runs := by
  rcases deskStep_cases d op with heq | heffect
  · rw [heq]
    exact .of_eq (fun _ => .kept) rfl
  · exact heffect.runs hs.db

/-! ## Items and their versions -/

/-- Except for a change of the environment, the engine leaves the items alone. -/
def DeskOp.keepsItems : DeskOp → Desk → Prop
  | .engine (.change _ (some environment)), d => environment.contentItems = d.db.contentItems
  | _, _ => True

/-- An environment change that may rewrite the items. -/
def DeskOp.changesItems : DeskOp → Bool
  | .engine (.change _ (some _)) => true
  | _ => false

theorem keepsItems_of_unchanged (h : op.changesItems = false) : op.keepsItems d := by
  unfold DeskOp.changesItems at h
  split at h
  · cases h
  · rename_i hother
    unfold DeskOp.keepsItems
    split
    · rename_i environment
      exact absurd rfl (hother _ environment)
    · trivial

theorem step_contentItems {e : Op} (hkeeps : (DeskOp.engine e).keepsItems d) (hs : d.db.Sound) :
    (step d.db e).contentItems = d.db.contentItems := by
  rcases step_cases d.db e with heq | heffect
  · rw [heq]
  cases he : e with
  | change elapsed environment =>
    subst he
    generalize step d.db _ = t at heffect
    cases heffect with
    | changed =>
      cases environment with
      | none => rfl
      | some environment => exact hkeeps
  | _ =>
    have hconfig : (step d.db e).config = d.db.config := heffect.config hs.jobs (by rw [he]; simp)
    rw [← he]
    exact congrArg Configuration.contentItems hconfig

theorem deskStep_contentItems {e : Op} (hkeeps : (DeskOp.engine e).keepsItems d) (hs : d.Sound) :
    (deskStep d (.engine e)).db.contentItems = d.db.contentItems := by
  rw [deskStep_engine]
  exact step_contentItems hkeeps hs.db

/-- What a desk operation makes of an item: its current version stays, or is the one just
written. -/
structure ItemMove (d d' : Desk) (item item' : ContentItem) : Prop where
  id : item'.id = item.id
  workspaceId : item'.workspaceId = item.workspaceId
  version : item'.currentVersionId = item.currentVersionId ∨
    item'.currentVersionId = some d.versions.next ∧ d'.versions.next = d.versions.next + 1

theorem ItemMove.refl (item : ContentItem) : ItemMove d d' item item := ⟨rfl, rfl, .inl rfl⟩

/-- A new item has the version just written. -/
def IsNewItem (d d' : Desk) (item : ContentItem) : Prop :=
  item.currentVersionId = some d.versions.next ∧ d'.versions.next = d.versions.next + 1

theorem insertDraft_items {workspaceId : Nat} {topic : String} {script : Script}
    (hnext : d'.versions.next = d.versions.next + 1) :
    Table.Evolves (ItemMove d d') (IsNewItem d d') d.db.contentItems
      (insertDraft workspaceId topic script d).db.contentItems := by
  refine ⟨fun item hmem => ?_, fun item' hmem => ?_⟩
  · have hne : item.id ≠ d.db.contentItems.next := (Table.key_lt hmem).ne
    refine ⟨item, Table.mem_modify.mpr ⟨item, Table.mem_insert.mpr (.inl hmem), ?_⟩, .refl item⟩
    exact if_neg hne
  · obtain ⟨item, hitem, rfl⟩ := Table.mem_modify.mp hmem
    rcases Table.mem_insert.mp hitem with hold | rfl
    · have hne : item.id ≠ d.db.contentItems.next := (Table.key_lt hold).ne
      exact .inl ⟨item, hold, (if_neg hne).symm ▸ .refl item⟩
    · refine .inr ⟨?_, hnext⟩
      exact congrArg ContentItem.currentVersionId (if_pos rfl)

theorem DeskEffect.items (h : DeskEffect op d d') (hs : d.db.Sound) (hkeeps : op.keepsItems d) :
    Table.Evolves (ItemMove d d') (IsNewItem d d') d.db.contentItems d'.db.contentItems := by
  cases h with
  | engine => exact .of_eq .refl (step_contentItems hkeeps hs)
  | @created _ _ _ _ _ db drafted =>
    have hitems : db.contentItems = _ := drafted.contentItems
    rw [hitems]
    exact insertDraft_items rfl
  | drafted => exact insertDraft_items rfl
  | edited done =>
    obtain ⟨_, _, _, _, _, _, item, _, _, _, rfl⟩ := done.gate
    exact .modify (k := item.id) (u := ContentItem.setVersion d.versions.next) .refl
      (fun _ _ => ⟨rfl, rfl, .inr ⟨rfl, rfl⟩⟩) rfl
  | attested => exact .of_eq .refl rfl
  | deleted => exact .modifyWhere .refl (fun _ _ _ => ⟨rfl, rfl, .inl rfl⟩) rfl

theorem deskStep_items (hs : d.Sound) (hkeeps : op.keepsItems d) :
    Table.Evolves (ItemMove d (deskStep d op)) (IsNewItem d (deskStep d op)) d.db.contentItems
      (deskStep d op).db.contentItems := by
  rcases deskStep_cases d op with heq | heffect
  · rw [heq]
    exact .of_eq .refl rfl
  · exact heffect.items hs.db hkeeps

/-- Every version an item or a gate records has been written. -/
structure Desk.Versioned (d : Desk) : Prop where
  items : ∀ item ∈ d.db.contentItems, ∀ v, item.currentVersionId = some v → v < d.versions.next
  gates : ∀ g ∈ d.db.gates, ∀ v, g.contentVersionId = some v → v < d.versions.next

theorem DeskEffect.versions_le (h : DeskEffect op d d') : d.versions.next ≤ d'.versions.next := by
  cases h with
  | edited done =>
    obtain ⟨_, _, _, _, _, _, _, _, _, _, rfl⟩ := done.gate
    exact Nat.le_succ _
  | created _ => exact Nat.le_succ _
  | drafted => exact Nat.le_succ _
  | _ => exact Nat.le_refl _

theorem DeskEffect.versioned (h : DeskEffect op d d') (hs : d.db.Sound) (hkeeps : op.keepsItems d)
    (hv : d.Versioned) : d'.Versioned := by
  have hle := h.versions_le
  refine ⟨fun item' hmem v hcurrent => ?_, fun g' hmem v hbound => ?_⟩
  · rcases (h.items hs hkeeps).new item' hmem with ⟨item, hitem, hmove⟩ | ⟨hnew, hnext⟩
    · rcases hmove.version with hsame | ⟨hnew, hnext⟩
      · have hlt := hv.items item hitem v (hsame ▸ hcurrent)
        omega
      · have hkey : d.versions.next = v := by rwa [hcurrent, Option.some.injEq, eq_comm] at hnew
        omega
    · have hkey : d.versions.next = v := by rwa [hcurrent, Option.some.injEq, eq_comm] at hnew
      omega
  · rcases (h.gates hs).new g' hmem with ⟨g, hg, hmove⟩ | hnew
    · cases hmove with
      | kept =>
        have hlt := hv.gates g' hg v hbound
        omega
      | engine _ move =>
        have hlt := hv.gates g hg v (by cases move <;> exact hbound)
        omega
      | @edited workspaceId expected edit request _ =>
        have hkey : d.versions.next = v := by simpa [ReviewGate.setVersion] using hbound
        subst request
        cases h with
        | edited done =>
          obtain ⟨_, _, _, _, _, _, _, _, _, _, rfl⟩ := done.gate
          subst hkey
          exact Nat.lt_succ_self _
    · rcases hnew.version v hbound with ⟨item, hitem, hcurrent⟩ | ⟨_, hnext⟩
      · have hlt := hv.items item hitem v hcurrent
        omega
      · omega

theorem Desk.Fresh.versioned (h : d.Fresh) : d.Versioned := by
  refine ⟨h.versions, fun g hg => ?_⟩
  rw [h.db.gates] at hg
  cases hg

theorem deskStep_versioned (hs : d.Sound) (hkeeps : op.keepsItems d) (hv : d.Versioned) :
    (deskStep d op).Versioned := by
  rcases deskStep_cases d op with heq | heffect
  · rw [heq]
    exact hv
  · exact heffect.versioned hs.db hkeeps hv

theorem desk_history_versioned (hfresh : d.Fresh) {ok : Desk → DeskOp → Prop}
    (hok : ∀ u op, ok u op → op.keepsItems u) (h : Reach DeskSteps ok d d') :
    d'.Sound ∧ d'.Versioned := by
  refine h.invariant (P := fun u => u.Sound ∧ u.Versioned) ⟨hfresh.sound, hfresh.versioned⟩ ?_
  rintro u op v ⟨hs, hv⟩ hmet rfl
  exact ⟨deskStep_sound u op hs, deskStep_versioned hs (hok u op hmet) hv⟩

end ContentOrchestrator
