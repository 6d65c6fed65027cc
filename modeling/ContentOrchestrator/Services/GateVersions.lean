import ContentOrchestrator.Services.GateLocks

/-! # One run an item, one waiting gate a run

Every run the desk creates gets an item of its own, and a run opens a gate only where
none of its gates waits. So of an item at most one gate waits, and that gate shows the
item's current version: an edit is all that moves a current version, and it moves the
gate with it. -/

namespace ContentOrchestrator

open Lib

variable {d d' : Desk} {op : DeskOp}

/-- What holds of the desk between calls. -/
structure Desk.Tidy (d : Desk) : Prop where
  sound : d.Sound
  versioned : d.Versioned
  runs : ∀ run ∈ d.db.runs, ∃ item, d.db.contentItems.get? run.contentItemId = some item
  own : ∀ run ∈ d.db.runs, ∀ run' ∈ d.db.runs, run'.contentItemId = run.contentItemId → run' = run
  alone : ∀ g ∈ d.db.gates, ∀ g' ∈ d.db.gates, g.status = .awaiting → g'.status = .awaiting →
    g'.pipelineRunId = g.pipelineRunId → g' = g
  shown : ∀ g ∈ d.db.gates, g.status = .awaiting →
    ∃ run item, d.db.runs.get? g.pipelineRunId = some run ∧
    d.db.contentItems.get? run.contentItemId = some item ∧
      g.contentVersionId = item.currentVersionId

/-- The edits and decisions are calls of their own. A run is started for a stored item that has
none, as its creator does, and what changes around the engine leaves the items alone. -/
def DeskOp.isBackground (d : Desk) : DeskOp → Prop
  | .editReviewGateContent _ _ _ _ => False
  | .engine (.decide _ _ _ _ _) => False
  | .engine (.startRun _ contentItemId _) =>
    (∃ item, d.db.contentItems.get? contentItemId = some item) ∧
      ∀ run ∈ d.db.runs, run.contentItemId ≠ contentItemId
  | .engine (.change _ (some environment)) => environment.contentItems = d.db.contentItems
  | _ => True

/-! ## Steps that leave waiting gates and current versions alone -/

/-- A gate that waits after the step is as it was. -/
structure StaysWaiting (g g' : ReviewGate) : Prop where
  id : g'.id = g.id
  run : g'.pipelineRunId = g.pipelineRunId
  same : g'.status = .awaiting → g' = g

/-- A new gate is the only one its run waits at, over the current version. -/
structure OpensAlone (d d' : Desk) (g : ReviewGate) : Prop where
  alone : ∀ g' ∈ d'.db.gates, g'.status = .awaiting → g'.pipelineRunId = g.pipelineRunId → g' = g
  shown : ∃ run item, d'.db.runs.get? g.pipelineRunId = some run ∧
    d'.db.contentItems.get? run.contentItemId = some item ∧
      g.contentVersionId = item.currentVersionId ∧
      (d.db.gates.next ≤ g.id ∨ run.contentItemId = d.db.contentItems.next)

/-- A new run is the only one of its item. -/
structure BeginsAlone (d' : Desk) (run : PipelineRun) : Prop where
  item : ∃ item, d'.db.contentItems.get? run.contentItemId = some item
  own : ∀ run' ∈ d'.db.runs, run'.contentItemId = run.contentItemId → run' = run

/-- Items keep their current versions, and a new one has the next key. -/
abbrev KeepsVersions (s t : Table ContentItem) : Prop :=
  Table.Evolves (fun item item' =>
    item'.id = item.id ∧ item'.currentVersionId = item.currentVersionId)
    (fun item => item.id = s.next) s t

structure Desk.Shifts (d d' : Desk) : Prop where
  gates : Table.Evolves StaysWaiting (OpensAlone d d') d.db.gates d'.db.gates
  runs : Table.Evolves (fun run run' => run'.id = run.id ∧ run'.contentItemId = run.contentItemId)
    (BeginsAlone d')
    d.db.runs d'.db.runs
  items : KeepsVersions d.db.contentItems d'.db.contentItems
  versions : ∀ v < d.versions.next, d'.versions.get? v = d.versions.get? v
  grows : d.versions.next ≤ d'.versions.next

theorem KeepsVersions.refl (s : Table ContentItem) : KeepsVersions s s :=
  .of_eq (fun _ => ⟨rfl, rfl⟩) rfl

theorem StaysWaiting.refl (g : ReviewGate) : StaysWaiting g g := ⟨rfl, rfl, fun _ => rfl⟩

namespace Desk.Shifts

/-- A step that leaves gates, runs and versions alone, and of an item its current version. -/
theorem of_same (hgates : d'.db.gates = d.db.gates) (hruns : d'.db.runs = d.db.runs)
    (hversions : d'.versions = d.versions)
    (hitems : KeepsVersions d.db.contentItems d'.db.contentItems) :
    d.Shifts d' where
  gates := .of_eq .refl hgates
  runs := .of_eq (fun _ => ⟨rfl, rfl⟩) hruns
  items := hitems
  versions v _ := by rw [hversions]
  grows := Nat.le_of_eq (congrArg (·.next) hversions).symm

theorem run (h : d.Shifts d') {runId : Nat} {run : PipelineRun}
    (hrun : d.db.runs.get? runId = some run) :
    ∃ run', d'.db.runs.get? runId = some run' ∧ run'.contentItemId = run.contentItemId := by
  obtain ⟨run', hrun', -, hitem⟩ := h.runs.get? (fun _ _ hmove => hmove.1) hrun
  exact ⟨run', hrun', hitem⟩

theorem item (h : d.Shifts d') {itemId : Nat} {item : ContentItem}
    (hitem : d.db.contentItems.get? itemId = some item) :
    ∃ item', d'.db.contentItems.get? itemId = some item' ∧
      item'.currentVersionId = item.currentVersionId := by
  obtain ⟨item', hitem', -, hversion⟩ := h.items.get? (fun _ _ hmove => hmove.1) hitem
  exact ⟨item', hitem', hversion⟩

/-- An item that is there keeps its current version. -/
theorem currentOf (h : d.Shifts d') {itemId : Nat} {item : ContentItem}
    (hitem : d.db.contentItems.get? itemId = some item) :
    d'.db.currentOf itemId = d.db.currentOf itemId := by
  obtain ⟨item', hitem', hversion⟩ := h.item hitem
  simp only [Db.currentOf, hitem, hitem', Option.bind_some, hversion]

/-- **Such a step leaves the desk tidy.** -/
theorem tidy (h : d.Shifts d') (ht : d.Tidy) (hs : d'.Sound) (hv : d'.Versioned) : d'.Tidy where
  sound := hs
  versioned := hv
  runs run' hmem := by
    rcases h.runs.new run' hmem with ⟨run, hrun, -, hitem⟩ | hnew
    · obtain ⟨item, hfound⟩ := ht.runs run hrun
      obtain ⟨item', hfound', -⟩ := h.item hfound
      exact ⟨item', by rw [hitem]; exact hfound'⟩
    · exact hnew.item
  own := by
    intro a' ha' b' hb' hsame
    rcases h.runs.new a' ha' with ⟨a, ha, haid, haitem⟩ | hnew
    · rcases h.runs.new b' hb' with ⟨b, hb, hbid, hbitem⟩ | hnew
      · have heq : b = a := ht.own a ha b hb (hbitem.symm.trans (hsame.trans haitem))
        have hid : b'.id = a'.id := by rw [hbid, haid, heq]
        exact Table.eq_of_key hb' ha' hid
      · exact (hnew.own a' ha' hsame.symm).symm
    · exact hnew.own b' hb' hsame
  alone := by
    intro g hg g' hg' hwait hwait' hrun
    rcases h.gates.new g hg with ⟨old, hold, hmove⟩ | hnew
    · rcases h.gates.new g' hg' with ⟨old', hold', hmove'⟩ | hnew
      · obtain rfl := hmove.same hwait
        obtain rfl := hmove'.same hwait'
        exact ht.alone g hold g' hold' hwait hwait' hrun
      · exact (hnew.alone g hg hwait hrun.symm).symm
    · exact hnew.alone g' hg' hwait' hrun
  shown := by
    intro g hg hwait
    rcases h.gates.new g hg with ⟨old, hold, hmove⟩ | hnew
    · obtain rfl := hmove.same hwait
      obtain ⟨run, item, hrun, hitem, hversion⟩ := ht.shown g hold hwait
      obtain ⟨run', hrun', hsame⟩ := h.run hrun
      obtain ⟨item', hitem', hcurrent⟩ := h.item hitem
      exact ⟨run', item', hrun', by rw [hsame]; exact hitem', hversion.trans hcurrent.symm⟩
    · obtain ⟨run, item, hrun, hitem, hversion, -⟩ := hnew.shown
      exact ⟨run, item, hrun, hitem, hversion⟩

end Desk.Shifts

/-! ## The engine -/

theorem GateMove.staysWaiting {e : Op} {s : Db} {g g' : ReviewGate} (h : GateMove e s g g') :
    StaysWaiting g g' := by
  cases h with
  | kept => exact .refl g
  | escalated _ _ _ _ _ _ => exact ⟨rfl, rfl, fun h => by cases h⟩
  | @decided _ _ approved _ _ _ =>
    refine ⟨rfl, rfl, fun h => ?_⟩
    cases approved with
    | true => cases h
    | false => cases h

/-- A run that is started for an item without one. -/
theorem startRun_alone {e : Op} {run : PipelineRun} (hnew : IsStarted e d.db run)
    (hop : (DeskOp.engine e).isBackground d)
    (hruns : Table.Evolves (RunMove e d.db) (IsStarted e d.db) d.db.runs d'.db.runs)
    (hmem : run ∈ d'.db.runs) (hitems : d'.db.contentItems = d.db.contentItems) :
    BeginsAlone d' run := by
  obtain ⟨workspaceId, contentItemId, definitionId, definition, first, rfl, -, -, rfl⟩ := hnew
  obtain ⟨⟨item, hitem⟩, hfree⟩ := hop
  refine ⟨⟨item, by rw [hitems]; exact hitem⟩, fun run' hrun' hsame => ?_⟩
  rcases hruns.new run' hrun' with ⟨row, hrow, hmove⟩ | ⟨_, _, _, _, _, -, -, -, rfl⟩
  · exact absurd (hmove.same.contentItemId.symm.trans hsame) (hfree row hrow)
  · exact Table.eq_of_key hrun' hmem rfl

/-- A gate that a run opens where none of its gates waits. -/
theorem newGate_alone {run row : PipelineRun} {item : ContentItem} {stage : ContentStage}
    {timeout : Nat} {m : Db}
    (hgates : d'.db.gates = d.db.gates.insert (newGate run item stage timeout m))
    (clear : ∀ g ∈ d.db.gates, g.isAwaitingFor run.id = false)
    (hrun : d'.db.runs.get? run.id = some row) (hsame : row.contentItemId = run.contentItemId)
    (hitem : d'.db.contentItems.get? run.contentItemId = some item) :
    OpensAlone d d' ((newGate run item stage timeout m).make d.db.gates.next) := by
  refine ⟨fun g hg hwait hown => ?_, row, item,
    hrun, by rw [hsame]; exact hitem, rfl, .inl (Nat.le_refl _)⟩
  rw [hgates] at hg
  rcases Table.mem_insert.mp hg with hold | rfl
  · have hno := clear g hold
    simp [ReviewGate.isAwaitingFor, hwait, hown, newGate] at hno
  · rfl

theorem engine_shifts {e : Op} (hs : d.Sound) (hkeeps : (DeskOp.engine e).keepsItems d)
    (hstart : ∀ run, IsStarted e d.db run → (DeskOp.engine e).isBackground d) :
    d.Shifts (deskStep d (.engine e)) := by
  have hitems := deskStep_contentItems hkeeps hs
  rw [deskStep_engine] at hitems ⊢
  rcases step_cases d.db e with heq | heffect
  · rw [heq]
    exact .of_same rfl rfl rfl (.refl _)
  have hruns := heffect.runs hs.db.jobs hs.db.gates
  refine ⟨?_, ?_, .of_eq (fun _ => ⟨rfl, rfl⟩) hitems, fun _ _ => rfl, Nat.le_refl _⟩
  · rcases heffect.opens hs.db.jobs hs.db.gates with
      hmoved | ⟨run, item, stage, timeout, m, hrun, hitem, clear, hgates⟩
    · exact hmoved.mono (fun _ _ _ _ hmove => hmove.staysWaiting) fun _ _ hnone => hnone.elim
    · obtain ⟨row, hrow, hmove⟩ := hruns.get? hrun
      refine .insert .refl (newGate_alone hgates clear hrow hmove.same.contentItemId ?_) hgates
      exact hitems ▸ hitem
  · refine hruns.mono (fun _ _ _ _ hmove => ⟨hmove.same.id, hmove.same.contentItemId⟩)
      fun run hmem hnew => ?_
    exact startRun_alone hnew (hstart run hnew) hruns hmem hitems

/-! ## Drafts -/

variable {workspaceId : Nat} {topic : String} {script : Script} {key : Option String}

theorem versions_insert {row : NewRow ContentVersion} {v : Nat} (hlt : v < d.versions.next) :
    (d.versions.insert row).get? v = d.versions.get? v := by
  rw [Table.get?_insert, if_neg (Nat.ne_of_lt hlt)]

theorem insertDraft_moves :
    KeepsVersions d.db.contentItems (insertDraft workspaceId topic script d).db.contentItems := by
  refine ⟨fun item hmem => ?_, fun item' hmem => ?_⟩
  · have hne : item.id ≠ d.db.contentItems.next := (Table.key_lt hmem).ne
    refine ⟨item, Table.mem_modify.mpr ⟨item, Table.mem_insert.mpr (.inl hmem), ?_⟩, rfl, rfl⟩
    exact if_neg hne
  · obtain ⟨item, hitem, rfl⟩ := Table.mem_modify.mp hmem
    rcases Table.mem_insert.mp hitem with hold | rfl
    · have hne : Keyed.key item ≠ d.db.contentItems.next := (Table.key_lt hold).ne
      rw [if_neg hne]
      exact .inl ⟨item, hold, rfl, rfl⟩
    · exact .inr (congrArg ContentItem.id (if_pos rfl))

/-- A draft's run is the only one of its item, and waits at one gate. -/
theorem drafted_shifts {db : Db} (ht : d.Tidy)
    (h : Drafted workspaceId d.db.contentItems.next (insertDraft workspaceId topic script d).db db)
    (hone : (db.gates.select (·.pipelineRunId == d.db.runs.next)).length ≤ 1) :
    d.Shifts { insertDraft workspaceId topic script d with db } := by
  have hruns : (insertDraft workspaceId topic script d).db.runs = d.db.runs := rfl
  have hgates : (insertDraft workspaceId topic script d).db.gates = d.db.gates := rfl
  have hitems : db.contentItems = (insertDraft workspaceId topic script d).db.contentItems :=
    h.contentItems
  obtain ⟨item, hitem⟩ : ∃ item, db.contentItems.get? d.db.contentItems.next = some item := by
    rw [hitems]
    simp [insertDraft, modifyItem, Table.get?_modify, Table.get?_insert]
  have hdraft : ∀ run, db.runs.get? d.db.runs.next = some run →
      run.contentItemId = d.db.contentItems.next := by
    intro run hrun
    rcases h.runs.back (fun _ _ heq => by rw [heq]) hrun with ⟨row, hrow, _⟩ | hnew
    · rw [hruns, Table.get?_next] at hrow
      cases hrow
    · exact hnew.2.2
  refine ⟨?_, ?_, hitems ▸ insertDraft_moves, fun v hlt => versions_insert hlt, Nat.le_succ _⟩
  · rw [← hgates]
    refine h.gates.mono (fun a _ b _ heq => ?_) fun g hmem hnew => ?_
    · subst heq
      exact .refl _
    obtain ⟨hown, -, -, row, hrow, hversion⟩ := hnew
    have hown' : g.pipelineRunId = d.db.runs.next := hown
    refine ⟨fun g' hmem' _ hsame => ?_, ?_⟩
    · rw [← Table.count_eq_length_select] at hone
      exact Table.eq_of_count_le_one hone hmem' hmem (by simp [hsame, hown']) (by simp [hown'])
    · obtain ⟨run, hrun⟩ := h.run
      have hnext := hdraft run hrun
      refine ⟨run, row, by rw [hown]; exact hrun, ?_, hversion, .inr hnext⟩
      rw [hnext]
      exact hitems ▸ hrow
  · rw [← hruns]
    refine h.runs.mono (fun a _ b _ heq => ?_) fun run hmem hnew => ?_
    · subst heq
      exact ⟨rfl, rfl⟩
    obtain ⟨hid, -, hnext⟩ := hnew
    refine ⟨⟨item, by rw [hnext]; exact hitem⟩, fun run' hmem' hsame => ?_⟩
    rcases h.runs.new run' hmem' with ⟨row, hrow, rfl⟩ | ⟨hid', -, -⟩
    · -- a run that was there has an item that was there
      obtain ⟨old, hold⟩ := ht.runs run' hrow
      obtain ⟨hmemold, hkey⟩ := Table.get?_eq_some.mp hold
      have hlt := Table.key_lt hmemold
      rw [hkey, hsame, hnext] at hlt
      exact absurd hlt (Nat.lt_irrefl _)
    · exact Table.eq_of_key hmem' hmem (hid'.trans hid.symm)

theorem createContentJob_shifts (ht : d.Tidy) :
    d.Shifts (deskStep d (.createContentJob workspaceId topic script key)) := by
  have hrefl : d.Shifts d := .of_same rfl rfl rfl (.refl _)
  rcases atomically_cases (createContentJob workspaceId topic script key) d with ⟨v, h⟩ | ⟨_, h⟩
  · change d.Shifts (atomically (createContentJob workspaceId topic script key) d)
    generalize atomically (createContentJob workspaceId topic script key) d = d' at h
    rcases createContentJob_drafts h with rfl | ⟨db, rfl, hrun⟩
    · exact hrefl
    · have hone := runDraft_single hrun
      exact drafted_shifts ht (runDraft_returns hrun) hone
  · change d.Shifts (atomically (createContentJob workspaceId topic script key) d)
    rw [h]
    exact hrefl

/-! ## One operation, and one edit -/

theorem keepsItems_of_background (h : op.isBackground d) : op.keepsItems d := by
  cases op with
  | engine e =>
    cases e with
    | change elapsed environment =>
      cases environment with
      | none => trivial
      | some environment => exact h
    | _ => trivial
  | _ => trivial

/-- **What the desk and the engine do apart from edits and decisions** leaves waiting gates and
current versions alone. -/
theorem background_shifts (ht : d.Tidy) (hop : op.isBackground d) : d.Shifts (deskStep d op) := by
  cases op with
  | engine e => exact engine_shifts ht.sound (keepsItems_of_background hop) fun _ _ => hop
  | createContentJob workspaceId topic script key => exact createContentJob_shifts ht
  | draftItem workspaceId topic script =>
    exact ⟨.of_eq .refl rfl, .of_eq (fun _ => ⟨rfl, rfl⟩) rfl, insertDraft_moves,
      fun v hlt => versions_insert hlt,
      Nat.le_succ _⟩
  | editReviewGateContent workspaceId gateId expected edit => exact hop.elim
  | attest eligibility => exact .of_same rfl rfl rfl (.refl _)
  | deleteWorkspaceContent workspaceId confirm =>
    rcases deskStep_cases d (.deleteWorkspaceContent workspaceId confirm) with heq | heffect
    · rw [heq]
      exact .of_same rfl rfl rfl (.refl _)
    · generalize deskStep d (.deleteWorkspaceContent workspaceId confirm) = d' at heffect
      cases heffect with
      | deleted =>
        exact .of_same rfl rfl rfl
          (.modifyWhere (fun _ => ⟨rfl, rfl⟩) (fun _ _ _ => ⟨rfl, rfl⟩) rfl)

theorem background_tidy (ht : d.Tidy) (hop : op.isBackground d) : (deskStep d op).Tidy :=
  (background_shifts ht hop).tidy ht (deskStep_sound d op ht.sound)
    (deskStep_versioned ht.sound (keepsItems_of_background hop) ht.versioned)

/-- An edit takes the waiting gate and the item to the version it writes. -/
theorem Edited.tidy {workspaceId gateId expected : Nat} (ht : d.Tidy)
    (h : Edited workspaceId gateId expected d d') :
    d'.Tidy := by
  have heffect : DeskEffect (.editReviewGateContent workspaceId gateId expected {}) d d' :=
    .edited h
  have hs : d'.db.Sound := heffect.sound ht.sound.db
  have hv := heffect.versioned ht.sound.db trivial ht.versioned
  obtain ⟨gate, hgate, -, hwait, -, run, item, script, hrun, hitem, rfl⟩ := h.gate
  obtain ⟨hmem, hgateid⟩ := Table.get?_eq_some.mp hgate
  have hid : item.id = run.contentItemId := (Table.get?_eq_some.mp hitem).2
  -- the rows of a gate before and after
  have hback : ∀ g' ∈ (writeEdit workspaceId gateId item script d).db.gates, ∃ g ∈
      d.db.gates, g'.status = g.status ∧
      g'.pipelineRunId = g.pipelineRunId ∧ g'.id = g.id ∧
        g' = if g.id = gateId then (ReviewGate.setVersion d.versions.next).apply g else g := by
    intro g' hg'
    obtain ⟨g, hg, rfl⟩ := Table.mem_modify.mp hg'
    refine ⟨g, hg, ?_, ?_, ?_, rfl⟩
    all_goals
      split
      · rfl
      · rfl
  have hitems : ∀ k, (writeEdit workspaceId gateId item script d).db.contentItems.get? k =
      if k = item.id then some ((ContentItem.setVersion d.versions.next).apply item)
      else d.db.contentItems.get? k := by
    intro k
    change (d.db.contentItems.modify item.id (ContentItem.setVersion d.versions.next)).get? k = _
    rw [Table.get?_modify, show d.db.contentItems.get? item.id = some item from hid ▸ hitem]
    rfl
  refine ⟨⟨hs, ?_⟩, hv, ?_, ht.own, ?_, ?_⟩
  · intro g' hg'
    obtain ⟨g, hg, -, hown, -, -⟩ := hback g' hg'
    rw [hown]
    exact ht.sound.owned g hg
  · intro row hrow
    obtain ⟨found, hfound⟩ := ht.runs row hrow
    rw [hitems]
    split
    · exact ⟨_, rfl⟩
    · exact ⟨found, hfound⟩
  · intro g hg g' hg' hw hw' hsame
    obtain ⟨a, ha, hstatus, hown, haid, -⟩ := hback g hg
    obtain ⟨b, hb, hstatus', hown', hbid, -⟩ := hback g' hg'
    have heq : b = a := ht.alone a ha b hb (hstatus ▸ hw) (hstatus' ▸ hw')
        (by rw [← hown', ← hown]; exact hsame)
    exact Table.eq_of_key hg' hg (by rw [show Keyed.key g' = b.id from hbid, heq]; exact haid.symm)
  · intro g' hg' hw
    obtain ⟨g, hg, hstatus, hown, -, hrow⟩ := hback g' hg'
    have hgwait : g.status = .awaiting := hstatus ▸ hw
    obtain ⟨own, shown, hownrun, hshown, hversion⟩ := ht.shown g hg hgwait
    rw [hown]
    by_cases hkey : g.id = gateId
    · have hsame : g = gate := Table.eq_of_key hg hmem (hkey.trans hgateid.symm)
      rw [hsame, hrun, Option.some.injEq] at hownrun
      refine ⟨run, (ContentItem.setVersion d.versions.next).apply
        item, by rw [hsame]; exact hrun, ?_, ?_⟩
      · rw [hitems, if_pos hid.symm]
      · rw [hrow, if_pos hkey]
        rfl
    · -- another gate that waits is of another item
      have hne : own.contentItemId ≠ item.id := by
        intro heq
        have hruns : own = run :=
          ht.own run (Table.get?_eq_some.mp hrun).1 own (Table.get?_eq_some.mp hownrun).1
          (heq.trans hid)
        have hrunid : g.pipelineRunId = gate.pipelineRunId := by
          have hone : own.id = g.pipelineRunId := (Table.get?_eq_some.mp hownrun).2
          have htwo : run.id = gate.pipelineRunId := (Table.get?_eq_some.mp hrun).2
          rw [← hone, ← htwo, hruns]
        exact hkey ((congrArg ReviewGate.id (ht.alone gate hmem g hg hwait hgwait hrunid)).trans
          hgateid)
      refine ⟨own, shown, hownrun, ?_, ?_⟩
      · rw [hitems, if_neg hne, hshown]
      · rw [hrow, if_neg hkey]
        exact hversion

theorem Desk.Fresh.tidy (h : d.Fresh) : d.Tidy where
  sound := h.sound
  versioned := h.versioned
  runs run hrun := by rw [h.db.runs] at hrun; cases hrun
  own run hrun := by rw [h.db.runs] at hrun; cases hrun
  alone g hg := by rw [h.db.gates] at hg; cases hg
  shown g hg := by rw [h.db.gates] at hg; cases hg

end ContentOrchestrator
