import Mathlib.Data.List.Chain
import ContentOrchestrator.Services.GateVersions

/-! # Edits form a chain, and a decision is on what was shown

A call that has locked a waiting gate over the version it names keeps both until it
commits: whoever else would edit or decide waits for the lock. The item follows, since
its current version is the one its waiting gate shows. -/

namespace ContentOrchestrator

open Lib

variable {d d' : Desk} {s : GateStore} {held : List Nat}

def GateEntry.edit? : GateEntry → Option EditEntry
  | .edited e => some e
  | .decided _ => none

def GateEntry.decision? : GateEntry → Option DecisionEntry
  | .edited _ => none
  | .decided e => some e

def GateStore.edits (s : GateStore) : List EditEntry := s.entries.filterMap GateEntry.edit?

def GateStore.decisions (s : GateStore) : List DecisionEntry :=
  s.entries.filterMap GateEntry.decision?

/-- The committed edits of an item. -/
def GateStore.editsOf (s : GateStore) (itemId : Nat) : List EditEntry :=
  s.edits.filter (·.itemId == itemId)

/-- After a decision its gate is not edited, and its item only at a gate opened since. -/
def GateEntry.LeavesAlone : GateEntry → GateEntry → Prop
  | .decided decision, .edited e =>
    e.request.gateId ≠ decision.request.gateId ∧
      (decision.itemId = some e.itemId → decision.request.gateId < e.request.gateId)
  | _, _ => True

/-- What holds of the calls that went through. -/
structure GateStore.Linear (s : GateStore) : Prop where
  chain : ∀ itemId, (s.editsOf itemId).IsChain fun e e' => e'.request.expected = e.written
  current : ∀ e ∈ s.edits, e.current = some e.request.expected
  merged : ∀ e ∈ s.edits, ∃ row, s.desk.versions.get? e.written = some row ∧
    row.contentItemId = e.itemId ∧
    row.script = e.request.edit.over (s.desk.versions.get? e.request.expected)
  last : ∀ itemId e, (s.editsOf itemId).getLast? = some e →
    s.desk.db.currentOf itemId = some e.written
  decided : ∀ e ∈ s.decisions, ∀ v, e.request.expected = some v →
    e.shown = some v ∧ e.current = some v
  closed : s.entries.Pairwise GateEntry.LeavesAlone

/-- A gate that waits shows its item's current version. -/
def Desk.Shown (d : Desk) : Prop :=
  ∀ gate ∈ d.db.gates, gate.status = .awaiting →
    ∃ run item, d.db.runs.get? gate.pipelineRunId = some run ∧
    d.db.contentItems.get? run.contentItemId = some item ∧
      gate.contentVersionId = item.currentVersionId

/-! ## What a call knows -/

/-- It holds the gate's lock, and the gate waits over the version named. -/
structure EditRequest.Holds (d : Desk) (held : List Nat) (r : EditRequest) (gate : ReviewGate) :
    Prop where
  locked : r.gateId ∈ held
  stored : d.db.gates.get? r.gateId = some gate
  owned : gate.workspaceId = r.workspaceId
  waiting : gate.status = .awaiting
  version : gate.contentVersionId = some r.expected

/-- And the item is the one of the gate's run. -/
def EditRequest.HoldsItem (d : Desk) (held : List Nat) (r : EditRequest) (itemId : Nat) : Prop :=
  ∃ gate run, r.Holds d held gate ∧ d.db.runs.get? gate.pipelineRunId = some run ∧
    run.contentItemId = itemId

structure DecisionRequest.Holds (d : Desk) (held : List Nat) (r : DecisionRequest)
    (gate : ReviewGate) : Prop where
  locked : r.gateId ∈ held
  stored : d.db.gates.get? r.gateId = some gate
  owned : gate.workspaceId = r.workspaceId
  admitted : assertDecidable gate r.approved r.expected = .ok ()

def GatePoint.Asserts (d : Desk) (held : List Nat) : GatePoint → Prop
  | .editRequested _ | .decisionRequested _ | .refused _ => True
  | .editable r gate => r.Holds d held gate
  | .runRead r run => r.HoldsItem d held run.contentItemId
  | .itemRead r item => r.HoldsItem d held item.id ∧ item.currentVersionId = some r.expected
  | .versionRead r item current => r.HoldsItem d held item.id ∧ current = d.versions.get? r.expected
  | .decidable r gate => r.Holds d held gate

theorem EditRequest.Holds.current {r : EditRequest} {gate : ReviewGate} {run : PipelineRun}
    {item : ContentItem} (h : r.Holds d held gate) (ht : d.Tidy)
    (hrun : d.db.runs.get? gate.pipelineRunId = some run)
    (hitem : d.db.contentItems.get? run.contentItemId = some item) :
    item.currentVersionId = some r.expected := by
  obtain ⟨run', item', hrun', hitem', hversion⟩ :=
    ht.shown gate (Table.get?_eq_some.mp h.stored).1 h.waiting
  rw [hrun, Option.some.injEq] at hrun'
  subst hrun'
  rw [hitem, Option.some.injEq] at hitem'
  subst hitem'
  rw [← hversion, h.version]

theorem GatePoint.next_asserts {point point' : GatePoint} {held' : List Nat} (ht : s.desk.Tidy)
    (h : point.Asserts s.desk held) (hnext : point.next s held = some (held', point')) :
    point'.Asserts s.desk held' := by
  cases point with
  | editRequested r =>
    dsimp only [GatePoint.next] at hnext
    rcases lockGate_eq (Option.some.inj hnext) with ⟨error, rfl⟩ | ⟨gate, hgate, hcheck, rfl, rfl⟩
    · trivial
    · obtain ⟨hstored, hws⟩ := gateOf_eq_some.mp hgate
      obtain ⟨hwait, hversion⟩ := assertEditable_iff.mp hcheck
      exact ⟨List.mem_cons_self, hstored, hws, hwait, hversion⟩
  | editable r gate =>
    dsimp only [GatePoint.next] at hnext
    split at hnext
    · cases hnext
      trivial
    · rename_i run hrun
      cases hnext
      exact ⟨gate, run, h, hrun, rfl⟩
  | runRead r run =>
    dsimp only [GatePoint.next] at hnext
    split at hnext
    · cases hnext
      trivial
    · rename_i item hitem
      cases hnext
      have hid : item.id = run.contentItemId := (Table.get?_eq_some.mp hitem).2
      obtain ⟨gate, own, hholds, hrun, hown⟩ := h
      rw [← hown] at hitem
      exact ⟨⟨gate, own, hholds, hrun, hown.trans hid.symm⟩, hholds.current ht hrun hitem⟩
  | itemRead r item =>
    cases hnext
    refine ⟨h.1, ?_⟩
    rw [h.2]
    rfl
  | decisionRequested r =>
    dsimp only [GatePoint.next] at hnext
    rcases lockGate_eq (Option.some.inj hnext) with ⟨error, rfl⟩ | ⟨gate, hgate, hcheck, rfl, rfl⟩
    · trivial
    · obtain ⟨hstored, hws⟩ := gateOf_eq_some.mp hgate
      exact ⟨List.mem_cons_self, hstored, hws, hcheck⟩
  | versionRead r item current => cases hnext
  | decidable r gate => cases hnext
  | refused error => cases hnext

/-- What a call relies on that holds these gates. -/
structure Desk.Keeps (held : List Nat) (d d' : Desk) : Prop where
  gates : ∀ k ∈ held, ∀ g, d.db.gates.get? k = some g → d'.db.gates.get? k = some g
  runs : ∀ k run, d.db.runs.get? k = some run → ∃ run', d'.db.runs.get? k = some run' ∧
    run'.contentItemId = run.contentItemId
  versions : ∀ v < d.versions.next, d'.versions.get? v = d.versions.get? v

theorem EditRequest.Holds.keep {r : EditRequest} {gate : ReviewGate} (h : r.Holds d held gate)
    (hkeep : d.Keeps held d') : r.Holds d' held gate :=
  ⟨h.locked, hkeep.gates r.gateId h.locked gate h.stored, h.owned, h.waiting, h.version⟩

theorem EditRequest.HoldsItem.keep {r : EditRequest} {itemId : Nat} (h : r.HoldsItem d held itemId)
    (hkeep : d.Keeps held d') : r.HoldsItem d' held itemId := by
  obtain ⟨gate, run, hholds, hrun, rfl⟩ := h
  obtain ⟨run', hrun', hsame⟩ := hkeep.runs _ run hrun
  exact ⟨gate, run', hholds.keep hkeep, hrun', hsame⟩

theorem GatePoint.Asserts.keep {point : GatePoint} (h : point.Asserts d held) (hv : d.Versioned)
    (hkeep : d.Keeps held d') : point.Asserts d' held := by
  cases point with
  | editRequested r => trivial
  | decisionRequested r => trivial
  | refused error => trivial
  | editable r gate => exact EditRequest.Holds.keep h hkeep
  | runRead r run => exact EditRequest.HoldsItem.keep h hkeep
  | itemRead r item => exact ⟨h.1.keep hkeep, h.2⟩
  | versionRead r item current =>
    obtain ⟨hitem, rfl⟩ := h
    refine ⟨hitem.keep hkeep, ?_⟩
    obtain ⟨gate, run, hholds, -, -⟩ := hitem
    exact (hkeep.versions r.expected
      (hv.gates gate (Table.get?_eq_some.mp hholds.stored).1 r.expected
      hholds.version)).symm
  | decidable r gate =>
    have hholds : r.Holds d held gate := h
    exact ⟨hholds.locked, hkeep.gates r.gateId hholds.locked gate hholds.stored, hholds.owned,
      hholds.admitted⟩

/-! ## The entries -/

/-- A decided gate is closed for good, and another gate of its item was opened later. -/
structure GateStore.Sound (s : GateStore) : Prop where
  tidy : s.desk.Tidy
  linear : s.Linear
  named : ∀ e ∈ s.edits, e.request.expected < s.desk.versions.next
  settled : ∀ e ∈ s.decisions, ∃ g run, s.desk.db.gates.get? e.request.gateId = some g ∧
    g.status ≠ .awaiting ∧
    s.desk.db.runs.get? g.pipelineRunId = some run ∧ e.itemId = some run.contentItemId
  passed : ∀ e ∈ s.decisions, ∀ g ∈ s.desk.db.gates, g.status = .awaiting → ∀ run,
    s.desk.db.runs.get? g.pipelineRunId = some run → e.itemId = some run.contentItemId →
      e.request.gateId < g.id

/-- A gate that waits after the step, of an item that was there, waited before or has a new key. -/
theorem Desk.Shifts.waiting {g : ReviewGate} {run : PipelineRun} {item : ContentItem}
    (h : d.Shifts d') (ht : d.Tidy) (hg : g ∈ d'.db.gates) (hwait : g.status = .awaiting)
    (hrun : d'.db.runs.get? g.pipelineRunId = some run)
    (hitem : d.db.contentItems.get? run.contentItemId = some item) :
    (g ∈ d.db.gates ∧ ∃ old, d.db.runs.get? g.pipelineRunId = some old ∧
    old.contentItemId = run.contentItemId) ∨
      d.db.gates.next ≤ g.id := by
  rcases h.gates.new g hg with ⟨old, hold, hmove⟩ | hnew
  · obtain rfl := hmove.same hwait
    obtain ⟨row, hrow⟩ := ht.sound.owned g hold
    obtain ⟨row', hrow', hsame⟩ := h.run hrow
    rw [hrun, Option.some.injEq] at hrow'
    subst hrow'
    exact .inl ⟨hold, row, hrow, hsame.symm⟩
  · obtain ⟨row, -, hrow, -, -, hnext | hfresh⟩ := hnew.shown
    · exact .inr hnext
    · rw [hrun, Option.some.injEq] at hrow
      subst hrow
      obtain ⟨hmem, hkey⟩ := Table.get?_eq_some.mp hitem
      have hlt := Table.key_lt hmem
      rw [hkey, hfresh] at hlt
      exact absurd hlt (Nat.lt_irrefl _)

theorem currentOf_stored {db : Db} {itemId v : Nat} (h : db.currentOf itemId = some v) :
    ∃ item, db.contentItems.get? itemId = some item := by
  obtain ⟨item, hitem, -⟩ := Option.bind_eq_some_iff.mp h
  exact ⟨item, hitem⟩

/-- **A step that leaves waiting gates and current versions alone** makes no difference to the calls
that went through. -/
theorem GateStore.Sound.shift (h : s.Sound) (hshift : s.desk.Shifts d') (ht : d'.Tidy) :
    ({ s with desk := d' } : GateStore).Sound where
  tidy := ht
  linear :=
    { chain := h.linear.chain
      current := h.linear.current
      merged := by
        intro e he
        obtain ⟨row, hrow, hitem, hscript⟩ := h.linear.merged e he
        obtain ⟨hmem, hkey⟩ := Table.get?_eq_some.mp hrow
        have hlt : e.written < s.desk.versions.next := hkey ▸ Table.key_lt hmem
        refine ⟨row, (hshift.versions _ hlt).trans hrow, hitem, ?_⟩
        rw [hshift.versions _ (h.named e he)]
        exact hscript
      last := by
        intro itemId e he
        have hcurrent := h.linear.last itemId e he
        obtain ⟨item, hitem⟩ := currentOf_stored hcurrent
        exact (hshift.currentOf hitem).trans hcurrent
      decided := h.linear.decided
      closed := h.linear.closed }
  named e he := Nat.lt_of_lt_of_le (h.named e he) hshift.grows
  settled e he := by
    obtain ⟨g, run, hg, hwait, hrun, hitem⟩ := h.settled e he
    obtain ⟨g', hg', hmove⟩ := hshift.gates.get? (fun _ _ hmove => hmove.id) hg
    obtain ⟨run', hrun', hsame⟩ := hshift.run hrun
    refine ⟨g', run', hg',
      fun hwait' => ?_, by rw [hmove.run]; exact hrun', by rw [hsame]; exact hitem⟩
    exact hwait (hmove.same hwait' ▸ hwait')
  passed e he g hg hwait run hrun hitem := by
    obtain ⟨old, own, hold, -, hown, hsame⟩ := h.settled e he
    have hitems : own.contentItemId = run.contentItemId := Option.some.inj (hsame.symm.trans hitem)
    obtain ⟨item, hstored⟩ := h.tidy.runs own (Table.get?_eq_some.mp hown).1
    rw [hitems] at hstored
    rcases hshift.waiting h.tidy hg hwait hrun hstored with ⟨hbefore, row, hrow, hrowitem⟩ | hlater
    · exact h.passed e he g hbefore hwait row hrow (by rw [hrowitem]; exact hitem)
    · obtain ⟨hmem, hkey⟩ := Table.get?_eq_some.mp hold
      have hlt : e.request.gateId < s.desk.db.gates.next := hkey ▸ Table.key_lt hmem
      omega

/-! ## One more entry -/

theorem edits_append {entry : GateEntry} :
    ({ desk := d, entries := s.entries ++ [entry] } : GateStore).edits =
    s.edits ++ entry.edit?.toList := by
  simp only [GateStore.edits, List.filterMap_append]
  cases entry with
  | edited e => rfl
  | decided e => rfl

theorem decisions_append {entry : GateEntry} :
    ({ desk := d, entries := s.entries ++ [entry] } : GateStore).decisions =
    s.decisions ++ entry.decision?.toList := by
  simp only [GateStore.decisions, List.filterMap_append]
  cases entry with
  | edited e => rfl
  | decided e => rfl

theorem editsOf_append {e : EditEntry} {itemId : Nat} :
    ({ desk := d, entries := s.entries ++ [.edited e] } : GateStore).editsOf itemId =
      s.editsOf itemId ++ if itemId = e.itemId then [e] else [] := by
  rw [GateStore.editsOf, edits_append, List.filter_append]
  by_cases hid : itemId = e.itemId
  · simp [GateStore.editsOf, GateEntry.edit?, hid]
  · simp [GateStore.editsOf, GateEntry.edit?, hid, Ne.symm hid]

theorem mem_edits_append {e e' : EditEntry}
    (h : e ∈ ({ desk := d, entries := s.entries ++ [.edited e'] } : GateStore).edits) :
    e ∈ s.edits ∨ e = e' := by
  rw [edits_append] at h
  exact (List.mem_append.mp h).imp_right List.mem_singleton.mp

theorem mem_decisions_append {e e' : DecisionEntry}
    (h : e ∈ ({ desk := d, entries := s.entries ++ [.decided e'] } : GateStore).decisions) :
    e ∈ s.decisions ∨ e = e' := by
  rw [decisions_append] at h
  exact (List.mem_append.mp h).imp_right List.mem_singleton.mp

theorem decisions_append_edit {e : EditEntry} :
    ({ desk := d, entries := s.entries ++ [.edited e] } : GateStore).decisions = s.decisions :=
  decisions_append.trans (List.append_nil _)

theorem edits_append_decision {e : DecisionEntry} :
    ({ desk := d, entries := s.entries ++ [.decided e] } : GateStore).edits = s.edits :=
  edits_append.trans (List.append_nil _)

/-- An edit goes on where the item's last one has ended. -/
theorem GateStore.Linear.addEdit {e : EditEntry} (h : s.Linear)
    (hnamed : ∀ e ∈ s.edits, e.request.expected < s.desk.versions.next)
    (hnow : s.desk.db.currentOf e.itemId = some e.request.expected)
    (hseen : e.current = some e.request.expected)
    (hversions : ∀ v < s.desk.versions.next, d'.versions.get? v = s.desk.versions.get? v)
    (hrow : ∃ row, d'.versions.get? e.written = some row ∧ row.contentItemId = e.itemId ∧
      row.script = e.request.edit.over (d'.versions.get? e.request.expected))
    (hcurrent : ∀ itemId, d'.db.currentOf itemId =
      if itemId = e.itemId then some e.written else s.desk.db.currentOf itemId)
    (hclosed : ∀ decision ∈ s.decisions, GateEntry.LeavesAlone (.decided decision) (.edited e)) :
    ({ desk := d', entries := s.entries ++ [.edited e] } : GateStore).Linear where
  chain itemId := by
    rw [editsOf_append]
    split
    · rename_i hid
      refine List.isChain_append.mpr ⟨h.chain itemId, List.isChain_singleton _,
        fun last hlast next hnext => ?_⟩
      obtain rfl : next = e := by simpa using hnext.symm
      have hended := h.last itemId last hlast
      rw [hid, hnow, Option.some.injEq] at hended
      exact hended
    · rw [List.append_nil]
      exact h.chain itemId
  current e' he' := by
    rcases mem_edits_append he' with hold | rfl
    · exact h.current e' hold
    · exact hseen
  merged e' he' := by
    rcases mem_edits_append he' with hold | rfl
    · obtain ⟨row, hrow, hitem, hscript⟩ := h.merged e' hold
      obtain ⟨hmem, hkey⟩ := Table.get?_eq_some.mp hrow
      have hlt : e'.written < s.desk.versions.next := hkey ▸ Table.key_lt hmem
      refine ⟨row, (hversions _ hlt).trans hrow, hitem, ?_⟩
      rw [hversions _ (hnamed e' hold)]
      exact hscript
    · exact hrow
  last itemId e' he' := by
    rw [editsOf_append] at he'
    rw [hcurrent]
    split
    · rename_i hid
      rw [if_pos hid, List.getLast?_concat, Option.some.injEq] at he'
      rw [← he']
    · rename_i hid
      rw [if_neg hid, List.append_nil] at he'
      exact h.last itemId e' he'
  decided e' he' := by
    rw [decisions_append_edit] at he'
    exact h.decided e' he'
  closed := by
    refine List.pairwise_append.mpr ⟨h.closed, List.pairwise_singleton _ _,
      fun entry hentry next hnext => ?_⟩
    obtain rfl := List.mem_singleton.mp hnext
    cases entry with
    | edited _ => trivial
    | decided decision => exact hclosed decision (List.mem_filterMap.mpr ⟨_, hentry, rfl⟩)

/-- A decision leaves the edits as they are. -/
theorem GateStore.Linear.addDecision {e : DecisionEntry} (h : s.Linear)
    (hdecided : ∀ v, e.request.expected = some v → e.shown = some v ∧ e.current = some v) :
    ({ s with entries := s.entries ++ [.decided e] } : GateStore).Linear where
  chain itemId := by
    rw [GateStore.editsOf, edits_append_decision]
    exact h.chain itemId
  current e' he' := by
    rw [edits_append_decision] at he'
    exact h.current e' he'
  merged e' he' := by
    rw [edits_append_decision] at he'
    exact h.merged e' he'
  last itemId e' he' := by
    rw [GateStore.editsOf, edits_append_decision] at he'
    exact h.last itemId e' he'
  decided e' he' v hnamed := by
    rcases mem_decisions_append he' with hold | rfl
    · exact h.decided e' hold v hnamed
    · exact hdecided v hnamed
  closed := by
    refine List.pairwise_append.mpr ⟨h.closed, List.pairwise_singleton _ _,
      fun entry _ next hnext => ?_⟩
    obtain rfl := List.mem_singleton.mp hnext
    cases entry with
    | edited _ => trivial
    | decided _ => trivial

/-! ## The commit of an edit -/

/-- What an edit that commits names is current, and what it writes is current next. -/
theorem EditRequest.HoldsItem.edited {r : EditRequest} {item : ContentItem}
    (h : r.HoldsItem d held item.id) (ht : d.Tidy) (script : Script) :
    Edited r.workspaceId r.gateId r.expected d (writeEdit r.workspaceId r.gateId item script d) ∧
      d.db.currentOf item.id = some r.expected := by
  obtain ⟨gate, run, hholds, hrun, hid⟩ := h
  obtain ⟨row, hrow⟩ := ht.runs run (Table.get?_eq_some.mp hrun).1
  have hcurrent := hholds.current ht hrun hrow
  have hkey : row.id = item.id := (Table.get?_eq_some.mp hrow).2.trans hid
  refine ⟨⟨gate, hholds.stored, hholds.owned, hholds.waiting, hholds.version, run, row, script,
    hrun, hrow, ?_⟩, ?_⟩
  · simp only [writeEdit, hkey]
  · rw [← hid, Db.currentOf, hrow]
    exact hcurrent

theorem writeEdit_currentOf {workspaceId gateId itemId : Nat} {item stored : ContentItem}
    {script : Script} (hstored : d.db.contentItems.get? item.id = some stored) :
    (writeEdit workspaceId gateId item script d).db.currentOf itemId =
      if itemId = item.id then some d.versions.next else d.db.currentOf itemId := by
  change ((d.db.contentItems.modify item.id (ContentItem.setVersion d.versions.next)).get?
    itemId).bind _ = _
  rw [Table.get?_modify]
  split
  · rw [hstored]
    rfl
  · rfl

/-- An edited gate waits, and a decided one does not. -/
theorem GateStore.Sound.decided_elsewhere {r : EditRequest} {gate : ReviewGate} (h : s.Sound)
    (hgate : r.Holds s.desk held gate) {e : DecisionEntry} (he : e ∈ s.decisions) :
    r.gateId ≠ e.request.gateId := by
  obtain ⟨g, _, hg, hwait, -, -⟩ := h.settled e he
  intro heq
  rw [← heq, hgate.stored, Option.some.injEq] at hg
  exact hwait (hg ▸ hgate.waiting)

theorem GateStore.Sound.edit {r : EditRequest} {item : ContentItem}
    {current : Option ContentVersion} (h : s.Sound) (hholds : r.HoldsItem s.desk held item.id)
    (hcurrent : current = s.desk.versions.get? r.expected) :
    (commitEdit r item current s).Sound := by
  obtain ⟨hedited, hnow⟩ := hholds.edited h.tidy (r.edit.over current)
  obtain ⟨stored, hstored⟩ := currentOf_stored hnow
  obtain ⟨gate, run, hgate, hrun, hrunitem⟩ := hholds
  have hnamed : r.expected < s.desk.versions.next :=
    h.tidy.versioned.gates gate (Table.get?_eq_some.mp hgate.stored).1 r.expected hgate.version
  have hversions : ∀ v < s.desk.versions.next,
      (writeEdit r.workspaceId r.gateId item (r.edit.over current) s.desk).versions.get? v =
        s.desk.versions.get? v := fun v hlt => versions_insert hlt
  have hlinear : (commitEdit r item current s).Linear := by
    refine h.linear.addEdit h.named hnow hnow hversions ⟨_, Table.get?_insert.trans (if_pos rfl),
      rfl, ?_⟩
      (fun _ => writeEdit_currentOf hstored) fun e he =>
        ⟨h.decided_elsewhere hgate he, fun hsame => ?_⟩
    · dsimp only
      rw [hversions _ hnamed, ← hcurrent]
    · obtain ⟨hmem, hkey⟩ := Table.get?_eq_some.mp hgate.stored
      have hgateId : gate.id = r.gateId := hkey
      rw [← hrunitem] at hsame
      rw [← hgateId]
      exact h.passed e he gate hmem hgate.waiting run hrun hsame
  refine ⟨hedited.tidy h.tidy, hlinear, fun e he => ?_, fun e he => ?_,
    fun e he g hg hwait own hown hsame => ?_⟩
  · rcases mem_edits_append he with hold | rfl
    · exact Nat.lt_succ_of_lt (h.named e hold)
    · exact Nat.lt_succ_of_lt hnamed
  · have hold : e ∈ s.decisions := decisions_append_edit (s := s) ▸ he
    obtain ⟨g, own, hg, hwait, hown, hsame⟩ := h.settled e hold
    refine ⟨g, own, ?_, hwait, hown, hsame⟩
    exact (Table.get?_modify.trans (if_neg (h.decided_elsewhere hgate hold).symm)).trans hg
  · have hdecided : e ∈ s.decisions := decisions_append_edit (s := s) ▸ he
    obtain ⟨old, hold, rfl⟩ := Table.mem_modify.mp hg
    split at hwait
    · rename_i hkey
      rw [if_pos hkey] at hown ⊢
      exact h.passed e hdecided old hold hwait own hown hsame
    · rename_i hkey
      rw [if_neg hkey] at hown ⊢
      exact h.passed e hdecided old hold hwait own hown hsame

/-! ## The commit of a decision -/

theorem expected_eq_shown {gate : ReviewGate} {approved : Bool} {expected : Option Nat} {v : Nat}
    (h : assertDecidable gate approved expected = .ok ()) (hnamed : expected = some v) :
    gate.contentVersionId = some v := by
  by_contra hne
  have hawait := awaiting_of_decidable h
  subst hnamed
  by_cases hmissing : approved = true ∧ gate.contentVersionId = none
  · simp [assertDecidable, hawait, hmissing, bind, Except.bind, throw, throwThe,
      MonadExceptOf.throw] at h
  · simp [assertDecidable, hawait, hmissing, Ne.symm hne, throw, throwThe, MonadExceptOf.throw] at h

/-- **What a decision that goes through does to the desk.** -/
structure Verdict (gateId : Nat) (d : Desk) (db : Db) : Prop where
  shifts : d.Shifts { d with db }
  tidy : ({ d with db } : Desk).Tidy
  others : ∀ k ≠ gateId, ∀ g, d.db.gates.get? k = some g → db.gates.get? k = some g
  closed : ∃ g, db.gates.get? gateId = some g ∧ g.status ≠ .awaiting

theorem DecisionRequest.Holds.verdict {r : DecisionRequest} {gate : ReviewGate} {db : Db} {v : Unit}
    (h : r.Holds d held gate) (ht : d.Tidy)
    (hreturns : Returns (deliverVerdict gate r.reviewerId r.approved) d.db v db) :
    Verdict r.gateId d db := by
  have hdecided := deliverVerdict_alone h.stored h.owned h.admitted hreturns
  obtain ⟨_, _, _, -, -, -, -, -, -, closed, hclosed, hwait⟩ := decideReviewGate_leaves hdecided
  generalize hop : Op.decide r.workspaceId r.gateId r.reviewerId r.approved r.expected = e
  have hstep : step d.db e = db := by
    rw [← hop]
    exact hdecided.atomically
  have hdesk : deskStep d (.engine e) = { d with db } := by rw [deskStep_engine, hstep]
  have hkeeps : (DeskOp.engine e).keepsItems d := by
    rw [← hop]
    trivial
  have hshifts : d.Shifts (deskStep d (.engine e)) :=
      engine_shifts ht.sound hkeeps fun run hstarted => by
    obtain ⟨_, _, _, _, _, hstart, -⟩ := hstarted
    rw [← hop] at hstart
    cases hstart
  have hsound := deskStep_sound d (.engine e) ht.sound
  have hversioned := deskStep_versioned ht.sound hkeeps ht.versioned
  have hmoves := deskStep_gates ht.sound (.engine e)
  rw [hdesk] at hshifts hsound hversioned hmoves
  refine ⟨hshifts, hshifts.tidy ht hsound hversioned, fun k hne g hg => ?_, closed, hclosed, hwait⟩
  obtain ⟨g', hg', hmove⟩ := hmoves.get? (fun _ _ hmove => hmove.same.1) hg
  cases hmove with
  | kept => exact hg'
  | engine request move =>
    cases request
    cases move with
    | kept => exact hg'
    | escalated request _ _ _ _ _ =>
      rw [← hop] at request
      cases request
    | decided request _ =>
      rw [← hop] at request
      have hid : r.gateId = g.id := (Op.decide.inj request).2.1
      exact absurd ((Table.get?_eq_some.mp hg).2.symm.trans hid.symm) hne
  | edited request _ => cases request

/-- A gate of the decided one's item that waits afterwards was opened later. -/
theorem GateStore.Sound.waiting_later {r : DecisionRequest} {gate g : ReviewGate}
    {run own : PipelineRun} {db : Db} (h : s.Sound) (hholds : r.Holds s.desk held gate)
    (hverdict : Verdict r.gateId s.desk db)
    (hrun : s.desk.db.runs.get? gate.pipelineRunId = some run)
    (hg : g ∈ db.gates) (hgwait : g.status = .awaiting)
      (hown : db.runs.get? g.pipelineRunId = some own)
        (hsame : run.contentItemId = own.contentItemId) :
    r.gateId < g.id := by
  have hwait := awaiting_of_decidable hholds.admitted
  obtain ⟨hmem, hkey⟩ := Table.get?_eq_some.mp hholds.stored
  obtain ⟨item, hitem⟩ := h.tidy.runs run (Table.get?_eq_some.mp hrun).1
  rw [hsame] at hitem
  rcases hverdict.shifts.waiting h.tidy hg hgwait hown hitem with
    ⟨hold, row, hrow, hrowitem⟩ | hlater
  · -- a gate of this item that waited before is the one decided
    have hruns : row = run :=
      h.tidy.own run (Table.get?_eq_some.mp hrun).1 row (Table.get?_eq_some.mp hrow).1
      (hrowitem.trans hsame.symm)
    have hgateruns : g.pipelineRunId = gate.pipelineRunId := by
      have hone : row.id = g.pipelineRunId := (Table.get?_eq_some.mp hrow).2
      have htwo : run.id = gate.pipelineRunId := (Table.get?_eq_some.mp hrun).2
      rw [← hone, ← htwo, hruns]
    obtain rfl := h.tidy.alone gate hmem g hold hwait hgwait hgateruns
    obtain ⟨closed, hclosed, hnot⟩ := hverdict.closed
    have hstill : db.gates.get? r.gateId = some g := Table.get?_eq_some.mpr ⟨hg, hkey⟩
    rw [hclosed, Option.some.injEq] at hstill
    exact absurd (hstill ▸ hgwait) hnot
  · have hlt : r.gateId < s.desk.db.gates.next := hkey ▸ Table.key_lt hmem
    omega

theorem GateStore.Sound.decide {r : DecisionRequest} {gate : ReviewGate} {db : Db} (h : s.Sound)
    (hholds : r.Holds s.desk held gate) (hverdict : Verdict r.gateId s.desk db) :
    ({ desk := { s.desk with db }
       entries := s.entries ++ [.decided (decisionEntry r s.desk.db)] } : GateStore).Sound := by
  have hbefore := h.shift hverdict.shifts hverdict.tidy
  have hwait := awaiting_of_decidable hholds.admitted
  obtain ⟨hmem, hkey⟩ := Table.get?_eq_some.mp hholds.stored
  obtain ⟨run, item, hrun, hitem, hshown⟩ := h.tidy.shown gate hmem hwait
  -- the entry comes last
  generalize hentry : decisionEntry r s.desk.db = entry
  have hrequest : entry.request = r := by rw [← hentry]; rfl
  have hentryitem : entry.itemId = some run.contentItemId := by
    rw [← hentry]
    simp only [decisionEntry, hholds.stored, Option.bind_some, hrun, Option.map_some]
  have hversion : entry.shown = gate.contentVersionId := by
    rw [← hentry]
    simp only [decisionEntry, hholds.stored, Option.bind_some]
  have hcurrent : entry.current = gate.contentVersionId := by
    rw [← hentry, hshown]
    simp only [decisionEntry, hholds.stored, Option.bind_some, hrun, Option.map_some, Db.currentOf,
      hitem]
  have hlinear :
      ({ desk := { s.desk with db }
         entries := s.entries ++ [.decided entry] } : GateStore).Linear := by
    refine hbefore.linear.addDecision fun v hnamed => ?_
    rw [hrequest] at hnamed
    have hgate := expected_eq_shown hholds.admitted hnamed
    exact ⟨hversion.trans hgate, hcurrent.trans hgate⟩
  refine ⟨hverdict.tidy, hlinear, fun e he => ?_, fun e he => ?_,
    fun e he g hg hgwait own hown hsame => ?_⟩
  · exact hbefore.named e (edits_append_decision (s := s) ▸ he)
  · rcases mem_decisions_append he with hold | rfl
    · exact hbefore.settled e hold
    · obtain ⟨closed, hclosed, hnot⟩ := hverdict.closed
      obtain ⟨own, hown, hsame⟩ := hverdict.shifts.run hrun
      obtain ⟨g, hg, hmove⟩ := hverdict.shifts.gates.get? (fun _ _ hmove => hmove.id) hholds.stored
      have hclosed' : ({ s.desk with db } : Desk).db.gates.get? r.gateId = some closed := hclosed
      rw [hg, Option.some.injEq] at hclosed'
      subst hclosed'
      refine ⟨g, own, by rw [hrequest]; exact hg, hnot, by rw [hmove.run]; exact hown, ?_⟩
      rw [hentryitem, hsame]
  · rcases mem_decisions_append he with hold | rfl
    · exact hbefore.passed e hold g hg hgwait own hown hsame
    · rw [hentryitem, Option.some.injEq] at hsame
      rw [hrequest]
      exact h.waiting_later hholds hverdict hrun hg hgwait hown hsame

/-! ## Every interleaving -/

/-- Edits and decisions are calls; what else happens is background. -/
def OthersInBackground (w : World GateStore Nat GatePoint) : Action GateRequest DeskOp → Prop
  | .other op => op.isBackground w.store.desk
  | _ => True

theorem Desk.Shifts.keeps (h : d.Shifts d')
    (hgates : ∀ k ∈ held, ∀ g, d.db.gates.get? k = some g → d'.db.gates.get? k = some g) :
    d.Keeps held d' :=
  ⟨hgates, fun _ _ hrun => h.run hrun, h.versions⟩

theorem writeEdit_keeps {r : EditRequest} {item : ContentItem} {script : Script}
    (hfree : r.gateId ∉ held) :
    d.Keeps held (writeEdit r.workspaceId r.gateId item script d) := by
  refine ⟨fun k hk g hg => ?_, fun k run hrun => ⟨run, hrun, rfl⟩, fun v hlt => versions_insert hlt⟩
  have hne : k ≠ r.gateId := fun heq => hfree (heq ▸ hk)
  exact (Table.get?_modify.trans (if_neg hne)).trans hg

theorem gatesWritten_keeps {op : DeskOp} (hfree : ∀ k ∈ gatesWritten op d, k ∉ held) :
    ∀ k ∈ held, ∀ g, d.db.gates.get? k = some g → (deskStep d op).db.gates.get? k = some g := by
  intro k hk g hg
  obtain ⟨hmem, hkey⟩ := Table.get?_eq_some.mp hg
  have hid : g.id = k := hkey
  by_contra hne
  refine hfree k (List.mem_map.mpr ⟨g, Table.mem_select.mpr ⟨hmem, ?_⟩, hid⟩) hk
  rw [hid]
  exact decide_eq_true hne

theorem gateCalls_outline :
    Outline gateCalls OthersInBackground GateStore.Sound fun s held point =>
      point.Asserts s.desk held where
  starts := by
    intro w request _ _
    cases request with
    | edit r => trivial
    | decide r => trivial
  runs := fun hw hx _ hnext _ => GatePoint.next_asserts hw.store.tidy (hw.running _ hx) hnext
  commits := by
    intro w x u hw hx _ hcommit
    have hasserts := hw.running x hx
    have hv := hw.store.tidy.versioned
    cases hlocals : x.locals with
    | versionRead r item current =>
      rw [hlocals] at hasserts hcommit
      cases hcommit
      obtain ⟨hholds, hcurrent⟩ := hasserts
      refine ⟨hw.store.edit hholds hcurrent, fun y hy hne =>
        (hw.running y hy).keep hv (writeEdit_keeps ?_)⟩
      obtain ⟨_, _, hgate, -, -⟩ := hholds
      exact hw.exclusive x hx y hy (Ne.symm hne) r.gateId hgate.locked
    | decidable r gate =>
      rw [hlocals] at hasserts hcommit
      cases hcommit
      have hholds : r.Holds w.store.desk x.held gate := hasserts
      unfold commitDecision
      split
      · rename_i db hreturns
        have hverdict := hholds.verdict hw.store.tidy hreturns
        refine ⟨hw.store.decide hholds hverdict, fun y hy hne =>
          (hw.running y hy).keep hv (hverdict.shifts.keeps ?_)⟩
        intro k hk g hg
        have hfree := hw.exclusive x hx y hy (Ne.symm hne) r.gateId hholds.locked
        exact hverdict.others k (fun heq => hfree (heq ▸ hk)) g hg
      · exact ⟨hw.store, fun y hy _ => hw.running y hy⟩
    | _ =>
      rw [hlocals] at hcommit
      cases hcommit
  others := by
    intro w op hw hop hfree
    have hbackground : op.isBackground w.store.desk := hop
    have hshifts := background_shifts hw.store.tidy hbackground
    refine ⟨hw.store.shift hshifts (background_tidy hw.store.tidy hbackground), fun y hy => ?_⟩
    exact (hw.running y hy).keep hw.store.tidy.versioned
      (hshifts.keeps (gatesWritten_keeps fun k hk => hfree y hy k hk))

/-- **Edits are never lost, and reviewers decide what they see**, in every interleaving of edits and
decisions from a desk that has not run yet: the edits of an item form a chain, a decision that names
a version is on that version, nothing is edited after it, and a waiting gate shows the current
version. -/
theorem edits_linear {w : World GateStore Nat GatePoint} (hfresh : d.Fresh)
    (hreach : Reach gateCalls.Steps OthersInBackground { store := { desk := d } } w) :
    w.store.Linear ∧ w.store.desk.Shown := by
  have hstart : GateStore.Sound { desk := d } :=
    { tidy := hfresh.tidy
      linear :=
        { chain := fun _ => List.isChain_nil
          current := fun _ he => absurd he List.not_mem_nil
          merged := fun _ he => absurd he List.not_mem_nil
          last := fun _ _ he => by cases he
          decided := fun _ he => absurd he List.not_mem_nil
          closed := List.Pairwise.nil }
      named := fun _ he => absurd he List.not_mem_nil
      settled := fun _ he => absurd he List.not_mem_nil
      passed := fun _ he => absurd he List.not_mem_nil }
  have hw := gateCalls_outline.sound (World.Holds.idle hstart) hreach
  exact ⟨hw.store.linear, hw.store.tidy.shown⟩

/-! ## Two editors and a reviewer -/

/-- Drafts are all that happens beside the calls. -/
def draftsOnly (_ : World GateStore Nat GatePoint) : Action GateRequest DeskOp → Bool
  | .other (.createContentJob _ _ _ _) => true
  | .other _ => false
  | _ => true

/-- Both editors have loaded version 1, and the second has to load the first one's; so has the
reviewer. -/
def twoEditors : List (Action GateRequest DeskOp) :=
  [.other (.createContentJob 0 "topic" { hook := some "a" } none),
    .start (.edit ⟨0, 0, 1, { body := some "b" }⟩), .start (.edit ⟨0, 0, 1, { body := some "c" }⟩),
    .start (.decide ⟨0, 0, 7, true, some 1⟩), .run 0, .run 1, .run 0, .run 0, .run 0, .commit 0,
      .run 1, .abort 1,
    .run 2, .abort 2, .start (.edit ⟨0, 0, 2, { cta := some "c" }⟩),
      .start (.decide ⟨0, 0, 7, true, some 3⟩), .run 3,
    .run 4, .run 3, .run 3, .run 3, .commit 3, .run 4, .commit 4]

theorem edits_linear_twoEditors :
    ((replay gateCalls.step { store := { desk := demoDesk } } twoEditors).store.Linear ∧
      (replay gateCalls.step { store := { desk := demoDesk } } twoEditors).store.desk.Shown) ∧
    (replay gateCalls.step { store := { desk := demoDesk } } twoEditors).store.edits.map
    (·.written) = [2, 3] ∧
    (replay gateCalls.step { store := { desk := demoDesk } } twoEditors).store.decisions.map
    (·.shown) = [some 3] := by
  have hadmits : admits gateCalls.step draftsOnly { store := { desk := demoDesk } } twoEditors =
      true := by
    decide +kernel
  refine ⟨edits_linear demoDesk_fresh
    ((reach_replay _ _ hadmits).mono ?_), by decide +kernel, by decide +kernel⟩
  intro w a h
  cases a with
  | other op =>
    cases op with
    | createContentJob _ _ _ _ => trivial
    | _ => cases h
  | _ => trivial

end ContentOrchestrator
