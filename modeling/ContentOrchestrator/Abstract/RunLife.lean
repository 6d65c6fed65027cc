import ContentOrchestrator.Model.Enums

/-! # The life of one run

What a run is for, seen from outside: at any time at most one thing carries it
forward, a queued job, a waiting assignment, an assignment at work or a gate under
review. A `Move` is everything one transaction may do to that. The invariants of the
engine are proved here, where a move touches one token and one status. -/

namespace ContentOrchestrator

/-- What carries a run forward. -/
inductive Token
  | queued (job : Nat) (text : String) (attempt : Nat)
  | waiting (assignment : Nat) (stage : ContentStage) (attempt : Nat)
  | working (assignment : Nat) (stage : ContentStage) (attempt : Nat)
  | reviewing (gate : Nat) (stage : ContentStage)
deriving DecidableEq, Repr

namespace Token

/-- The stage the token is about, as text. -/
def stageText : Token → String
  | queued _ text _ => text
  | waiting _ stage _ | working _ stage _ | reviewing _ stage => stage.value

/-- Engine work, as opposed to a wait for a human. -/
def isWork : Token → Bool
  | reviewing _ _ => false
  | _ => true

/-- No worker has it. -/
def isIdle : Token → Bool
  | queued _ _ _ | waiting _ _ _ => true
  | _ => false

/-- An assignment, waiting or at work. -/
def isAssignment : Token → Bool
  | waiting _ _ _ | working _ _ _ => true
  | _ => false

end Token

structure RunView where
  status : PipelineRunStatus
  stage : ContentStage
  definitionId : Nat
  token : Option Token
deriving DecidableEq, Repr

inductive Label
  | quiet | cancelled | held | delayed | offered | assigned | dropped | retired | exhausted
  | claimed | requeued | retried | failed | finished | entered | gated | stranded | released
  | revived
deriving DecidableEq, Repr

/-- A worker starts an attempt. -/
def Label.starts : Label → Bool
  | assigned | claimed => true
  | _ => false

/-- Dispatch lets the run through. -/
def PipelineRunStatus.isOpen (status : PipelineRunStatus) : Bool :=
  !status.isTerminal && !(status == .paused)

/-- A failed run is set running again. -/
def RunView.wake (v : RunView) : RunView :=
  { v with status := if v.status = .failed then .running else v.status }

/-- The run is neither succeeded nor cancelled. -/
def RunView.Unsettled (v : RunView) : Prop := v.status ≠ .succeeded ∧ v.status ≠ .cancelled

/-- **What one transaction may do to a run.** `limit` is the attempt bound of each stage of the
run's definition. -/
inductive Move (limit : ContentStage → Option Nat) : RunView → Label → RunView → Prop
  | quiet {v : RunView} : Move limit v .quiet v
  | cancelled {v : RunView} (live : v.status.isTerminal = false) :
      Move limit v .cancelled
        { v with status := .cancelled, token := v.token.filter fun tok => !tok.isAssignment }
  | held {v : RunView} {tok : Token} (carries : v.token = some tok) (idle : tok.isIdle = true)
      (live : v.status.isTerminal = false) : Move limit v .held { v with status := .paused }
  | delayed {v : RunView} {job attempt : Nat} {text : String}
      (carries : v.token = some (.queued job text attempt)) :
      Move limit v .delayed { v with token := some (.queued job text (attempt + 1)) }
  | offered {v : RunView} {job attempt assignment : Nat} {stage : ContentStage}
      (carries : v.token = some (.queued job stage.value attempt)) (live : v.status.isOpen = true) :
      Move limit v .offered { v with token := some (.waiting assignment stage (attempt + 1)) }
  | assigned {v : RunView} {job attempt assignment : Nat} {stage : ContentStage}
      (carries : v.token = some (.queued job stage.value attempt)) (live : v.status.isOpen = true) :
      Move limit v .assigned { v with token := some (.working assignment stage (attempt + 1)) }
  | dropped {v : RunView} {job attempt : Nat} {text : String}
      (carries : v.token = some (.queued job text attempt)) (live : v.status.isOpen = true) :
      Move limit v .dropped { v with token := none }
  | retired {v : RunView} {job attempt : Nat} {text : String}
      (carries : v.token = some (.queued job text attempt)) (closed : v.status.isOpen = false) :
      Move limit v .retired { v with token := none }
  | exhausted {v : RunView} {job attempt : Nat} {text : String}
      (carries : v.token = some (.queued job text attempt)) :
      Move limit v .exhausted { v with token := none }
  | claimed {v : RunView} {assignment attempt : Nat} {stage : ContentStage}
      (carries : v.token = some (.waiting assignment stage attempt)) :
      Move limit v .claimed { v with token := some (.working assignment stage attempt) }
  | requeued {v : RunView} {assignment attempt : Nat} {stage : ContentStage}
      (carries : v.token = some (.working assignment stage attempt))
      (left : ∀ m, limit stage = some m → attempt + 1 ≤ m) :
      Move limit v .requeued { v with token := some (.waiting assignment stage (attempt + 1)) }
  | retried {v : RunView} {assignment attempt job m : Nat} {stage : ContentStage}
      (carries : v.token = some (.working assignment stage attempt))
      (bound : limit stage = some m) (left : attempt < m) :
      Move limit v .retried { v with token := some (.queued job stage.value attempt) }
  | failed {v : RunView} {tok : Token} (carries : v.token = some tok) (out : tok.isIdle = false) :
      Move limit v .failed { v with status := .failed, token := none }
  | finished {v : RunView} {tok : Token} {stage : ContentStage} (carries : v.token = some tok)
      (out : tok.isIdle = false) :
      Move limit v .finished { v with status := .succeeded, stage, token := none }
  | advanced {v : RunView} {assignment attempt job : Nat} {stage next : ContentStage}
      (carries : v.token = some (.working assignment stage attempt))
      (known : (limit next).isSome = true) :
      Move limit v .entered { v with stage := next, token := some (.queued job next.value 0) }
  | resumed {v : RunView} {gate job : Nat} {stage next : ContentStage}
      (carries : v.token = some (.reviewing gate stage)) (known : (limit next).isSome = true) :
      Move limit v .entered
        { v with status := .running, stage := next, token := some (.queued job next.value 0) }
  | gated {v : RunView} {assignment attempt gate : Nat} {stage next : ContentStage}
      (carries : v.token = some (.working assignment stage attempt)) :
      Move limit v .gated
        { v with status := .paused, stage := next, token := some (.reviewing gate next) }
  | stranded {v : RunView} {gate : Nat} {stage next : ContentStage}
      (carries : v.token = some (.reviewing gate stage)) :
      Move limit v .stranded { v with status := .running, stage := next, token := none }
  | released {v : RunView} {gate : Nat} {stage : ContentStage}
      (carries : v.token = some (.reviewing gate stage)) :
      Move limit v .released { v with token := none }
  | woken {v : RunView} (unsettled : v.Unsettled) : Move limit v .revived v.wake
  | revived {v : RunView} {job attempt : Nat} {text : String} (idle : v.token = none)
      (unsettled : v.Unsettled) :
      Move limit v .revived { v.wake with token := some (.queued job text attempt) }

variable {limit : ContentStage → Option Nat} {v v' : RunView} {l : Label}

/-- A run keeps its definition. -/
theorem Move.definitionId (h : Move limit v l v') : v'.definitionId = v.definitionId := by
  cases h <;> rfl

/-! ## No assignment outlives its run -/

/-- A terminal run has no assignment. -/
def RunView.Settled (v : RunView) : Prop :=
  v.status.isTerminal = true → ∀ tok, v.token = some tok → tok.isAssignment = false

theorem isTerminal_of_isOpen {status : PipelineRunStatus} (h : status.isOpen = true) :
    status.isTerminal = false := by
  cases status <;> first | rfl | cases h

theorem Move.settled (h : Move limit v l v') (hv : v.Settled) : v'.Settled := by
  intro hterm tok htok
  cases h with
  | quiet => exact hv hterm tok htok
  | cancelled =>
    obtain ⟨_, hkeep⟩ := Option.filter_eq_some_iff.mp htok
    simpa using hkeep
  | held _ _ _ => cases hterm
  | delayed _ => cases htok; rfl
  | offered _ live =>
    rw [isTerminal_of_isOpen live] at hterm
    cases hterm
  | assigned _ live =>
    rw [isTerminal_of_isOpen live] at hterm
    cases hterm
  | claimed carries =>
    have hold := hv hterm _ carries
    cases hold
  | requeued carries _ =>
    have hold := hv hterm _ carries
    cases hold
  | retried _ _ _ => cases htok; rfl
  | advanced _ _ => cases htok; rfl
  | resumed _ _ => cases htok; rfl
  | gated _ => cases htok; rfl
  | woken _ =>
    refine hv ?_ tok htok
    unfold RunView.wake at hterm
    split at hterm
    · cases hterm
    · exact hterm
  | revived _ _ => cases htok; rfl
  | _ => cases htok

/-! ## The token is at the cursor -/

def RunView.AtCursor (v : RunView) : Prop :=
  ∀ tok, v.token = some tok → tok.stageText = v.stage.value

theorem Move.atCursor (h : Move limit v l v') (hl : l ≠ .revived) (hv : v.AtCursor) :
    v'.AtCursor := by
  intro tok htok
  cases h with
  | quiet => exact hv tok htok
  | cancelled => exact hv tok (Option.filter_eq_some_iff.mp htok).1
  | held _ _ _ => exact hv tok htok
  | delayed carries => cases htok; exact (hv _ carries :)
  | offered carries _ => cases htok; exact (hv _ carries :)
  | assigned carries _ => cases htok; exact (hv _ carries :)
  | claimed carries => cases htok; exact (hv _ carries :)
  | requeued carries _ => cases htok; exact (hv _ carries :)
  | retried carries _ _ => cases htok; exact (hv _ carries :)
  | advanced _ _ => cases htok; rfl
  | resumed _ _ => cases htok; rfl
  | gated _ => cases htok; rfl
  | woken _ => exact absurd rfl hl
  | revived _ _ => exact absurd rfl hl
  | _ => cases htok

/-! ## A running run is carried by work -/

/-- A running run has engine work pending. -/
def RunView.Attended (v : RunView) : Prop :=
  v.status = .running → ∃ tok, v.token = some tok ∧ tok.isWork = true

/-- The ways a running run can lose its work: its job is given up, taken for a repetition, or
its gate is decided without a next step. -/
def Label.losesWork (status : PipelineRunStatus) : Label → Prop
  | exhausted => status = .running
  | dropped | stranded => True
  | _ => False

theorem isOpen_running {status : PipelineRunStatus} (h : status.isOpen = false) :
    status ≠ .running := by
  rintro rfl
  cases h

theorem Move.attended (h : Move limit v l v') (hl : ¬ l.losesWork v.status) (hretry : l ≠ .revived)
    (hv : v.Attended) : v'.Attended := by
  intro hrun
  cases h with
  | quiet => exact hv hrun
  | delayed _ => exact ⟨_, rfl, rfl⟩
  | offered _ _ => exact ⟨_, rfl, rfl⟩
  | assigned _ _ => exact ⟨_, rfl, rfl⟩
  | dropped _ _ => exact absurd trivial hl
  | retired _ closed => exact absurd hrun (isOpen_running closed)
  | exhausted _ => exact absurd hrun hl
  | claimed _ => exact ⟨_, rfl, rfl⟩
  | requeued _ _ => exact ⟨_, rfl, rfl⟩
  | retried _ _ _ => exact ⟨_, rfl, rfl⟩
  | advanced _ _ => exact ⟨_, rfl, rfl⟩
  | resumed _ _ => exact ⟨_, rfl, rfl⟩
  | stranded _ => exact absurd trivial hl
  | released carries =>
    -- a run at a gate is not running
    obtain ⟨tok, htok, hwork⟩ := hv hrun
    rw [carries] at htok
    cases htok
    cases hwork
  | woken _ => exact absurd rfl hretry
  | revived _ _ => exact ⟨_, rfl, rfl⟩
  | _ => cases hrun

/-! ## Attempts are the starts of a visit -/

/-- One visit of a worker stage, with the attempts started so far. -/
structure Visit where
  stage : ContentStage
  starts : Nat
deriving DecidableEq, Repr

/-- The count of a visit follows the starts, and a new stage begins a new visit. -/
def Visit.next (visit : Visit) (l : Label) (v' : RunView) : Visit :=
  match l with
  | .entered => ⟨v'.stage, 0⟩
  | .assigned | .claimed => { visit with starts := visit.starts + 1 }
  | _ => visit

/-- Every attempt number is accounted for by the starts of the visit, within the bound. -/
structure RunView.Counted (limit : ContentStage → Option Nat) (v : RunView) (visit : Visit)
    (m : Nat) :
    Prop where
  bound : limit visit.stage = some m
  starts : visit.starts ≤ m
  queued : ∀ job text attempt, v.token = some (.queued job text attempt) →
    text = visit.stage.value ∧ attempt = visit.starts ∧ attempt < m
  waiting : ∀ a stage attempt, v.token = some (.waiting a stage attempt) →
    stage = visit.stage ∧ attempt = visit.starts + 1 ∧ attempt ≤ m
  working : ∀ a stage attempt, v.token = some (.working a stage attempt) →
    stage = visit.stage ∧ attempt = visit.starts ∧ 1 ≤ attempt

theorem Visit.next_of_not_starts {visit : Visit} (hstart : l.starts = false) (hl : l ≠ .entered) :
    visit.next l v' = visit := by
  cases l <;> first | exact absurd rfl hl | rfl | cases hstart

/-- A run without a queued job or an assignment keeps its count. -/
theorem RunView.Counted.rest {visit : Visit} {m : Nat} (hv : v.Counted limit visit m)
    (hnone : ∀ tok, v'.token = some tok → ∃ gate stage, tok = .reviewing gate stage) :
    v'.Counted limit visit m where
  bound := hv.bound
  starts := hv.starts
  queued _ _ _ htok := by obtain ⟨_, _, h⟩ := hnone _ htok; cases h
  waiting _ _ _ htok := by obtain ⟨_, _, h⟩ := hnone _ htok; cases h
  working _ _ _ htok := by obtain ⟨_, _, h⟩ := hnone _ htok; cases h

/-- A stage entered has all its attempts ahead. -/
theorem RunView.Counted.enter {job m : Nat} {stage : ContentStage} (hbound : limit stage = some m)
    (hpos : 1 ≤ m) (htoken : v.token = some (.queued job stage.value 0)) :
    v.Counted limit ⟨stage, 0⟩ m where
  bound := hbound
  starts := Nat.zero_le m
  queued _ _ _ htok := by
    rw [htoken] at htok
    cases htok
    exact ⟨rfl, rfl, hpos⟩
  waiting _ _ _ htok := by
    rw [htoken] at htok
    cases htok
  working _ _ _ htok := by
    rw [htoken] at htok
    cases htok

/-- **Attempts are consumed by starts only**, when every stage allows one attempt and no job is
delayed or revived. -/
theorem Move.counted (hpos : ∀ stage m, limit stage = some m → 1 ≤ m) (h : Move limit v l v')
    (hl : l ≠ .revived ∧ l ≠ .delayed) {visit : Visit} {m : Nat} (hv : v.Counted limit visit m) :
    ∃ m', v'.Counted limit (visit.next l v') m' := by
  have hrest : (∀ tok, v'.token = some tok → ∃ gate stage, tok = .reviewing gate stage) →
      l.starts = false → l ≠ .entered → ∃ m', v'.Counted limit (visit.next l v') m' := by
    intro hnone hstart hentered
    rw [Visit.next_of_not_starts hstart hentered]
    exact ⟨m, hv.rest hnone⟩
  cases h with
  | quiet => exact ⟨m, hv⟩
  | held _ _ _ => exact ⟨m, ⟨hv.bound, hv.starts, hv.queued, hv.waiting, hv.working⟩⟩
  | cancelled live =>
    refine ⟨m, hv.bound, hv.starts, ?_, ?_, ?_⟩
    · intro job text attempt htok
      exact hv.queued _ _ _ (Option.filter_eq_some_iff.mp htok).1
    · intro a stage attempt htok
      have hgone := (Option.filter_eq_some_iff.mp htok).2
      cases hgone
    · intro a stage attempt htok
      have hgone := (Option.filter_eq_some_iff.mp htok).2
      cases hgone
  | delayed _ => exact absurd rfl hl.2
  | woken _ => exact absurd rfl hl.1
  | revived _ _ => exact absurd rfl hl.1
  | offered carries _ =>
    obtain ⟨hstage, hcount, hleft⟩ := hv.queued _ _ _ carries
    refine ⟨m, hv.bound, hv.starts, ?_, ?_, ?_⟩
    · intro _ _ _ htok; cases htok
    · intro _ _ _ htok
      cases htok
      exact ⟨ContentStage.value_injective hstage, by rw [hcount]; rfl, hleft⟩
    · intro _ _ _ htok; cases htok
  | assigned carries _ =>
    obtain ⟨hstage, hcount, hleft⟩ := hv.queued _ _ _ carries
    refine ⟨m, hv.bound, ?_, ?_, ?_, ?_⟩
    · rw [hcount] at hleft
      exact hleft
    · intro _ _ _ htok; cases htok
    · intro _ _ _ htok; cases htok
    · intro _ _ _ htok
      cases htok
      exact ⟨ContentStage.value_injective hstage, by rw [hcount]; rfl, by omega⟩
  | claimed carries =>
    obtain ⟨hstage, hcount, hleft⟩ := hv.waiting _ _ _ carries
    refine ⟨m, hv.bound, ?_, ?_, ?_, ?_⟩
    · rw [hcount] at hleft
      exact hleft
    · intro _ _ _ htok; cases htok
    · intro _ _ _ htok; cases htok
    · intro _ _ _ htok
      cases htok
      exact ⟨hstage, hcount, by omega⟩
  | requeued carries left =>
    obtain ⟨hstage, hcount, _⟩ := hv.working _ _ _ carries
    have hbound := left m (by rw [hstage]; exact hv.bound)
    refine ⟨m, hv.bound, hv.starts, ?_, ?_, ?_⟩
    · intro _ _ _ htok; cases htok
    · intro _ _ _ htok
      cases htok
      exact ⟨hstage, by rw [hcount]; rfl, hbound⟩
    · intro _ _ _ htok; cases htok
  | retried carries bound left =>
    obtain ⟨hstage, hcount, _⟩ := hv.working _ _ _ carries
    have hsame := hv.bound
    rw [← hstage, bound] at hsame
    cases hsame
    refine ⟨m, hv.bound, hv.starts, ?_, ?_, ?_⟩
    · intro _ _ _ htok
      cases htok
      exact ⟨by rw [hstage]; rfl, hcount, left⟩
    · intro _ _ _ htok; cases htok
    · intro _ _ _ htok; cases htok
  | advanced _ known =>
    obtain ⟨m', hbound⟩ := Option.isSome_iff_exists.mp known
    exact ⟨m', .enter hbound (hpos _ _ hbound) rfl⟩
  | resumed _ known =>
    obtain ⟨m', hbound⟩ := Option.isSome_iff_exists.mp known
    exact ⟨m', .enter hbound (hpos _ _ hbound) rfl⟩
  | gated _ =>
    refine hrest ?_ rfl (by simp)
    intro tok htok
    cases htok
    exact ⟨_, _, rfl⟩
  | _ => exact hrest (fun _ htok => by cases htok) rfl (by simp)

/-! ## Starts and visits, read off two views -/

/-- The assignment at work. -/
def RunView.atWork (v : RunView) : Option Nat :=
  v.token.bind fun
    | .working assignment _ _ => some assignment
    | _ => none

/-- The queued job, with its stage text and attempt. -/
def RunView.queuedJob (v : RunView) : Option (Nat × String × Nat) :=
  v.token.bind fun
    | .queued job text attempt => some (job, text, attempt)
    | _ => none

/-- The text of a stage whose first job the second view queues and the first did not. -/
def RunView.opens (v v' : RunView) : Option String :=
  match v'.queuedJob with
  | some (job, text, attempt) =>
    if attempt = 0 ∧ v.queuedJob.map (·.1) ≠ some job then some text else none
  | none => none

/-- An attempt starts exactly when an assignment is at work that was not at work before. -/
theorem Move.starts_eq (h : Move limit v l v') :
    l.starts = (v'.atWork.isSome && !decide (v'.atWork = v.atWork)) := by
  have hsame : ∀ x : Option Nat, (x.isSome && !decide (x = x)) = false := by simp
  cases h with
  | quiet => exact (hsame _).symm
  | held _ _ _ => exact (hsame _).symm
  | woken _ => exact (hsame _).symm
  | cancelled live =>
    obtain ⟨status, stage, d, token⟩ := v
    cases token with
    | none => rfl
    | some tok => cases tok <;> rfl
  | assigned carries _ => simp [RunView.atWork, Label.starts, carries]
  | claimed carries => simp [RunView.atWork, Label.starts, carries]
  | _ => rfl

theorem RunView.opens_self {u : RunView} (h : u.token = v.token) : v.opens u = none := by
  unfold opens queuedJob
  rw [h]
  split
  · rename_i job text attempt hjob
    rw [if_neg]
    rintro ⟨_, hnew⟩
    exact hnew (by rw [hjob]; rfl)
  · rfl

/-- A stage is opened exactly when it is entered: a failed attempt never queues a first job. -/
theorem Move.opens_eq (h : Move limit v l v') (hl : l ≠ .revived ∧ l ≠ .delayed) {visit : Visit}
    {m : Nat} (hv : v.Counted limit visit m) :
    v.opens v' = if l = .entered then some v'.stage.value else none := by
  cases h with
  | quiet => exact RunView.opens_self rfl
  | held _ _ _ => exact RunView.opens_self rfl
  | cancelled live =>
    obtain ⟨status, stage, d, token⟩ := v
    cases token with
    | none => rfl
    | some tok =>
      cases tok with
      | queued _ _ _ => exact RunView.opens_self rfl
      | _ => rfl
  | delayed _ => exact absurd rfl hl.2
  | woken _ => exact absurd rfl hl.1
  | revived _ _ => exact absurd rfl hl.1
  | @retried _ attempt _ _ _ carries _ _ =>
    -- the attempt that failed was counted
    obtain ⟨_, _, hone⟩ := hv.working _ _ _ carries
    have hpos : attempt ≠ 0 := by omega
    simp [RunView.opens, RunView.queuedJob, hpos]
  | advanced carries _ => simp [RunView.opens, RunView.queuedJob, carries]
  | resumed carries _ => simp [RunView.opens, RunView.queuedJob, carries]
  | _ => rfl

end ContentOrchestrator
