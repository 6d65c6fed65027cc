import ContentOrchestrator.Orchestration.ContentionCounts

/-! # The concurrency budget of a provider

A claim locks the budget row before it counts and keeps it until it commits, so claims
count one after the other. A tick passes no provider, looks at no budget, and stores
the row under the Draft Desk's name. -/

namespace ContentOrchestrator

open Lib

/-- Everything of the workspace under this provider. -/
def ofProvider (workspaceId : Nat) (provider : Option String) (w : Nat) (p : Option String) :
    Bool :=
  w == workspaceId && p == provider

/-- What the workspace has in flight under the provider. -/
def providerCount (db : Db) (workspaceId : Nat) (provider : Option String) : Nat :=
  db.assignments.count fun a => a.isInFlightIn workspaceId && a.provider == provider

def configuredBudget (db : Db) (workspaceId : Nat) (provider : String) :
    Option ProviderConcurrencyBudget :=
  (db.providerBudgets.select fun b => b.workspaceId == workspaceId && b.provider == provider).head?

/-- No provider has more in flight in a workspace than its budget there. -/
def Db.WithinBudgets (db : Db) : Prop :=
  ∀ workspaceId provider budget, configuredBudget db workspaceId provider = some budget →
    providerCount db workspaceId (some provider) ≤ budget.maxConcurrent

/-- What a claim that was let in has yet to put in flight. -/
def Contender.awaited (db : Db) (f : Nat → Option String → Bool) : Contender → Nat
  | tick _ => 0
  | claim c =>
    match c.point with
    | .reserve row => (f row.workspaceId row.provider).toNat
    | _ => Contender.places db f (.claim c)

/-- What the claims besides one transaction have yet to put in flight. -/
def awaitedBeside (w : World Db RowLock Contender) (id : Nat) (f : Nat → Option String → Bool) :
    Nat :=
  w.running.total fun y => if y.id == id then 0 else y.locals.awaited w.store f

/-- What a commit places, nobody having looked at this budget, fits into it, also with what is
awaited. -/
def Contender.fits (db : Db) (b : ProviderConcurrencyBudget) (awaited : Nat) (x : Contender) :
    Bool :=
  let f := ofProvider b.workspaceId (some b.provider)
  match x with
  | tick t => decide (x.places db f = 0) || decide (t.load db f + awaited ≤ b.maxConcurrent)
  -- a claim has looked, unless the provider is blank
  | claim _ => !b.provider.isEmpty || decide (x.places db f = 0) ||
      decide (providerCount db b.workspaceId (some b.provider) + x.places db f ≤ b.maxConcurrent)

/-- The condition on a step: a commit fits into every budget that its transaction has not looked
at. -/
def fitsBudgets (w : World Db RowLock Contender) : Action ContenderRequest BackgroundOp → Bool
  | .commit id =>
    (w.running.get? id).all fun x => w.store.providerBudgets.rows.all fun b =>
      x.locals.fits w.store b (awaitedBeside w id (ofProvider b.workspaceId (some b.provider)))
  | a => fixedQuotas w a

variable {db : Db}

theorem providerCount_eq {workspaceId : Nat} {provider : Option String} :
    providerCount db workspaceId provider =
      db.assignments.count (flightOf (ofProvider workspaceId provider)) := by
  refine Table.count_congr fun a _ => ?_
  unfold StageAssignment.isInFlightIn flightOf ofProvider
  rw [Bool.and_comm (a.workspaceId == workspaceId), Bool.and_assoc]

/-! ## Budgets -/

theorem configuredBudget_some {workspaceId : Nat} {provider : String}
    {budget : ProviderConcurrencyBudget}
    (h : configuredBudget db workspaceId provider = some budget) :
    budget ∈ db.providerBudgets ∧ budget.workspaceId = workspaceId ∧
      budget.provider = provider := by
  obtain ⟨hmem, hof⟩ := Table.mem_select.mp (List.mem_of_mem_head? h)
  simp only [Bool.and_eq_true, beq_iff_eq] at hof
  exact ⟨hmem, hof⟩

theorem configuredBudget_rows {s t : Db} (h : t.providerBudgets.rows = s.providerBudgets.rows)
    (workspaceId : Nat) (provider : String) :
    configuredBudget t workspaceId provider = configuredBudget s workspaceId provider := by
  unfold configuredBudget Table.select
  rw [h]

theorem OwnWrites.apply_budgets (db : Db) (o : OwnWrites) :
    (o.apply db).providerBudgets.rows = db.providerBudgets.rows :=
  congrArg (·.providerBudgets.rows) o.apply_config

/-- A provider that has a name is looked up. -/
theorem budgetOf_some {workspaceId : Nat} {provider : String} (hnamed : provider.isEmpty = false) :
    budgetOf db workspaceId (some provider) = configuredBudget db workspaceId provider := by
  rw [budgetOf, Option.bind_some, hnamed]
  rfl

/-- What a claim learns from its count. -/
theorem hasProviderCapacity_room {workspaceId : Nat} {provider : Option String}
    (h : hasProviderCapacity db workspaceId provider = true) {budget : ProviderConcurrencyBudget}
    (hbudget : budgetOf db workspaceId provider = some budget) :
    providerCount db workspaceId provider + 1 ≤ budget.maxConcurrent := by
  cases provider with
  | none => cases hbudget
  | some p =>
    rw [budgetOf, Option.bind_some] at hbudget
    unfold hasProviderCapacity at h
    dsimp only at h
    split at hbudget
    · cases hbudget
    · rename_i hnamed
      rw [if_neg hnamed, hbudget] at h
      exact of_decide_eq_true h

/-! ## What a claim has been let in for -/

/-- The claim may place the row: it holds the budget, and there is room. -/
def LetIn (db : Db) (held : List RowLock) (row : StageAssignment) : Prop :=
  ∀ budget, budgetOf db row.workspaceId row.provider = some budget →
    .budget budget.id ∈ held ∧ providerCount db row.workspaceId row.provider + 1 ≤
      budget.maxConcurrent

def Claiming.Budgeted (db : Db) (held : List RowLock) (c : Claiming) : Prop :=
  match c.point with
  | .count _ row _ => ∀ budget, budgetOf db row.workspaceId row.provider = some budget →
      .budget budget.id ∈ held
  | .reserve row => LetIn db held row
  | .done _ => ∀ g, c.own.granted = some g → ∃ row, row.id = g.assignmentId ∧ RowKept db held row ∧
      LetIn db held row
  | _ => True

def Contender.Budgeted (db : Db) (held : List RowLock) (x : Contender) : Prop :=
  x.Shaped ∧ x.Relied db held ∧
    match x with
    | tick _ => True
    | claim c => c.Budgeted db held

theorem ClaimMove.keepsBudgeted {c c' : Claiming} {taken : RowLock → Bool}
    {held held' : List RowLock} (h : ClaimMove db taken held c held' c')
    (hshaped : (Contender.claim c).Shaped) (hrelies : c.Relies db held)
    (hbudgeted : c.Budgeted db held) : c'.Budgeted db held' := by
  have hungranted : (∀ r, c.point ≠ .done r) → ∀ g, c.own.granted ≠ some g := by
    intro hpoint g hg
    rw [hshaped.2.2.1 hpoint] at hg
    cases hg
  cases h with
  | ended nothing ungranted => exact fun g hg => absurd hg (hungranted ungranted g)
  | replayed point _ => exact fun g hg => absurd hg (hungranted (by simp [point]) g)
  | registered _ _ => trivial
  | searching _ _ => trivial
  | chosen _ _ => trivial
  | skipped _ => trivial
  | unbudgeted _ unbudgeted =>
    intro budget hbudget
    rw [unbudgeted] at hbudget
    cases hbudget
  | budgeted _ budgeted =>
    intro budget hbudget
    rw [budgeted] at hbudget
    cases hbudget
    exact List.mem_cons_self
  | admitted point room =>
    simp only [Claiming.Budgeted, point] at hbudgeted
    exact fun budget hbudget => ⟨hbudgeted budget hbudget, hasProviderCapacity_room room hbudget⟩
  | settled point =>
    rename_i row
    simp only [Claiming.Budgeted, point] at hbudgeted
    simp only [Claiming.Relies, point] at hrelies
    obtain ⟨quiet, heq | heq⟩ := c.settleSpend_cases db row
    · rw [heq]
      exact fun g hg => absurd hg (hungranted (by simp [point]) g)
    · rw [heq]
      intro g hg
      cases hg
      exact ⟨row, rfl, hrelies.2, hbudgeted⟩

/-! ## Commits -/

/-- What a claim's commit places, it has been let in for. -/
theorem Claiming.places_letIn {c : Claiming} {held : List RowLock} {f : Nat → Option String → Bool}
    (hshaped : (Contender.claim c).Shaped) (hbudgeted : c.Budgeted db held)
    (hplaces : Contender.places db f (.claim c) ≠ 0) :
    Contender.places db f (.claim c) = 1 ∧ ∃ row, f row.workspaceId row.provider = true ∧
      LetIn db held row := by
  cases hgranted : c.own.granted with
  | none => simp [Contender.places, hgranted] at hplaces
  | some g =>
    obtain ⟨now, lease, hupdate⟩ := hshaped.2.2.2 g hgranted
    have hdone : ∃ row, row.id = g.assignmentId ∧ RowKept db held row ∧ LetIn db held row := by
      unfold Claiming.Budgeted at hbudgeted
      split at hbudgeted
      case h_3 => exact hbudgeted g hgranted
      all_goals
        rename_i hpoint
        have hnone : c.own.granted = none := hshaped.2.2.1 fun r hr => by simp_all
        rw [hnone] at hgranted
        cases hgranted
    obtain ⟨row, hid, hkept, hletIn⟩ := hdone
    have hstored := hkept.stored
    rw [hid] at hstored
    have hrow : flightOf f (g.update.apply row) = f row.workspaceId row.provider := by
      rw [hupdate]
      exact Bool.true_and _
    simp only [Contender.places, hgranted, hstored, Option.elim_some, hrow] at hplaces ⊢
    cases hf : f row.workspaceId row.provider with
    | false =>
      rw [hf] at hplaces
      exact absurd rfl hplaces
    | true => exact ⟨rfl, row, hf, hletIn⟩

theorem ofProvider_self {row : StageAssignment} :
    ofProvider row.workspaceId row.provider row.workspaceId row.provider = true := by
  simp [ofProvider]

theorem ofProvider_eq {workspaceId : Nat} {provider : Option String} {row : StageAssignment}
    (h : ofProvider workspaceId provider row.workspaceId row.provider = true) :
    row.workspaceId = workspaceId ∧ row.provider = provider := by
  simpa [ofProvider] using h

theorem providerCount_commit (db : Db) {x : Contender} (hshaped : x.Shaped) (workspaceId : Nat)
    (provider : Option String) :
    providerCount (x.own.apply db) workspaceId provider ≤
      providerCount db workspaceId provider + x.places db (ofProvider workspaceId provider) := by
  have hall := commit_count_le db hshaped (ofProvider workspaceId provider) fun _ => true
  have hids : flightAmong (ofProvider workspaceId provider) (fun _ => true) =
      flightOf (ofProvider workspaceId provider) := funext fun _ => Bool.and_true _
  rw [hids] at hall
  rw [providerCount_eq, providerCount_eq]
  exact hall

/-- A commit that fits leaves room for what is awaited. -/
theorem commit_fits {x : Contender} (hshaped : x.Shaped) {b : ProviderConcurrencyBudget}
    {awaited : Nat} (hfits : x.fits db b awaited = true)
    (hunlooked : ∀ c, x = .claim c → b.provider.isEmpty = true)
    (hplaces : x.places db (ofProvider b.workspaceId (some b.provider)) ≠ 0) :
    providerCount (x.own.apply db) b.workspaceId (some b.provider) ≤ b.maxConcurrent ∧
      ∀ t, x = .tick t →
        providerCount (x.own.apply db) b.workspaceId (some b.provider) + awaited ≤
          b.maxConcurrent := by
  cases x with
  | tick t =>
    have hload : t.load db (ofProvider b.workspaceId (some b.provider)) + awaited ≤
        b.maxConcurrent := by
      simpa [Contender.fits, hplaces] using hfits
    have hview : providerCount (t.own.apply db) b.workspaceId (some b.provider) =
        t.load db (ofProvider b.workspaceId (some b.provider)) := by
      rw [providerCount_eq, Tick.view_count hshaped]
    show providerCount (t.own.apply db) _ _ ≤ _ ∧ ∀ _, _ →
      providerCount (t.own.apply db) _ _ + _ ≤ _
    rw [hview]
    exact ⟨by omega, fun _ _ => hload⟩
  | claim c =>
    have hroom : providerCount db b.workspaceId (some b.provider) +
        Contender.places db (ofProvider b.workspaceId (some b.provider)) (.claim c) ≤
          b.maxConcurrent := by
      simpa [Contender.fits, hplaces, hunlooked c rfl] using hfits
    exact ⟨(providerCount_commit db hshaped _ _).trans hroom, fun _ h => by cases h⟩

/-- **A commit stays within the budgets**: a claim by its count, a tick because it fits. -/
theorem commit_withinBudgets {x : Contender} {held : List RowLock} (hbudgeted : x.Budgeted db held)
    (hwithin : db.WithinBudgets) {awaited : ProviderConcurrencyBudget → Nat}
    (hfits : ∀ b ∈ db.providerBudgets, x.fits db b (awaited b) = true) :
    (x.own.apply db).WithinBudgets := by
  intro workspaceId provider budget hconfigured
  rw [configuredBudget_rows (x.own.apply_budgets db)] at hconfigured
  have hbefore := hwithin workspaceId provider budget hconfigured
  obtain ⟨hmem, hworkspace, hprovider⟩ := configuredBudget_some hconfigured
  by_cases hplaces : x.places db (ofProvider workspaceId (some provider)) = 0
  · have hcommit := providerCount_commit db hbudgeted.1 workspaceId (some provider)
    omega
  · subst hworkspace hprovider
    by_cases hlooked : ∃ c, x = .claim c ∧ budget.provider.isEmpty = false
    · obtain ⟨c, rfl, hnamed⟩ := hlooked
      obtain ⟨hone, row, hrow, hletIn⟩ := Claiming.places_letIn hbudgeted.1 hbudgeted.2.2 hplaces
      obtain ⟨hrowWorkspace, hrowProvider⟩ := ofProvider_eq hrow
      have hroom :=
        (hletIn budget (by rw [hrowWorkspace, hrowProvider, budgetOf_some hnamed, hconfigured])).2
      rw [hrowWorkspace, hrowProvider] at hroom
      have hcommit := providerCount_commit db hbudgeted.1 budget.workspaceId (some budget.provider)
      rw [hone] at hcommit
      exact hcommit.trans hroom
    · refine (commit_fits hbudgeted.1 (hfits budget hmem) (fun c heq => ?_) hplaces).1
      cases hblank : budget.provider.isEmpty with
      | true => rfl
      | false => exact absurd ⟨c, heq, hblank⟩ hlooked

theorem LetIn.of_count {s t : Db} {held : List RowLock} {row : StageAssignment}
    (h : LetIn s held row) (hbudgets : t.providerBudgets.rows = s.providerBudgets.rows)
    (hcount : ∀ budget, budgetOf s row.workspaceId row.provider = some budget →
      .budget budget.id ∈ held →
        providerCount t row.workspaceId row.provider + 1 ≤ budget.maxConcurrent) :
    LetIn t held row := by
  intro budget hbudget
  rw [budgetOf_rows hbudgets] at hbudget
  have hlocked := (h budget hbudget).1
  exact ⟨hlocked, hcount budget hbudget hlocked⟩

/-- **Another commit leaves a claim the room it was let in for**: another claim would have had to
hold the same budget, and a tick fits. -/
theorem LetIn.commit {x : Contender} {held heldBy : List RowLock} {row : StageAssignment}
    (h : LetIn db held row) (hx : x.Budgeted db heldBy) (hexclusive : ∀ k ∈ held, k ∉ heldBy)
    {awaited : ProviderConcurrencyBudget →
    Nat} (hfits : ∀ b ∈ db.providerBudgets, x.fits db b (awaited b) = true)
      (hawaited : ∀ b : ProviderConcurrencyBudget,
      ofProvider b.workspaceId (some b.provider) row.workspaceId row.provider = true →
        1 ≤ awaited b) :
    LetIn (x.own.apply db) held row := by
  refine h.of_count (x.own.apply_budgets db) fun budget hbudget hlocked => ?_
  have hbefore := (h budget hbudget).2
  by_cases hplaces : x.places db (ofProvider row.workspaceId row.provider) = 0
  · have hcommit := providerCount_commit db hx.1 row.workspaceId row.provider
    omega
  · cases x with
    | claim c =>
      obtain ⟨_, row', hrow', hletIn⟩ := Claiming.places_letIn hx.1 hx.2.2 hplaces
      obtain ⟨hworkspace, hprovider⟩ := ofProvider_eq hrow'
      have hsame := (hletIn budget (by rw [hworkspace, hprovider, hbudget])).1
      exact absurd hsame (hexclusive _ hlocked)
    | tick t =>
      cases hprovider : row.provider with
      | none =>
        rw [hprovider] at hbudget
        cases hbudget
      | some p =>
        rw [hprovider] at hbudget hplaces
        have hconfigured : configuredBudget db row.workspaceId p = some budget := by
          cases hnamed : p.isEmpty with
          | false => rw [← budgetOf_some hnamed, hbudget]
          | true =>
            rw [budgetOf, Option.bind_some, hnamed] at hbudget
            cases hbudget
        obtain ⟨hmem, hbudgetWorkspace, hbudgetProvider⟩ := configuredBudget_some hconfigured
        rw [← hbudgetWorkspace, ← hbudgetProvider] at hplaces ⊢
        have hone := hawaited budget
            (by rw [hbudgetWorkspace, hbudgetProvider, ← hprovider, ofProvider_self])
        have hroom :=
          (commit_fits hx.1 (hfits budget hmem) (fun _ heq => by cases heq) hplaces).2 t rfl
        omega

theorem providerCount_background (db : Db) {op : Op} (hop : op.isBackground = true)
    (workspaceId : Nat) (provider : Option String) :
    providerCount (step db op) workspaceId provider ≤
      providerCount db workspaceId provider := by
  have hall : (step db op).assignments.count
      (flightAmong (ofProvider workspaceId provider) fun _ => true) ≤ _ :=
    background_count_le hop _
  have hids : flightAmong (ofProvider workspaceId provider) (fun _ => true) =
      flightOf (ofProvider workspaceId provider) := funext fun _ => Bool.and_true _
  rw [hids, ← providerCount_eq, ← providerCount_eq] at hall
  exact hall

theorem LetIn.background {held : List RowLock} {row : StageAssignment} {op : Op}
    (h : LetIn db held row) (hop : op.isBackground = true) (hkeeps : keepsQuotas db op = true) :
    LetIn (step db op) held row := by
  refine h.of_count (background_quotas hop hkeeps).2 fun budget hbudget _ => ?_
  have hless := providerCount_background db hop row.workspaceId row.provider
  have hbefore := (h budget hbudget).2
  omega

theorem Claiming.Budgeted.mono {s t : Db} {c : Claiming} {held : List RowLock}
    (h : c.Budgeted s held) (hbudgets : t.providerBudgets.rows = s.providerBudgets.rows)
    (hkept : ∀ row, RowKept s held row → RowKept t held row)
    (hletIn : ∀ row, (c.point = .reserve row ∨ ∃ g r, c.point = .done r ∧ c.own.granted = some g ∧
      row.id = g.assignmentId ∧ RowKept s held row) → LetIn s held row → LetIn t held row) :
    c.Budgeted t held := by
  unfold Claiming.Budgeted at h ⊢
  split at h
  · intro budget hbudget
    rw [budgetOf_rows hbudgets] at hbudget
    exact h budget hbudget
  · rename_i row hpoint
    exact hletIn row (.inl hpoint) h
  · rename_i r hpoint
    intro g hg
    obtain ⟨row, hid, hrow, hroom⟩ := h g hg
    exact ⟨row, hid, hkept row hrow, hletIn row (.inr ⟨g, r, hpoint, hg, hid, hrow⟩) hroom⟩
  · trivial

/-- The claim whose row fits the budget is awaited. -/
theorem Claiming.one_le_awaited {c : Claiming} {held : List RowLock} {row : StageAssignment}
    {f : Nat → Option String → Bool} (hshaped : (Contender.claim c).Shaped)
    (hat : c.point = .reserve row ∨ ∃ g r, c.point = .done r ∧ c.own.granted = some g ∧
      row.id = g.assignmentId ∧ RowKept db held row)
    (hf : f row.workspaceId row.provider = true) : 1 ≤ Contender.awaited db f (.claim c) := by
  rcases hat with hreserve | ⟨g, r, hdone, hgranted, hid, hkept⟩
  · rw [Contender.awaited, hreserve]
    simp [hf]
  · obtain ⟨now, lease, hupdate⟩ := hshaped.2.2.2 g hgranted
    have hstored := hkept.stored
    rw [hid] at hstored
    have hrow : flightOf f (g.update.apply row) = true := by
      rw [hupdate]
      exact (Bool.true_and _).trans hf
    simp [Contender.awaited, hdone, Contender.places, hgranted, hstored, hrow]

/-! ## Every interleaving -/

theorem budgets_outline :
    Outline contention (fun w a => fitsBudgets w a = true) Db.WithinBudgets Contender.Budgeted where
  starts := by
    intro w request _ _
    obtain ⟨hshaped, hrelied⟩ := contention_start_relied w.store request
    refine ⟨hshaped, hrelied, ?_⟩
    cases request <;> trivial
  runs := by
    intro w x held locals hw hx _ hnext _
    obtain ⟨hshaped, hrelied, hbudgeted⟩ := hw.running x hx
    refine ⟨contention_next_shaped hnext hshaped, contention_next_relied hnext hshaped hrelied, ?_⟩
    generalize x.locals = contender at hshaped hrelied hbudgeted hnext
    cases contender with
    | tick t =>
      obtain ⟨⟨held', t'⟩, _, heq⟩ := Option.map_eq_some_iff.mp hnext
      cases heq
      trivial
    | claim c =>
      obtain ⟨⟨held', c'⟩, hstep, heq⟩ := Option.map_eq_some_iff.mp hnext
      cases heq
      exact (Claiming.next_move hstep).keepsBudgeted hshaped hrelied.2 hbudgeted
  commits := by
    intro w x u hw hx hok hcommit
    have hbudgeted := hw.running x hx
    have hfound : w.running.get? x.id = some x := Table.get?_of_mem hx
    have hfits : ∀ b ∈ w.store.providerBudgets, x.locals.fits w.store b
        (awaitedBeside w x.id (ofProvider b.workspaceId (some b.provider))) = true := by
      simp only [fitsBudgets, hfound, Option.all_some, List.all_eq_true] at hok
      exact hok
    rw [contention_commit hcommit]
    refine ⟨commit_withinBudgets hbudgeted hw.store hfits, fun y hy hne => ?_⟩
    have hexclusive := hw.exclusive y hy x hx hne
    obtain ⟨hshaped, hrelied, hletIn⟩ := hw.running y hy
    refine ⟨hshaped, hrelied.commit hbudgeted.2.1 hexclusive, ?_⟩
    cases hlocals : y.locals with
    | tick t => trivial
    | claim c =>
      rw [hlocals] at hshaped hletIn
      refine Claiming.Budgeted.mono hletIn (x.locals.own.apply_budgets w.store)
        (fun row hrow => hrow.commit hbudgeted.2.1.1 hexclusive) fun row hat hroom => ?_
      refine hroom.commit hbudgeted hexclusive hfits fun b hb => ?_
      have hone := Claiming.one_le_awaited hshaped hat hb
      have hsum := Table.le_total hy fun z => if z.id == x.id then 0 else
        z.locals.awaited w.store (ofProvider b.workspaceId (some b.provider))
      rw [if_neg (by simpa using hne), hlocals] at hsum
      exact hone.trans hsum
  others := by
    intro w event hw hok hfree
    have hquotas := background_quotas event.2 hok
    refine ⟨?_, fun y hy => ?_⟩
    · intro workspaceId provider budget hconfigured
      have hconfigured' : configuredBudget (step w.store event.val) workspaceId provider =
          some budget := hconfigured
      rw [configuredBudget_rows hquotas.2] at hconfigured'
      exact (providerCount_background w.store event.2 workspaceId (some provider)).trans
        (hw.store workspaceId provider budget hconfigured')
    · obtain ⟨hshaped, hrelied, hletIn⟩ := hw.running y hy
      have hyfree : ∀ k ∈ lockedBy w.store event.val, k ∉ y.held := hfree y hy
      refine ⟨hshaped, hrelied.background event.2 hyfree, ?_⟩
      cases hlocals : y.locals with
      | tick t => trivial
      | claim c =>
        rw [hlocals] at hletIn
        exact Claiming.Budgeted.mono hletIn hquotas.2 (fun row hrow =>
          hrow.background event.2 hyfree)
          fun row _ hroom => hroom.background event.2 hok

/-- **Provider budget**: in every interleaving in which no scheduler dispatch is committed into a
budget that is full, or filled by a claim let in before, no provider has more in flight than its
budget. -/
theorem budgets_kept {db : Db} (hstart : db.WithinBudgets) {w : World Db RowLock Contender}
    (h : Reach contention.Steps (fun w a => fitsBudgets w a = true) { store := db } w) :
    w.store.WithinBudgets :=
  (budgets_outline.sound (.idle hstart) h).store

/-! ## A budget of one -/

def budgetedDb : Db :=
  { demoDb with
    providerBudgets := oneRow (fun id =>
      { id, workspaceId := 0, provider := draftDeskProvider, maxConcurrent := 1 })
      fun _ => rfl }

theorem budgetedDb_withinBudgets : budgetedDb.WithinBudgets := by
  intro workspaceId provider budget _
  have hnone : providerCount budgetedDb workspaceId (some provider) = 0 := rfl
  rw [hnone]
  exact Nat.zero_le _

/-- The first claim fills the budget, and the second is told so. -/
theorem budgets_kept_two_claims :
    (replay contention.step { store := budgetedDb }
        (waitingRuns ++ firstClaim ++ secondClaim none)).store.WithinBudgets ∧
      providerCount (replay contention.step { store := budgetedDb }
        (waitingRuns ++ firstClaim ++ secondClaim none)).store 0 (some draftDeskProvider) = 1 := by
  have hadmits : admits contention.step fitsBudgets { store := budgetedDb }
      (waitingRuns ++ firstClaim ++ secondClaim none) = true := by decide +kernel
  exact ⟨budgets_kept budgetedDb_withinBudgets (reach_replay _ _ hadmits), by decide +kernel⟩

/-- Two runs are started, and one tick dispatches both. -/
def dispatchedRuns : List (Action ContenderRequest BackgroundOp) :=
  [.other startFirst, .other startFirst, .start (.tick 10 0)] ++
    List.replicate 13 (.run 0) ++ [.commit 0]

/-- The tick fills the budget twice. -/
theorem dispatch_exceeds_budget :
    ¬ ∀ (db : Db) (w : World Db RowLock Contender), db.WithinBudgets →
        Reach contention.Steps (fun w a => fixedQuotas w a = true) { store := db } w →
          w.store.WithinBudgets := by
  intro h
  have hadmits : admits contention.step fixedQuotas { store := budgetedDb } dispatchedRuns =
      true := by
    decide +kernel
  have hwithin :=
    h budgetedDb _ budgetedDb_withinBudgets (reach_replay _ _ hadmits) 0 draftDeskProvider
  have hbudget : configuredBudget
      (replay contention.step { store := budgetedDb } dispatchedRuns).store 0
      draftDeskProvider = some ⟨0, 0, draftDeskProvider, 1⟩ := by decide +kernel
  have hcount : providerCount (replay contention.step { store := budgetedDb } dispatchedRuns).store
      0
      (some draftDeskProvider) = 2 := by decide +kernel
  have hover := hwithin _ hbudget
  rw [hcount] at hover
  have hmax : ¬ 2 ≤ 1 := by omega
  exact hmax hover

end ContentOrchestrator
