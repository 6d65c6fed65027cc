import ContentOrchestrator.DeskSystem
import ContentOrchestrator.Services.Fingerprints

/-! # Repeated scripts

Two scripts with the same words have one fingerprint exactly when equally many empty
parts stand between each word and the next; only then does the gate recognise the
second as a repetition of the first. -/

namespace ContentOrchestrator

open Lib

/-- The attestations of the item for the platform carry the fingerprint of the script. -/
def Desk.CarriesScript (d : Desk) (lower sha256 : String → String) (workspaceId contentItemId : Nat)
    (platform : Option String) (parts : List (Option String)) : Prop :=
  ∀ row ∈ d.eligibility, row.isFor workspaceId contentItemId (normalizePlatform platform) = true →
    ∃ fingerprint, fingerprintScript lower sha256 parts = .ok fingerprint ∧
      row.originalityFingerprint = some fingerprint

/-- Of two items with one fingerprint for one platform not both are published. -/
theorem repeated_refused {d : Desk} {lower sha256 : String → String}
    {workspaceId first second : Nat} {platform platform' : Option String}
    {p q : List (Option String)} (hne : first ≠ second)
    (hplatform : normalizePlatform platform = normalizePlatform platform')
    (hfirst : d.CarriesScript lower sha256 workspaceId first platform p)
    (hsecond : d.CarriesScript lower sha256 workspaceId second platform' q)
    (hsame : fingerprintScript lower sha256 p = fingerprintScript lower sha256 q)
    {decision decision' : PublicationDecision}
    (h : assertPublishable d workspaceId first platform = .ok decision)
    (h' : assertPublishable d workspaceId second platform' = .ok decision') : False := by
  obtain ⟨-, row, -, hrow, -, hattested, -, -⟩ := assertPublishable_ok.mp h
  obtain ⟨-, row', -, hrow', -, -, -, -⟩ := assertPublishable_ok.mp h'
  obtain ⟨hmem, hfor⟩ := Table.mem_select.mp (hrow ▸ List.mem_singleton_self row)
  obtain ⟨hmem', hfor'⟩ := Table.mem_select.mp (hrow' ▸ List.mem_singleton_self row')
  obtain ⟨fingerprint, hp, hcarried⟩ := hfirst row hmem hfor
  obtain ⟨fingerprint', hq, hcarried'⟩ := hsecond row' hmem' hfor'
  have hequal : fingerprint = fingerprint' := by
    rw [hp, hq] at hsame
    exact Except.ok.inj hsame
  have horiginal : row.repeats row' = false := Table.select_eq_nil.mp hattested.original row' hmem'
  simp only [PublicationEligibility.isFor, Bool.and_eq_true, beq_iff_eq] at hfor hfor'
  obtain ⟨⟨hws, hitem⟩, hon⟩ := hfor
  obtain ⟨⟨hws', hitem'⟩, hon'⟩ := hfor'
  have hrepeats : row.repeats row' = true := by
    simp [PublicationEligibility.repeats, hws, hws', hitem, hitem', hon, hon', hplatform, hcarried,
      hcarried', hequal, Ne.symm hne]
  rw [horiginal] at hrepeats
  cases hrepeats

/-- **Repetition is recognised exactly where the empty parts agree.** -/
theorem repetition_recognised_iff (lower sha256 : String → String)
    (hsha : Function.Injective sha256) (p q : List (Option String)) (hp : scriptWords lower p ≠ [])
    (hq : scriptWords lower q ≠ []) :
    ((fingerprintScript lower sha256 p = fingerprintScript lower sha256 q ↔
        scriptWords lower p = scriptWords lower q) ∧
      (scriptWords lower p = scriptWords lower q →
        ∀ (d : Desk) (workspaceId first second : Nat) (platform platform' : Option String), first ≠
          second →
          normalizePlatform platform = normalizePlatform platform' →
          d.CarriesScript lower sha256 workspaceId first platform p →
          d.CarriesScript lower sha256 workspaceId second platform' q →
            ¬ ((∃ decision, assertPublishable d workspaceId first platform = .ok decision) ∧
              ∃ decision, assertPublishable d workspaceId second platform' = .ok decision))) ↔
    (scriptWords lower p = scriptWords lower q → scriptGaps lower p = scriptGaps lower q) := by
  have hiff : fingerprintScript lower sha256 p = fingerprintScript lower sha256 q ↔
      scriptWords lower p = scriptWords lower q ∧ scriptGaps lower p = scriptGaps lower q :=
    fingerprintScript_eq_iff hsha hp hq
  constructor
  · rintro ⟨hwords, -⟩ hsame
    exact (hiff.mp (hwords.mpr hsame)).2
  · intro hgaps
    refine ⟨⟨fun h => (hiff.mp h).1, fun h => hiff.mpr ⟨h, hgaps h⟩⟩, ?_⟩
    rintro hsame d workspaceId first second platform platform' hne hplatform hfirst hsecond ⟨⟨_, h⟩,
      _, h'⟩
    exact repeated_refused hne hplatform hfirst hsecond (hiff.mpr ⟨hsame, hgaps hsame⟩) h h'

/-! ## An empty body -/

/-- `str.lower` on the scripts below. -/
def lowerText (text : String) : String := String.ofList (text.toList.map lowerChar)

/-- Hook and call to action with nothing between them. -/
def withoutBody : List (Option String) := [some "Buy now", none, some "Today"]

/-- The same words with one of them in the body. -/
def withBody : List (Option String) := [some "buy", some "now", some "today"]

theorem repetition_recognised_cased :
    scriptWords lowerText [some " Buy  NOW", some "today"] = scriptWords lowerText withBody ∧
      fingerprintScript lowerText id [some " Buy  NOW", some "today"] =
        fingerprintScript lowerText id withBody := by
  have hwords : scriptWords lowerText [some " Buy  NOW", some "today"] =
      scriptWords lowerText withBody := by
    decide +kernel
  exact ⟨hwords, ((repetition_recognised_iff lowerText id Function.injective_id
    [some " Buy  NOW", some "today"] withBody (by decide +kernel) (by decide +kernel)).mpr
      (fun _ => by decide +kernel)).1.mpr hwords⟩

def twoRows {α : Type} [Keyed α] (first second : NewRow α) : Table α :=
  (∅ : Table α).insert first |>.insert second

def preparedItem (versionId : Nat) : NewRow ContentItem :=
  ⟨fun id => { id, workspaceId := 0, currentVersionId := some versionId }, fun _ => rfl⟩

def preparedRun (itemId : Nat) : NewRow PipelineRun :=
  ⟨fun id => { id, workspaceId := 0, contentItemId := itemId }, fun _ => rfl⟩

def approvedGate (runId : Nat) : NewRow ReviewGate :=
  ⟨fun id => { id, workspaceId := 0, pipelineRunId := runId, contentVersionId := some runId
               stage := .review
               status := .approved, requestedAt := 0, timeoutAt := none }, fun _ => rfl⟩

def preparedRow (itemId : Nat) (fingerprint : String) : NewRow PublicationEligibility :=
  ⟨fun id => { attestationRow 0 itemId itemId id with originalityFingerprint := some fingerprint },
    fun _ => rfl⟩

/-- Two approved items prepared for one platform, with these fingerprints. -/
def twoPrepared (fingerprint fingerprint' : String) : Desk where
  db :=
    { contentItems := twoRows (preparedItem 0) (preparedItem 1)
      runs := twoRows (preparedRun 0) (preparedRun 1)
      gates := twoRows (approvedGate 0) (approvedGate 1) }
  eligibility := twoRows (preparedRow 0 fingerprint) (preparedRow 1 fingerprint')

theorem fingerprintScript_of_text {lower sha256 : String → String} {parts : List (Option String)}
    (text : List Char)
    (htext : strip (join (parts.map fun part => join (partWords lower part))) = text)
    (hne : text ≠ []) :
    fingerprintScript lower sha256 parts = .ok (sha256 (String.ofList text)) := by
  simp only [fingerprintScript]
  rw [htext, if_neg hne]

theorem twoPrepared_approves (itemId : Nat) (h : itemId = 0 ∨ itemId = 1) (f g : String) :
    Approves (twoPrepared f g).db 0 itemId ((approvedGate itemId).make itemId) := by
  rcases h with rfl | rfl
  · exact ⟨rfl, rfl, rfl, ⟨_, rfl, rfl, rfl⟩, ⟨_, rfl, rfl, Option.some_ne_none 0, rfl⟩⟩
  · exact ⟨rfl, rfl, rfl, ⟨_, rfl, rfl, rfl⟩, ⟨_, rfl, rfl, Option.some_ne_none 1, rfl⟩⟩

theorem twoPrepared_rows (f g : String) :
    (twoPrepared f g).eligibility.rows = [(preparedRow 0 f).make 0, (preparedRow 1 g).make 1] := rfl

/-- With different fingerprints both are published. -/
theorem twoPrepared_published {f g : String} (hf : f ≠ "") (hg : g ≠ "") (hne : f ≠ g) :
    assertPublishable (twoPrepared f g) 0 0 (some "youtube") = .ok ⟨0, "youtube", 0, 0⟩ ∧
      assertPublishable (twoPrepared f g) 0 1 (some " YouTube") = .ok ⟨1, "youtube", 1, 1⟩ := by
  have hplatform : normalizePlatform (some "youtube") = "youtube" := by decide +kernel
  have hplatform' : normalizePlatform (some " YouTube") = "youtube" := by decide +kernel
  constructor
  · refine assertPublishable_ok.mpr
      ⟨by decide +kernel, (preparedRow 0 f).make 0, (approvedGate 0).make 0, ?_, rfl,
      ⟨rfl, ⟨Option.some_ne_none 7, Option.some_ne_none 0⟩, hf,
        ?_⟩, twoPrepared_approves 0 (.inl rfl) f g,
      by rw [hplatform]; rfl⟩
    · simp [Table.select, twoPrepared_rows, hplatform, PublicationEligibility.isFor, preparedRow,
        attestationRow]
    · simp [Table.select, twoPrepared_rows, PublicationEligibility.repeats, preparedRow,
        attestationRow, Ne.symm hne]
  · refine assertPublishable_ok.mpr
      ⟨by decide +kernel, (preparedRow 1 g).make 1, (approvedGate 1).make 1, ?_, rfl,
      ⟨rfl, ⟨Option.some_ne_none 7, Option.some_ne_none 0⟩, hg,
        ?_⟩, twoPrepared_approves 1 (.inr rfl) f g,
      by rw [hplatform']; rfl⟩
    · simp [Table.select, twoPrepared_rows, hplatform', PublicationEligibility.isFor, preparedRow,
        attestationRow]
    · simp [Table.select, twoPrepared_rows, PublicationEligibility.repeats, preparedRow,
        attestationRow, hne]

/-- The same words with an empty body and without one: two fingerprints, and both items are
published. -/
theorem repetition_missed :
    scriptWords lowerText withoutBody = scriptWords lowerText withBody ∧
      scriptWords lowerText withBody ≠ [] ∧
      ∀ sha256 : String → String, Function.Injective sha256 → (∀ text, sha256 text ≠ "") →
        fingerprintScript lowerText sha256 withoutBody ≠
          fingerprintScript lowerText sha256 withBody ∧
          ∃ d : Desk, normalizePlatform (some "youtube") = normalizePlatform (some " YouTube") ∧
            d.CarriesScript lowerText sha256 0 0 (some "youtube") withoutBody ∧
            d.CarriesScript lowerText sha256 0 1 (some " YouTube") withBody ∧
            (∃ decision, assertPublishable d 0 0 (some "youtube") = .ok decision) ∧
            ∃ decision, assertPublishable d 0 1 (some " YouTube") = .ok decision := by
  refine ⟨by decide +kernel, by decide +kernel, ?_⟩
  intro sha256 hsha hdigest
  have hwithout : fingerprintScript lowerText sha256 withoutBody = .ok (sha256 "buy now  today") :=
    fingerprintScript_of_text "buy now  today".toList (by decide +kernel) (by decide +kernel)
  have hwith : fingerprintScript lowerText sha256 withBody = .ok (sha256 "buy now today") :=
    fingerprintScript_of_text "buy now today".toList (by decide +kernel) (by decide +kernel)
  have hne : sha256 "buy now  today" ≠ sha256 "buy now today" := fun h =>
      absurd (hsha h) (by decide)
  refine ⟨?_, twoPrepared (sha256 "buy now  today") (sha256 "buy now today"), by decide +kernel, ?_,
          ?_, ?_⟩
  · rw [hwithout, hwith]
    exact fun h => hne (Except.ok.inj h)
  · intro row hrow hfor
    rw [Table.mem_def, twoPrepared_rows] at hrow
    rcases List.mem_cons.mp hrow with rfl | hrow
    · exact ⟨_, hwithout, rfl⟩
    · obtain rfl := List.mem_singleton.mp hrow
      simp [PublicationEligibility.isFor, preparedRow, attestationRow] at hfor
  · intro row hrow hfor
    rw [Table.mem_def, twoPrepared_rows] at hrow
    rcases List.mem_cons.mp hrow with rfl | hrow
    · simp [PublicationEligibility.isFor, preparedRow, attestationRow] at hfor
    · obtain rfl := List.mem_singleton.mp hrow
      exact ⟨_, hwith, rfl⟩
  · obtain ⟨h, h'⟩ := twoPrepared_published (hdigest _) (hdigest _) hne
    exact ⟨⟨_, h⟩, _, h'⟩

end ContentOrchestrator
