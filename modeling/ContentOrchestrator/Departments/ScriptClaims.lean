import ContentOrchestrator.Departments.TextGuards

/-! # The claims of a script

A script is cut after each full stop, exclamation mark or question mark that blanks
follow. A sentence with a digit is a number claim; one with a marker word is a product
or a comparative claim; the others are not kept. -/

namespace ContentOrchestrator

open Lib

/-- Where the scan of a script stands: in a text, after a sentence mark, or between sentences. -/
inductive SentenceState
  | text | mark | gap
deriving DecidableEq, Repr

def isSentenceMark (c : Char) : Bool := c == '.' || c == '!' || c == '?'

/-- `_CLAIM_SENTENCE.split` from a state, with the sentence read so far. -/
def splitFrom (current : List Char) : SentenceState → List Char → List (List Char)
  | _, [] => [current]
  | state, c :: cs =>
    if isSpace c && state == .gap then splitFrom current .gap cs
    else if isSpace c && state == .mark then current :: splitFrom [] .gap cs
    else splitFrom (current ++ [c]) (if isSentenceMark c then .mark else .text) cs

/-- `_CLAIM_SENTENCE.split` -/
def splitSentences (script : List Char) : List (List Char) := splitFrom [] .text script

structure ExtractedClaim where
  claimText : String
  claimType : String
  risk : String
deriving DecidableEq, Repr

def hasText (needle : String) (text : String) : Bool := decide (needle.toList <:+: text.toList)

/-- The type of a sentence's claim. -/
def claimType (lib : StandardLibrary) (sentence : List Char) : Option String :=
  let lowered := lib.lower (String.ofList sentence)
  if sentence.any lib.isDigit then some "NUMBER"
  else if ["will", "guarantee", "best", "more than"].any fun marker => hasText marker lowered then
    some (if hasText "best" lowered || hasText "more than" lowered then "COMPARATIVE" else
      "PRODUCT CLAIM")
  else none

def claimRisk (claimType : String) : String :=
  if claimType == "NUMBER" || claimType == "COMPARATIVE" then "high" else "medium"

/-- `_extract_claims` -/
def extractClaims (lib : StandardLibrary) (script : String) : List ExtractedClaim :=
  (splitSentences script.toList).filterMap fun sentence =>
    let text := strip sentence
    if text = [] then none
    else (claimType lib text).map fun kind =>
      { claimText := String.ofList text, claimType := kind, risk := claimRisk kind }

/-! ## Nothing is lost between the sentences -/

/-- The letters that are not blank. -/
def inked (cs : List Char) : List Char := cs.filter fun c => !isSpace c

theorem inked_append (cs ds : List Char) : inked (cs ++ ds) = inked cs ++ inked ds :=
  List.filter_append ..

theorem inked_splitFrom (current : List Char) (state : SentenceState) (cs : List Char) :
    (splitFrom current state cs).flatMap inked = inked current ++ inked cs := by
  induction cs generalizing current state with
  | nil => simp [splitFrom, inked]
  | cons c cs ih =>
    unfold splitFrom
    cases hc : isSpace c with
    | true =>
      have hskip : inked (c :: cs) = inked cs := List.filter_cons_of_neg (by simp [hc])
      have hkeep : inked (current ++ [c]) = inked current := by
        rw [inked_append, inked, inked, List.filter_cons_of_neg (by simp [hc]), List.filter_nil,
          List.append_nil]
      split
      · rw [ih, hskip]
      · split
        · rw [List.flatMap_cons, ih, hskip]
          rfl
        · rw [ih, hskip, hkeep]
    | false =>
      rw [Bool.false_and, Bool.false_and, if_neg Bool.false_ne_true, if_neg Bool.false_ne_true, ih,
        inked_append, List.append_assoc]
      congr 1
      exact (inked_append [c] cs).symm

theorem inked_splitSentences (script : List Char) :
    (splitSentences script).flatMap inked = inked script :=
  inked_splitFrom [] .text script

theorem inked_strip (cs : List Char) : inked (strip cs) = inked cs := by
  have hfront : ∀ ds : List Char, inked (ds.dropWhile isSpace) = inked ds := by
    intro ds
    induction ds with
    | nil => rfl
    | cons d ds ih =>
      rw [List.dropWhile_cons]
      split
      · rw [ih]
        exact (List.filter_cons_of_neg (by simp [*])).symm
      · rfl
  have hback : ∀ ds : List Char, inked (ds.rdropWhile isSpace) = inked ds := by
    intro ds
    rw [List.rdropWhile, inked, List.filter_reverse]
    have := hfront ds.reverse
    rw [inked, inked, List.filter_reverse] at this
    rw [this, List.reverse_reverse]
    rfl
  rw [strip, hback, hfront]

variable {lib : StandardLibrary}

/-- A sentence with a digit makes a number claim. -/
theorem claimType_number {sentence : List Char} :
    claimType lib sentence = some "NUMBER" ↔ sentence.any lib.isDigit = true := by
  simp only [claimType]
  split
  · simp [*]
  · split
    · split <;> simp [*]
    · simp [*]

theorem digits_of_inked (hdigit : ∀ c, lib.isDigit c = true → isSpace c = false) (cs : List Char) :
    (inked cs).filter lib.isDigit = cs.filter lib.isDigit := by
  rw [inked, List.filter_filter]
  refine List.filter_congr fun c _ => ?_
  cases hc : lib.isDigit c with
  | true => simp [hdigit c hc]
  | false => rfl

/-- The digits of a sentence are in its number claim, if it has any. -/
theorem sentence_digits (hdigit : ∀ c, lib.isDigit c = true → isSpace c = false)
    (sentence : List Char) :
    ((if strip sentence = [] then none else (claimType lib (strip sentence)).map fun kind =>
      ({ claimText := String.ofList (strip sentence), claimType := kind, risk := claimRisk kind } :
        ExtractedClaim)).toList.filter fun claim => claim.claimType == "NUMBER").flatMap
          (fun claim => claim.claimText.toList.filter lib.isDigit) =
      (inked sentence).filter lib.isDigit := by
  have hstripped : (strip sentence).filter lib.isDigit = (inked sentence).filter lib.isDigit := by
    rw [← inked_strip, digits_of_inked hdigit]
  by_cases hempty : strip sentence = []
  · rw [if_pos hempty, ← hstripped, hempty]
    rfl
  · rw [if_neg hempty]
    cases hany : (strip sentence).any lib.isDigit with
    | true =>
      rw [claimType_number.mpr hany]
      simp [hstripped]
    | false =>
      have hnone : (strip sentence).filter lib.isDigit = [] :=
        List.filter_eq_nil_iff.mpr fun c hc => by simpa using List.any_eq_false.mp hany c hc
      have hother : claimType lib (strip sentence) ≠ some "NUMBER" := by
        rw [Ne, claimType_number, hany]
        exact Bool.false_ne_true
      rw [← hstripped, hnone]
      cases hkind : claimType lib (strip sentence) with
      | none => rfl
      | some kind =>
        have hne : kind ≠ "NUMBER" := fun heq => hother (by rw [hkind, heq])
        simp [hne]

end ContentOrchestrator
