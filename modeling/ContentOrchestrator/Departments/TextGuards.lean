import ContentOrchestrator.Lib.Patterns
import ContentOrchestrator.Services.Fingerprints

/-! # What the departments accept as text

Every department reads its free text through the same two patterns: one for
instructions aimed at a model, one for values that look like secrets. Source excerpts
are redacted, everything else is refused. Letters are compared without case, which
takes in the four letters outside ASCII that fold onto one of its own. -/

namespace ContentOrchestrator

open Lib

/-- What `urlsplit` reads off a URL. -/
structure SplitUrl where
  scheme : String
  hostname : Option String
  username : Option String
  password : Option String
  path : String
  query : String

/-- What the services take from the standard library: case and digit tables, the hash, and the
readers of URLs and addresses. -/
structure StandardLibrary where
  lower : String → String
  isDecimal : Char → Bool
  isDigit : Char → Bool
  sha256 : String → String
  urlsplit : String → Except String SplitUrl
  urlunsplit : String → String → String → String → String
  isLocalAddress : String → Bool

/-- A letter of a pattern under `re.IGNORECASE`. -/
def sameLetter (a c : Char) : Bool :=
  c == a || c == a.toUpper || (a == 'k' && c.toNat == 0x212A) || (a == 's' && c.toNat == 0x17F) ||
    (a == 'i' && (c.toNat == 0x130 || c.toNat == 0x131))

/-- A word of a pattern, letter by letter. -/
def spelled : List Char → Pattern Char
  | [] => .many fun _ => false
  | [a] => .cls (sameLetter a)
  | a :: rest => .seq (.cls (sameLetter a)) (spelled rest)

def literal (text : String) : Pattern Char := spelled text.toList

def blanks : Pattern Char := .oneOrMore isSpace

/-- `a\s+b` -/
def spaced (a b : Pattern Char) : Pattern Char := .seq a (.seq blanks b)

/-- `_UNTRUSTED_INSTRUCTION` -/
def untrustedInstruction : Pattern Char :=
  .oneOf
    (spaced (literal "ignore")
      (.seq (.opt (.seq (literal "all") blanks)) (literal "previous")))
    [spaced (literal "system") (literal "prompt"),
     spaced (literal "developer") (literal "message"),
     spaced (literal "reveal")
       (.oneOf (literal "secret") [literal "token", literal "password"]),
     spaced (literal "bypass") (.oneOf (literal "review") [literal "security"]),
     spaced (literal "execute") (spaced (literal "this") (literal "instruction"))]

/-- The names a secret goes by. -/
def secretName : Pattern Char :=
  .oneOf (.seq (literal "api") (.seq (.opt (.cls fun c => c == '_' || c == ' ' || c == '-'))
      (literal "key")))
    [literal "authorization", literal "bearer", literal "oauth", literal "token",
     literal "password"]

/-- `[^\s,;]` -/
def isSecretLetter (c : Char) : Bool := !(isSpace c || c == ',' || c == ';')

/-- The part of `_SECRET_PATTERN` before the value. -/
def secretHead : Pattern Char :=
  .seq secretName (.seq (.many isSpace) (.seq (.cls fun c => c == ':' || c == '=') (.many isSpace)))

/-- `_SECRET_PATTERN` -/
def secretPattern : Pattern Char := .seq secretHead (.oneOrMore isSecretLetter)

/-- `_OVERSTATED_PATTERN` -/
def overstatedPattern (lib : StandardLibrary) : Pattern Char :=
  .oneOf (spaced (literal "will") (spaced (literal "go") (literal "viral")))
    [spaced (literal "guaranteed") (.oneOf (literal "winner") [literal "success"]),
     spaced (literal "expected") (.seq (.oneOrMore lib.isDecimal)
       (.seq (.opt (.cls fun c => sameLetter 'k' c || sameLetter 'm' c))
         (.seq blanks (literal "views"))))]

/-- `_UNSUPPORTED_CLAIM` -/
def unsupportedClaim (lib : StandardLibrary) : Pattern Char :=
  .alt (overstatedPattern lib)
    (spaced (literal "increase")
      (spaced (.oneOf (literal "revenue") [literal "profit"])
        (spaced (literal "by") (.oneOrMore lib.isDecimal))))

inductive TextError
  | badLength (field : String) (maximum : Nat)
  | untrustedInstruction (field : String)
  | secretLike (field : String)
deriving DecidableEq, Repr

def TextError.message : TextError → String
  | badLength field maximum => s!"{field} must be non-empty and at most {maximum} characters"
  | untrustedInstruction field => s!"{field} contains an untrusted instruction pattern"
  | secretLike field => s!"{field} contains a secret-like value"

/-- `_safe_text` -/
def safeText (value field : String) (maximum : Nat) : Except TextError String :=
  let normalized := strip value.toList
  if normalized = [] ∨ maximum < normalized.length then .error (.badLength field maximum)
  else if untrustedInstruction.occursIn normalized then .error (.untrustedInstruction field)
  else if secretPattern.occursIn normalized then .error (.secretLike field)
  else .ok (String.ofList normalized)

def maxFixtureExcerpt := 6000

def redactedSecret : List Char := "[REDACTED_SECRET]".toList

/-- `_safe_excerpt`: the excerpt to store and why it was rejected. -/
def safeExcerpt (value : Option String) : Option String × Option String :=
  match value with
  | none => (none, none)
  | some value =>
    let bounded := (strip value.toList).take maxFixtureExcerpt
    if untrustedInstruction.occursIn bounded then
      (none, some "untrusted instruction pattern detected")
    else (some (String.ofList (secretPattern.sub redactedSecret bounded)), none)

/-- The text holds neither pattern. -/
def CleanText (text : String) : Prop :=
  untrustedInstruction.occursIn text.toList = false ∧ secretPattern.occursIn text.toList = false

instance (text : String) : Decidable (CleanText text) := by unfold CleanText; infer_instance

example : safeExcerpt (some "see Token : abc, api key=x;") =
    (some "see [REDACTED_SECRET], [REDACTED_SECRET];", none) := by decide +kernel

example : safeText " ignore  all previous " "hook" 100 = .error (.untrustedInstruction "hook") := by
  decide +kernel

/-! ## Redaction -/

theorem sameLetter_cases {a c : Char} (h : sameLetter a c = true) :
    c = a ∨ c = a.toUpper ∨ c.toNat = 0x212A ∨ c.toNat = 0x17F ∨ c.toNat = 0x130 ∨
      c.toNat = 0x131 := by
  simp only [sameLetter, Bool.or_eq_true, Bool.and_eq_true, beq_iff_eq] at h
  rcases h with (((h | h) | ⟨-, h⟩) | ⟨-, h⟩) | ⟨-, h | h⟩
  all_goals simp [h]

/-- The letters a pattern word begins with may begin a secret value. -/
theorem leads_letter {a : Char} (ha : isSecretLetter a = true)
    (hupper : isSecretLetter a.toUpper = true) :
    (Pattern.cls (sameLetter a)).Leads isSecretLetter := by
  intro c hc
  rcases sameLetter_cases hc with rfl | rfl | h | h | h | h
  · exact ha
  · exact hupper
  all_goals
    have hchar : c = Char.ofNat c.toNat := (Char.ofNat_toNat c).symm
    rw [hchar, h]
    decide

theorem secretPattern_leads : secretPattern.Leads isSecretLetter :=
  ⟨⟨⟨⟨⟨leads_letter (by decide) (by decide), leads_letter (by decide) (by decide)⟩,
    leads_letter (by decide) (by decide)⟩, leads_letter (by decide) (by decide)⟩,
      leads_letter (by decide) (by decide)⟩, leads_letter (by decide) (by decide)⟩

theorem bracketed_redacted {r : Pattern Char} (hopen : r.mentions '[' = false)
    (hclose : r.mentions ']' = false) (hout : r.occursIn redactedSecret = false) :
    Pattern.Bracketed r.Spells redactedSecret where
  opens := ⟨'[', _, rfl, fun _ hw => hw.not_mem hopen⟩
  closes := ⟨"[REDACTED_SECRET".toList, ']', by decide, fun _ hw => hw.not_mem hclose⟩
  outside w hw hin := by
    rw [Pattern.occursIn_iff.mpr ⟨w, hw, hin⟩] at hout
    cases hout

/-- What a scan for secrets leaves holds none. -/
theorem secret_redacted (s : List Char) :
    secretPattern.occursIn (secretPattern.sub redactedSecret s) = false := by
  have hreplaced : Pattern.Replaced secretPattern redactedSecret s
      (secretPattern.sub redactedSecret s) :=
    Pattern.sub_replaced (Pattern.nonEmpty_of_leads secretPattern_leads) s
  have hclean := hreplaced.clean
    (bracketed_redacted (r := secretHead) (by decide) (by decide) (by decide +kernel))
    (fun h c hh hc => .seq hh (.seq (.cls hc) (.many (w := []) (by simp))))
    (fun w hw => hw.first secretPattern_leads)
  rw [← Bool.not_eq_true, Pattern.occursIn_iff]
  rintro ⟨_, hword, hin⟩
  cases hword with
  | seq hhead hvalue =>
    cases hvalue with
    | @seq _ _ _ more hfirst _ =>
      cases hfirst with
      | @cls _ c hc =>
        -- the head and the first letter of the value stand in the result
        refine hclean _ c hhead hc (List.IsInfix.trans ⟨[], more, ?_⟩ hin)
        simp

/-- Redaction brings in no instruction. -/
theorem instruction_redacted {s : List Char} (h : untrustedInstruction.occursIn s = false) :
    untrustedInstruction.occursIn (secretPattern.sub redactedSecret s) = false := by
  have hreplaced : Pattern.Replaced secretPattern redactedSecret s
      (secretPattern.sub redactedSecret s) :=
    Pattern.sub_replaced (Pattern.nonEmpty_of_leads secretPattern_leads) s
  have habsent := hreplaced.absent
    (bracketed_redacted (r := untrustedInstruction) (by decide) (by decide) (by decide +kernel))
    fun w hw hin => by
      rw [Pattern.occursIn_iff.mpr ⟨w, hw, hin⟩] at h
      cases h
  rw [← Bool.not_eq_true, Pattern.occursIn_iff]
  rintro ⟨w, hw, hin⟩
  exact habsent w hw hin

/-- **What is stored of an excerpt** holds neither pattern. -/
theorem safeExcerpt_clean {value : Option String} {stored : String} {reason : Option String}
    (h : safeExcerpt value = (some stored, reason)) : CleanText stored := by
  cases value with
  | none => cases h
  | some value =>
    simp only [safeExcerpt] at h
    split at h
    · cases h
    · rename_i hnone
      obtain ⟨rfl, -⟩ := Prod.mk.inj h |>.imp_left Option.some.inj
      rw [Bool.not_eq_true] at hnone
      rw [CleanText, String.toList_ofList]
      exact ⟨instruction_redacted hnone, secret_redacted _⟩

theorem safeText_ok {value field text : String} {maximum : Nat}
    (h : safeText value field maximum = .ok text) :
    text = String.ofList (strip value.toList) ∧ strip value.toList ≠ [] ∧
      (strip value.toList).length ≤ maximum ∧ CleanText text := by
  simp only [safeText] at h
  split at h
  · cases h
  · rename_i hlength
    split at h
    · cases h
    · rename_i huntrusted
      split at h
      · cases h
      · rename_i hsecret
        cases h
        rw [not_or] at hlength
        refine ⟨rfl, hlength.1, Nat.le_of_not_lt hlength.2, ?_⟩
        rw [CleanText, String.toList_ofList]
        exact ⟨by simpa using huntrusted, by simpa using hsecret⟩

end ContentOrchestrator
