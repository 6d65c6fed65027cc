import ContentOrchestrator.Lib.Words
import ContentOrchestrator.Properties.ReviewLineage

/-! # Every number of a script is claimed

The claims of a script decide what the fact auditor is asked. No number escapes them: each
word with a digit lies whole in the text of a number claim, and the digits of the number
claims are those of the script, in its order. -/

namespace ContentOrchestrator

open Lib

variable {lib : StandardLibrary} {w : List Char}

/-- A word is never cut: between two sentences there is a blank. -/
theorem word_splitFrom (hw : ∀ c ∈ w, isSpace c = false) (hsome : w ≠ []) {current : List Char}
    {state : SentenceState} {cs : List Char} (hgap : state = .gap → current = [])
    (h : w <:+: current ++ cs) : ∃ sentence ∈ splitFrom current state cs, w <:+: sentence := by
  induction cs generalizing current state with
  | nil =>
    rw [List.append_nil] at h
    exact ⟨current, List.mem_singleton_self _, h⟩
  | cons c cs ih =>
    unfold splitFrom
    split
    · rename_i hcut
      rw [Bool.and_eq_true, beq_iff_eq] at hcut
      obtain rfl := hgap hcut.2
      rcases word_infix hw hcut.1 h with hnil | hrest
      · exact absurd (List.infix_nil.mp hnil) hsome
      · exact ih (fun _ => rfl) hrest
    · split
      · rename_i hcut
        rw [Bool.and_eq_true] at hcut
        rcases word_infix hw hcut.1 h with hcurrent | hrest
        · exact ⟨current, List.mem_cons_self, hcurrent⟩
        · have hlater : ∃ sentence ∈ splitFrom [] .gap cs, w <:+: sentence :=
            ih (fun _ => rfl) hrest
          obtain ⟨sentence, hmem, hin⟩ := hlater
          exact ⟨sentence, List.mem_cons_of_mem _ hmem, hin⟩
      · refine ih (fun hstate => ?_) (by rwa [List.append_assoc])
        split at hstate <;> cases hstate

theorem word_splitSentences (hw : ∀ c ∈ w, isSpace c = false) (hsome : w ≠ []) {script : List Char}
    (h : w <:+: script) : ∃ sentence ∈ splitSentences script, w <:+: sentence :=
  word_splitFrom hw hsome SentenceState.noConfusion h

theorem word_strip (hw : ∀ c ∈ w, isSpace c = false) (hsome : w ≠ []) {cs : List Char}
    (h : w <:+: cs) : w <:+: strip cs :=
  word_rdropWhile hw hsome (word_dropWhile hw hsome h)

/-- A word with a digit lies in a number claim. -/
theorem word_claimed (hw : ∀ c ∈ w, isSpace c = false) (hnumber : w.any lib.isDigit = true)
    {script : String} (h : w <:+: script.toList) :
    ∃ claim ∈ extractClaims lib script, claim.claimType = "NUMBER" ∧ claim.risk = "high" ∧
      w <:+: claim.claimText.toList := by
  have hsome : w ≠ [] := fun hnil => by
    rw [hnil] at hnumber
    cases hnumber
  obtain ⟨sentence, hsentence, hin⟩ := word_splitSentences hw hsome h
  have hstripped := word_strip hw hsome hin
  have htext : strip sentence ≠ [] := fun hnil =>
    hsome (List.infix_nil.mp (hnil ▸ hstripped))
  obtain ⟨c, hc, hdigit⟩ := List.any_eq_true.mp hnumber
  have hkind : claimType lib (strip sentence) = some "NUMBER" :=
    claimType_number.mpr (List.any_eq_true.mpr ⟨c, hstripped.subset hc, hdigit⟩)
  refine ⟨{ claimText := String.ofList (strip sentence), claimType := "NUMBER", risk := "high" },
    List.mem_filterMap.mpr ⟨sentence, hsentence, ?_⟩, rfl, rfl, ?_⟩
  · rw [if_neg htext, hkind]
    rfl
  · rw [String.toList_ofList]
    exact hstripped

/-- The digits of the number claims are the digits of the script. -/
theorem number_digits (hdigit : ∀ c, lib.isDigit c = true → isSpace c = false) (script : String) :
    ((extractClaims lib script).filter fun claim => claim.claimType == "NUMBER").flatMap
        (fun claim => claim.claimText.toList.filter lib.isDigit) =
      script.toList.filter lib.isDigit := by
  rw [← digits_of_inked hdigit script.toList, ← inked_splitSentences, extractClaims,
    List.filterMap_eq_flatMap_toList]
  induction splitSentences script.toList with
  | nil => rfl
  | cons sentence rest ih =>
    rw [List.flatMap_cons, List.filter_append, List.flatMap_append, ih, List.flatMap_cons,
      List.filter_append, ← sentence_digits hdigit sentence]

/-- **No number of a script goes unclaimed.** -/
theorem script_numbers_claimed (lib : StandardLibrary)
    (hdigit : ∀ c, lib.isDigit c = true → isSpace c = false) (script : String) :
    (∀ w : List Char, w <:+: script.toList → (∀ c ∈ w, isSpace c = false) →
      w.any lib.isDigit = true →
        ∃ claim ∈ extractClaims lib script, claim.claimType = "NUMBER" ∧ claim.risk = "high" ∧
          w <:+: claim.claimText.toList) ∧
    ((extractClaims lib script).filter fun claim => claim.claimType == "NUMBER").flatMap
        (fun claim => claim.claimText.toList.filter lib.isDigit) =
      script.toList.filter lib.isDigit :=
  ⟨fun _ hin hw hnumber => word_claimed hw hnumber hin, number_digits hdigit script⟩

theorem isDigit_not_space {c : Char} (h : c.isDigit = true) : isSpace c = false := by
  simp only [Char.isDigit, Bool.and_eq_true, decide_eq_true_eq] at h
  have hlow : 48 ≤ c.toNat := UInt32.le_iff_toNat_le.mp h.1
  have hhigh : c.toNat ≤ 57 := UInt32.le_iff_toNat_le.mp h.2
  simp only [isSpace, Bool.or_eq_false_iff, Bool.and_eq_false_iff, decide_eq_false_iff_not,
    beq_eq_false_iff_ne]
  omega

theorem script_numbers_claimed_plain :
    ∃ claim ∈ extractClaims Departments.plainLibrary "Bake 2.5 loaves. Rest",
      claim.claimType = "NUMBER" ∧ claim.risk = "high" ∧
        "2.5".toList <:+: claim.claimText.toList := by
  have hsolid : ∀ c ∈ "2.5".toList, isSpace c = false := by
    intro c hc
    have hchars : "2.5".toList = ['2', '.', '5'] := by decide
    rw [hchars] at hc
    simp only [List.mem_cons, List.not_mem_nil, or_false] at hc
    rcases hc with rfl | rfl | rfl <;> rfl
  exact (script_numbers_claimed Departments.plainLibrary (fun _ h => isDigit_not_space h)
    "Bake 2.5 loaves. Rest").1 "2.5".toList (by decide) hsolid (by decide)

end ContentOrchestrator
