import ContentOrchestrator.Lib.Blanks
import ContentOrchestrator.Services.PublicationPolicy

/-! # Fingerprints of scripts

The parts of a script are lower-cased, split into words and joined with blanks, first
within each part and then across the parts. A part without words leaves its separator
behind, so the text that is hashed knows the words and the empty parts between them. -/

namespace ContentOrchestrator

open Lib

/-- `str.split` -/
def split (cs : List Char) : List (List Char) :=
  (cs.splitOnP isSpace).filter fun word => !word.isEmpty

/-- `" ".join` -/
def join (texts : List (List Char)) : List Char := [' '].intercalate texts

/-- `(part or "").lower().split()` -/
def partWords (lower : String → String) (part : Option String) : List (List Char) :=
  split (lower (part.getD "")).toList

def fingerprintScript (lower sha256 : String → String) (parts : List (Option String)) :
    Except PublicationError String :=
  let normalized := strip (join (parts.map fun part => join (partWords lower part)))
  if normalized = [] then .error (.blocked "originality_fingerprint_missing")
  else .ok (sha256 (String.ofList normalized))

/-- The words of a script, part after part. -/
def scriptWords (lower : String → String) (parts : List (Option String)) : List (List Char) :=
  parts.flatMap (partWords lower)

/-- What is joined in the end: a part's words, or a blank for a part without words. -/
def partFields (words : List (List Char)) : List (Option (List Char)) :=
  if words = [] then [none] else words.map some

def scriptFields (lower : String → String) (parts : List (Option String)) :
    List (Option (List Char)) :=
  parts.flatMap fun part => partFields (partWords lower part)

/-- The parts without words between each word of the script and the next. -/
def scriptGaps (lower : String → String) (parts : List (Option String)) : List Nat :=
  gaps (scriptFields lower parts)

example : normalizePlatform = fun platform =>
  String.ofList ((strip (platform.getD "").toList).map lowerChar) := rfl

/-! ## Words -/

/-- A word has letters and no blanks. -/
def IsWord (word : List Char) : Prop := word ≠ [] ∧ ∀ c ∈ word, isSpace c = false

theorem splitOnP_clean (p : Char → Bool) (cs : List Char) :
    ∀ piece ∈ cs.splitOnP p, ∀ c ∈ piece, p c = false := by
  induction cs with
  | nil => simp
  | cons c cs ih =>
    rw [List.splitOnP_cons_eq_if_modifyHead]
    split
    · rintro piece (_ | ⟨_, hpiece⟩)
      · simp
      · exact ih piece hpiece
    · rename_i hc
      rcases hpieces : cs.splitOnP p with _ | ⟨first, others⟩
      · simp
      · rw [hpieces] at ih
        rintro piece (_ | ⟨_, hpiece⟩)
        · rintro d (_ | ⟨_, hd⟩)
          · simpa using hc
          · exact ih first List.mem_cons_self d hd
        · exact ih piece (List.mem_cons_of_mem _ hpiece)

theorem isWord_of_mem_split {cs word : List Char} (h : word ∈ split cs) : IsWord word := by
  obtain ⟨hpiece, hword⟩ := List.mem_filter.mp h
  refine ⟨?_, splitOnP_clean isSpace cs word hpiece⟩
  rintro rfl
  simp at hword

theorem isWord_of_mem_scriptWords {lower : String → String} {parts : List (Option String)}
    {word : List Char} (h : word ∈ scriptWords lower parts) : IsWord word := by
  obtain ⟨part, -, hword⟩ := List.mem_flatMap.mp h
  exact isWord_of_mem_split hword

theorem reduceOption_partFields (words : List (List Char)) :
    (partFields words).reduceOption = words := by
  rw [partFields]
  split
  · rename_i hnone
    rw [hnone]
    rfl
  · simp [List.reduceOption, List.filterMap_map]

theorem reduceOption_scriptFields (lower : String → String) (parts : List (Option String)) :
    (scriptFields lower parts).reduceOption = scriptWords lower parts := by
  induction parts with
  | nil => rfl
  | cons part rest ih =>
    rw [scriptFields, scriptWords, List.flatMap_cons, List.flatMap_cons, List.reduceOption_append,
      reduceOption_partFields]
    exact congrArg _ ih

/-! ## The joined text -/

/-- A field as it is written: a blank is the empty text. -/
def fieldText (field : Option (List Char)) : List Char := field.getD []

/-- A list of fields as it is written. -/
def fieldsText (fields : List (Option (List Char))) : List Char := join (fields.map fieldText)

theorem join_append {l m : List (List Char)} (hl : l ≠ []) (hm : m ≠ []) :
    join (l ++ m) = join l ++ ' ' :: join m := by
  induction l with
  | nil => exact absurd rfl hl
  | cons text rest ih =>
    rcases rest with _ | ⟨next, rest⟩
    · rw [List.singleton_append, join, List.intercalate_cons_of_ne_nil hm, join,
        List.intercalate_singleton, List.append_assoc]
      rfl
    · have hrest := ih (List.cons_ne_nil _ _)
      rw [join, List.cons_append, List.intercalate_cons_of_ne_nil (by simp), join,
        List.intercalate_cons_of_ne_nil (List.cons_ne_nil _ _), List.append_assoc, ← join, ← join,
          hrest]
      simp only [List.append_assoc]

theorem fieldsText_append {l m : List (Option (List Char))} (hl : l ≠ []) (hm : m ≠ []) :
    fieldsText (l ++ m) = fieldsText l ++ ' ' :: fieldsText m := by
  rw [fieldsText, List.map_append, join_append (by simpa using hl) (by simpa using hm),
    ← fieldsText, ← fieldsText]

theorem fieldsText_partFields (words : List (List Char)) :
    fieldsText (partFields words) = join words := by
  rw [partFields]
  split
  · rename_i hnone
    rw [hnone]
    rfl
  · rw [fieldsText, List.map_map]
    congr 1
    exact List.map_id words

theorem partFields_ne_nil (words : List (List Char)) : partFields words ≠ [] := by
  rw [partFields]
  split
  · exact List.cons_ne_nil _ _
  · rename_i hwords
    simpa using hwords

/-- Joining within the parts and then across them joins all the fields. -/
theorem join_parts (lower : String → String) (parts : List (Option String)) :
    join (parts.map fun part => join (partWords lower part)) =
      fieldsText (scriptFields lower parts) := by
  induction parts with
  | nil => rfl
  | cons part rest ih =>
    rw [scriptFields, List.flatMap_cons, List.map_cons, ← scriptFields]
    rcases rest with _ | ⟨next, rest⟩
    · simp only [scriptFields, List.flatMap_nil, List.append_nil, fieldsText_partFields,
        List.map_nil, join, List.intercalate_singleton]
    · have hfields : scriptFields lower (next :: rest) ≠ [] := by
        rw [scriptFields, List.flatMap_cons]
        simp [partFields_ne_nil]
      rw [fieldsText_append (partFields_ne_nil _) hfields, fieldsText_partFields, ← ih,
        ← List.singleton_append, join_append (List.cons_ne_nil _ _) (by simp)]
      simp only [join, List.intercalate_singleton]

theorem fieldsText_blanks {fields : List (Option (List Char))} (h : fields ≠ [])
    (before after : Nat) :
    fieldsText (List.replicate before none ++ fields ++ List.replicate after none) =
      List.replicate before ' ' ++ fieldsText fields ++ List.replicate after ' ' := by
  have hbefore : ∀ n, fieldsText (List.replicate n none ++ fields) =
      List.replicate n ' ' ++ fieldsText fields := by
    intro n
    induction n with
    | zero => rfl
    | succ n ih =>
      rw [List.replicate_succ, List.cons_append, ← List.singleton_append,
        fieldsText_append (List.cons_ne_nil _ _) (by simp [h]), ih]
      rfl
  induction after with
  | zero => rw [List.replicate_zero, List.replicate_zero, List.append_nil, List.append_nil, hbefore]
  | succ n ih =>
    rw [List.replicate_succ', ← List.append_assoc,
      fieldsText_append (by simp [h]) (List.cons_ne_nil _ _), ih, List.replicate_succ',
        ← List.append_assoc]
    rfl

/-- Cutting off the blanks around a text that begins and ends otherwise. -/
theorem strip_blanks {first last : Char} {rest init : List Char} {text : List Char}
    (hhead : text = first :: rest) (hfirst : isSpace first = false) (hend : text = init ++ [last])
    (hlast : isSpace last = false) (before after : Nat) :
    strip (List.replicate before ' ' ++ text ++ List.replicate after ' ') = text := by
  have hspace : isSpace ' ' = true := by decide
  have hdrop : (List.replicate before ' ' ++ text ++ List.replicate after ' ').dropWhile isSpace =
      text ++ List.replicate after ' ' := by
    induction before with
    | zero =>
      rw [List.replicate_zero, List.nil_append, hhead, List.cons_append,
        List.dropWhile_cons_of_neg (by simp [hfirst])]
    | succ n ih =>
      rw [List.replicate_succ, List.cons_append, List.cons_append,
        List.dropWhile_cons_of_pos hspace, ih]
  rw [strip, hdrop]
  clear hdrop
  induction after with
  | zero =>
    rw [List.replicate_zero, List.append_nil, hend,
      List.rdropWhile_concat_neg _ _ _ (by simp [hlast])]
  | succ n ih =>
    rw [List.replicate_succ', ← List.append_assoc, List.rdropWhile_concat_pos _ _ _ hspace, ih]

/-! ## What a fingerprint knows -/

/-- Fields whose entries are words. -/
def WordFields (fields : List (Option (List Char))) : Prop :=
  ∀ word ∈ fields.reduceOption, IsWord word

theorem wordFields_core {fields : List (Option (List Char))} (h : WordFields fields) :
    WordFields (core fields) := by
  rw [WordFields, reduceOption_core]
  exact h

theorem WordFields.text {fields : List (Option (List Char))} (h : WordFields fields) :
    ∀ text ∈ fields.map fieldText, ' ' ∉ text := by
  rintro text htext hspace
  obtain ⟨field, hfield, rfl⟩ := List.mem_map.mp htext
  cases field with
  | none => cases hspace
  | some word =>
    have := (h word (List.reduceOption_mem_iff.mpr hfield)).2 ' ' hspace
    revert this
    decide

def readField (text : List Char) : Option (List Char) := if text = [] then none else some text

theorem WordFields.read {fields : List (Option (List Char))} (h : WordFields fields) :
    (fields.map fieldText).map readField = fields := by
  rw [List.map_map]
  calc fields.map (readField ∘ fieldText) = fields.map id := by
        refine List.map_congr_left fun field hfield => ?_
        cases field with
        | none => rfl
        | some word => exact if_neg (h word (List.reduceOption_mem_iff.mpr hfield)).1
    _ = fields := List.map_id fields

/-- The fields can be read back from the text. -/
theorem fieldsText_injective {l m : List (Option (List Char))} (hl : WordFields l)
    (hm : WordFields m) (hl' : l ≠ []) (hm' : m ≠ []) (h : fieldsText l = fieldsText m) :
    l = m := by
  have htexts : l.map fieldText = m.map fieldText := by
    have hread := congrArg (List.splitOn ' ') h
    rwa [fieldsText, fieldsText, join, join,
      List.splitOn_intercalate _ hl.text (by simpa using hl'),
      List.splitOn_intercalate _ hm.text (by simpa using hm')] at hread
  rw [← hl.read, htexts, hm.read]

theorem fieldsText_head (c : Char) (cs : List Char) (rest : List (Option (List Char))) :
    fieldsText (some (c :: cs) :: rest) = c :: fieldsText (some cs :: rest) := by
  simp [fieldsText, join, fieldText]

theorem fieldsText_last (init : List (Option (List Char))) (cs : List Char) (c : Char) :
    ∃ before, fieldsText (init ++ [some (cs ++ [c])]) = before ++ [c] := by
  rcases init with _ | ⟨field, init⟩
  · exact ⟨cs, by simp [fieldsText, join, fieldText]⟩
  · refine ⟨fieldsText (field :: init) ++ ' ' :: cs, ?_⟩
    rw [fieldsText_append (List.cons_ne_nil _ _) (List.cons_ne_nil _ _), List.append_assoc,
      List.cons_append]
    simp [fieldsText, join, fieldText]

/-- **The normalised text** is what stands between the first word and the last. -/
theorem strip_fieldsText {fields : List (Option (List Char))} (h : WordFields fields)
    (hwords : fields.reduceOption ≠ []) : strip (fieldsText fields) = fieldsText (core fields) := by
  obtain ⟨before, after, heq⟩ := blanks_core_blanks fields hwords
  obtain ⟨⟨first, rest, hfirst, hhead⟩, init, last, hlast, hend⟩ := core_ends fields hwords
  have hcore : core fields ≠ [] := by rw [hhead]; exact List.cons_ne_nil _ _
  obtain ⟨hfirst', hclean⟩ := h first hfirst
  obtain ⟨hlast', hclean'⟩ := h last hlast
  obtain ⟨c, cs, rfl⟩ := List.exists_cons_of_ne_nil hfirst'
  obtain ⟨ds, d, rfl⟩ := (List.eq_nil_or_concat last).resolve_left hlast'
  rw [List.concat_eq_append] at hend hclean'
  obtain ⟨text, htext⟩ := fieldsText_last init ds d
  have hstart : fieldsText (core fields) =
      c :: fieldsText (some cs :: rest) := by rw [hhead, fieldsText_head]
  have hfinish : fieldsText (core fields) = text ++ [d] := by rw [hend, htext]
  calc strip (fieldsText fields)
      = strip (fieldsText (List.replicate before none ++ core fields ++
        List.replicate after none)) := by rw [← heq]
    _ = strip (List.replicate before ' ' ++ fieldsText (core fields) ++
        List.replicate after ' ') := by
        rw [fieldsText_blanks hcore]
    _ = fieldsText (core fields) :=
        strip_blanks hstart (hclean c List.mem_cons_self) hfinish (hclean' d (by simp)) before after

variable {lower sha256 : String → String}

theorem wordFields_script (lower : String → String) (parts : List (Option String)) :
    WordFields (scriptFields lower parts) := by
  intro word hword
  rw [reduceOption_scriptFields] at hword
  exact isWord_of_mem_scriptWords hword

/-- A script with a word has the fingerprint of what stands between its first word and its last. -/
theorem fingerprintScript_eq {parts : List (Option String)}
    (hwords : scriptWords lower parts ≠ []) :
    fingerprintScript lower sha256 parts =
      .ok (sha256 (String.ofList (fieldsText (core (scriptFields lower parts))))) := by
  have hentries : (scriptFields lower parts).reduceOption ≠ [] := by rwa [reduceOption_scriptFields]
  have hfields := wordFields_script lower parts
  obtain ⟨⟨first, rest, hfirst, hhead⟩, -⟩ := core_ends _ hentries
  obtain ⟨c, cs, rfl⟩ := List.exists_cons_of_ne_nil (hfields first hfirst).1
  have htext : fieldsText (core (scriptFields lower parts)) ≠ [] := by
    rw [hhead, fieldsText_head]
    exact List.cons_ne_nil _ _
  simp only [fingerprintScript]
  rw [join_parts, strip_fieldsText hfields hentries, if_neg htext]

/-- **When two scripts have one fingerprint**: equal words, and as many empty parts between each and
the next. -/
theorem fingerprintScript_eq_iff (hsha : Function.Injective sha256) {p q : List (Option String)}
    (hp : scriptWords lower p ≠ []) (hq : scriptWords lower q ≠ []) :
    fingerprintScript lower sha256 p = fingerprintScript lower sha256 q ↔
      scriptWords lower p = scriptWords lower q ∧ scriptGaps lower p = scriptGaps lower q := by
  have hcore : ∀ parts : List (Option String), scriptWords lower parts ≠ [] →
      core (scriptFields lower parts) ≠ [] := by
    intro parts hwords
    obtain ⟨⟨_, _, -, hhead⟩, -⟩ := core_ends (scriptFields lower parts)
      (by rwa [reduceOption_scriptFields])
    rw [hhead]
    exact List.cons_ne_nil _ _
  rw [fingerprintScript_eq hp, fingerprintScript_eq hq, Except.ok.injEq, hsha.eq_iff,
    String.ofList_inj, ← reduceOption_scriptFields, ← reduceOption_scriptFields, scriptGaps,
      scriptGaps, ← core_eq_iff]
  constructor
  · exact fieldsText_injective (wordFields_core (wordFields_script lower p))
      (wordFields_core (wordFields_script lower q))
      (hcore p hp) (hcore q hq)
  · intro h
    rw [h]

end ContentOrchestrator
