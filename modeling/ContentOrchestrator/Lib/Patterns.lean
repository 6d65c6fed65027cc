import Mathlib.Data.List.Infix

/-! # Patterns and what replacing them leaves

A pattern reads a word off the front of a list; `rests` gives what may be left of the
list, the preferred reading first, and `Spells` says which words it may read. A scan from
the left replaces every word it comes upon. What the scan leaves has no word of the
pattern in it again, provided the replacement is bracketed by letters that the pattern
needs nowhere but at its end, and it brings in no word that was not there before. -/

namespace ContentOrchestrator.Lib

variable {α : Type}

inductive Pattern (α : Type)
  | cls (p : α → Bool)
  | many (p : α → Bool)
  | seq (a b : Pattern α)
  | alt (a b : Pattern α)

namespace Pattern

/-- A letter that may be left out. -/
def opt (a : Pattern α) : Pattern α := .alt a (.many fun _ => false)

def oneOrMore (p : α → Bool) : Pattern α := .seq (.cls p) (.many p)

/-- One of several patterns, the first that fits. -/
def oneOf (a : Pattern α) (rest : List (Pattern α)) : Pattern α := rest.foldl .alt a

/-- The words of the pattern. -/
inductive Spells : Pattern α → List α → Prop
  | cls {p : α → Bool} {c : α} (hc : p c = true) : Spells (.cls p) [c]
  | many {p : α → Bool} {w : List α} (hw : ∀ c ∈ w, p c = true) : Spells (.many p) w
  | seq {a b : Pattern α} {v w : List α} (hv : Spells a v) (hw : Spells b w) :
      Spells (.seq a b) (v ++ w)
  | left {a b : Pattern α} {w : List α} (hw : Spells a w) : Spells (.alt a b) w
  | right {a b : Pattern α} {w : List α} (hw : Spells b w) : Spells (.alt a b) w

/-- Repetition takes as much as it can, then less. -/
def manyRests (p : α → Bool) : List α → List (List α)
  | [] => [[]]
  | c :: cs => if p c then manyRests p cs ++ [c :: cs] else [c :: cs]

def rests : Pattern α → List α → List (List α)
  | .cls _, [] => []
  | .cls p, c :: cs => if p c then [cs] else []
  | .many p, s => manyRests p s
  | .seq a b, s => (a.rests s).flatMap b.rests
  | .alt a b, s => a.rests s ++ b.rests s

/-- `re.search` -/
def occursIn (r : Pattern α) (s : List α) : Bool := s.tails.any fun t => !(r.rests t).isEmpty

/-- The pattern reads nothing without a letter. -/
def NonEmpty (r : Pattern α) : Prop := ∀ w, r.Spells w → w ≠ []

theorem mem_manyRests {p : α → Bool} {s t : List α} :
    t ∈ manyRests p s ↔ ∃ w, (∀ c ∈ w, p c = true) ∧ s = w ++ t := by
  induction s with
  | nil =>
    rw [manyRests, List.mem_singleton]
    constructor
    · rintro rfl
      exact ⟨[], by simp, rfl⟩
    · rintro ⟨w, -, heq⟩
      exact (List.append_eq_nil_iff.mp heq.symm).2
  | cons c cs ih =>
    unfold manyRests
    cases hc : p c with
    | true =>
      rw [if_pos rfl, List.mem_append, ih, List.mem_singleton]
      constructor
      · rintro (⟨w, hw, rfl⟩ | rfl)
        · exact ⟨c :: w, List.forall_mem_cons.mpr ⟨hc, hw⟩, rfl⟩
        · exact ⟨[], by simp, rfl⟩
      · rintro ⟨w, hw, heq⟩
        cases w with
        | nil => exact .inr heq.symm
        | cons d w =>
          obtain ⟨rfl, rfl⟩ := List.cons.inj heq
          exact .inl ⟨w, (List.forall_mem_cons.mp hw).2, rfl⟩
    | false =>
      rw [if_neg Bool.false_ne_true, List.mem_singleton]
      constructor
      · rintro rfl
        exact ⟨[], by simp, rfl⟩
      · rintro ⟨w, hw, heq⟩
        cases w with
        | nil => exact heq.symm
        | cons d w =>
          obtain ⟨rfl, -⟩ := List.cons.inj heq
          rw [(List.forall_mem_cons.mp hw).1] at hc
          cases hc

/-- **What may be left of a list** is what follows a word of the pattern. -/
theorem mem_rests {r : Pattern α} {s t : List α} :
    t ∈ r.rests s ↔ ∃ w, r.Spells w ∧ s = w ++ t := by
  induction r generalizing s t with
  | cls p =>
    constructor
    · intro h
      cases s with
      | nil => cases h
      | cons c cs =>
        rw [rests] at h
        split at h
        · exact ⟨[c], .cls ‹_›, by rw [List.mem_singleton.mp h]; rfl⟩
        · cases h
    · rintro ⟨w, ⟨hc⟩, rfl⟩
      rw [List.singleton_append, rests, if_pos hc]
      exact List.mem_singleton.mpr rfl
  | many p =>
    rw [rests, mem_manyRests]
    constructor
    · rintro ⟨w, hw, rfl⟩
      exact ⟨w, .many hw, rfl⟩
    · rintro ⟨w, hw, rfl⟩
      cases hw with
      | many hw => exact ⟨w, hw, rfl⟩
  | seq a b iha ihb =>
    rw [rests, List.mem_flatMap]
    constructor
    · rintro ⟨u, hu, ht⟩
      obtain ⟨v, hv, rfl⟩ := iha.mp hu
      obtain ⟨w, hw, rfl⟩ := ihb.mp ht
      exact ⟨v ++ w, .seq hv hw, (List.append_assoc ..).symm⟩
    · rintro ⟨_, hword, rfl⟩
      cases hword with
      | seq hv hw =>
        exact ⟨_, iha.mpr ⟨_, hv, List.append_assoc ..⟩, ihb.mpr ⟨_, hw, rfl⟩⟩
  | alt a b iha ihb =>
    rw [rests, List.mem_append, iha, ihb]
    constructor
    · rintro (⟨w, hw, rfl⟩ | ⟨w, hw, rfl⟩)
      · exact ⟨w, .left hw, rfl⟩
      · exact ⟨w, .right hw, rfl⟩
    · rintro ⟨w, hw, rfl⟩
      cases hw with
      | left hw => exact .inl ⟨w, hw, rfl⟩
      | right hw => exact .inr ⟨w, hw, rfl⟩

theorem rests_isEmpty {r : Pattern α} {s : List α} :
    (r.rests s).isEmpty = false ↔ ∃ w t, r.Spells w ∧ s = w ++ t := by
  rw [List.isEmpty_eq_false_iff_exists_mem]
  constructor
  · rintro ⟨t, ht⟩
    obtain ⟨w, hw, heq⟩ := mem_rests.mp ht
    exact ⟨w, t, hw, heq⟩
  · rintro ⟨w, t, hw, heq⟩
    exact ⟨t, mem_rests.mpr ⟨w, hw, heq⟩⟩

/-- **A search finds the pattern** exactly where one of its words stands in the list. -/
theorem occursIn_iff {r : Pattern α} {s : List α} :
    r.occursIn s = true ↔ ∃ w, r.Spells w ∧ w <:+: s := by
  rw [occursIn, List.any_eq_true]
  constructor
  · rintro ⟨t, ht, hfound⟩
    obtain ⟨w, u, hw, rfl⟩ := rests_isEmpty.mp (by simpa using hfound)
    obtain ⟨pre, rfl⟩ := (List.mem_tails _ _).mp ht
    exact ⟨w, hw, pre, u, by rw [List.append_assoc]⟩
  · rintro ⟨w, hw, pre, post, rfl⟩
    refine ⟨w ++ post, (List.mem_tails _ _).mpr ⟨pre, by rw [List.append_assoc]⟩, ?_⟩
    simpa using rests_isEmpty.mpr ⟨w, post, hw, rfl⟩

/-- Some word of the pattern may hold the letter. -/
def mentions (x : α) : Pattern α → Bool
  | .cls p | .many p => p x
  | .seq a b | .alt a b => a.mentions x || b.mentions x

theorem Spells.not_mem {x : α} {r : Pattern α} {w : List α} (h : r.Spells w)
    (hr : r.mentions x = false) : x ∉ w := by
  induction h with
  | cls hc =>
    intro hmem
    rw [mentions, List.mem_singleton.mp hmem, hc] at hr
    cases hr
  | many hw =>
    intro hmem
    rw [mentions, hw x hmem] at hr
    cases hr
  | seq _ _ ihv ihw =>
    rw [mentions, Bool.or_eq_false_iff] at hr
    rw [List.mem_append, not_or]
    exact ⟨ihv hr.1, ihw hr.2⟩
  | left _ ih =>
    rw [mentions, Bool.or_eq_false_iff] at hr
    exact ih hr.1
  | right _ ih =>
    rw [mentions, Bool.or_eq_false_iff] at hr
    exact ih hr.2

/-- Every word begins with a letter of the class. -/
def Leads (q : α → Bool) : Pattern α → Prop
  | .cls p => ∀ c, p c = true → q c = true
  | .many _ => False
  | .seq a _ => a.Leads q
  | .alt a b => a.Leads q ∧ b.Leads q

theorem Spells.first {q : α → Bool} {r : Pattern α} {w : List α} (h : r.Spells w)
    (hr : r.Leads q) : ∃ c rest, w = c :: rest ∧ q c = true := by
  induction h with
  | cls hc => exact ⟨_, [], rfl, hr _ hc⟩
  | many _ => exact hr.elim
  | seq _ _ ih _ =>
    obtain ⟨c, rest, rfl, hc⟩ := ih hr
    exact ⟨c, _, rfl, hc⟩
  | left _ ih => exact ih hr.1
  | right _ ih => exact ih hr.2

theorem nonEmpty_of_leads {q : α → Bool} {r : Pattern α} (hr : r.Leads q) : r.NonEmpty := by
  rintro w hw rfl
  obtain ⟨c, rest, heq, -⟩ := hw.first hr
  cases heq

/-! ## Replacing -/

/-- `re.sub` for a pattern that reads at least one letter; each letter of the list is passed at
most once. -/
def scan (r : Pattern α) (new : List α) : Nat → List α → List α
  | 0, s => s
  | _ + 1, [] => []
  | n + 1, c :: cs =>
    match r.rests (c :: cs) with
    | [] => c :: scan r new n cs
    | t :: _ => new ++ scan r new n t

def sub (r : Pattern α) (new s : List α) : List α := scan r new s.length s

/-- How a scan takes a list apart. -/
inductive Replaced (r : Pattern α) (new : List α) : List α → List α → Prop
  | nil : Replaced r new [] []
  | keep {c : α} {cs out : List α} (hnone : ∀ w t, r.Spells w → c :: cs ≠ w ++ t)
      (rest : Replaced r new cs out) : Replaced r new (c :: cs) (c :: out)
  | swap {w t out : List α} (hw : r.Spells w) (rest : Replaced r new t out) :
      Replaced r new (w ++ t) (new ++ out)

variable {r : Pattern α} {new : List α}

theorem scan_replaced (hr : r.NonEmpty) :
    ∀ (n : Nat) (s : List α), s.length ≤ n → Replaced r new s (scan r new n s)
  | 0, s, hlen => by
    rw [List.length_eq_zero_iff.mp (Nat.le_zero.mp hlen), scan]
    exact .nil
  | n + 1, [], _ => .nil
  | n + 1, c :: cs, hlen => by
    rw [scan]
    cases hrests : r.rests (c :: cs) with
    | nil =>
      refine .keep (fun w t hw heq => ?_) (scan_replaced hr n cs (Nat.le_of_succ_le_succ hlen))
      have hmem : t ∈ r.rests (c :: cs) := mem_rests.mpr ⟨w, hw, heq⟩
      rw [hrests] at hmem
      cases hmem
    | cons t others =>
      obtain ⟨w, hw, heq⟩ := mem_rests.mp (hrests ▸ List.mem_cons_self)
      have hpos : 0 < w.length := List.length_pos_iff.mpr (hr w hw)
      have hshort : t.length ≤ n := by
        have hlength := congrArg List.length heq
        rw [List.length_append] at hlength
        omega
      rw [heq]
      exact .swap hw (scan_replaced hr n t hshort)

theorem sub_replaced (hr : r.NonEmpty) (s : List α) : Replaced r new s (sub r new s) :=
  scan_replaced hr s.length s (Nat.le_refl _)

/-- A replacement that begins and ends with letters of its own, foreign to the words in question
and not around any of them. -/
structure Bracketed (L : List α → Prop) (new : List α) : Prop where
  opens : ∃ c rest, new = c :: rest ∧ ∀ w, L w → c ∉ w
  closes : ∃ init c, new = init ++ [c] ∧ ∀ w, L w → c ∉ w
  outside : ∀ w, L w → ¬ w <:+: new

/-- What stands in the result before the first replacement stood in the list. -/
theorem Replaced.literal {L : List α → Prop} (hnew : Bracketed L new) {s out h u : List α}
    (hs : Replaced r new s out) (heq : out = h ++ u) {v w : List α} (hw : L (v ++ h ++ w)) :
    ∃ t, s = h ++ t ∧ Replaced r new t u := by
  induction h generalizing s out v with
  | nil =>
    rw [List.nil_append] at heq
    exact ⟨s, rfl, heq ▸ hs⟩
  | cons c h ih =>
    obtain ⟨d, rest, hopen, hforeign⟩ := hnew.opens
    rw [List.cons_append] at heq
    cases hs with
    | nil => cases heq
    | @keep e _ _ _ hrest =>
      obtain ⟨rfl, hrest'⟩ := List.cons.inj heq
      have hw' : L ((v ++ [e]) ++ h ++ w) := by simpa using hw
      obtain ⟨t, rfl, ht⟩ := ih hrest hrest' hw'
      exact ⟨t, rfl, ht⟩
    | swap _ _ =>
      rw [hopen, List.cons_append] at heq
      obtain ⟨rfl, -⟩ := List.cons.inj heq
      exact absurd (by simp) (hforeign _ hw)

/-- A word does not begin inside a replacement. -/
theorem Bracketed.begins {L : List α → Prop} (hnew : Bracketed L new) {pre h u out : List α}
    (hh : L h) (heq : new ++ out = pre ++ (h ++ u)) : ∃ pre', pre = new ++ pre' := by
  rcases List.append_eq_append_iff.mp heq with ⟨pre', hpre, -⟩ | ⟨suf, hsuf, hrest⟩
  · exact ⟨pre', hpre⟩
  · -- the word would begin within the replacement: it ends there too, or it takes in the end of it
    rcases List.append_eq_append_iff.mp hrest with ⟨more, hmore, -⟩ | ⟨more, hmore, -⟩
    · refine absurd ⟨pre, more, ?_⟩ (hnew.outside h hh)
      rw [hsuf, hmore, List.append_assoc]
    · obtain ⟨init, c, hclose, hforeign⟩ := hnew.closes
      rcases List.eq_nil_or_concat suf with rfl | ⟨front, d, rfl⟩
      · exact ⟨[], by rw [List.append_nil, hsuf, List.append_nil]⟩
      · have hlast : c = d := by
          have hends := hclose.symm.trans hsuf
          rw [List.concat_eq_append, ← List.append_assoc] at hends
          exact List.singleton_injective (List.append_inj_right' hends rfl)
        refine absurd ?_ (hforeign h hh)
        rw [hmore, hlast]
        simp

/-- **Nothing comes in**: a word that is not in the list is not in the result. -/
theorem Replaced.absent {L : List α → Prop} (hnew : Bracketed L new) {s out : List α}
    (hs : Replaced r new s out) (hnone : ∀ w, L w → ¬ w <:+: s) : ∀ w, L w → ¬ w <:+: out := by
  induction hs with
  | nil => exact hnone
  | @keep c cs out hfirst rest ih =>
    rintro w hw ⟨pre, post, heq⟩
    cases pre with
    | nil =>
      have hout : c :: out = w ++ post := by simpa using heq.symm
      have hw' : L ([] ++ w ++ []) := by simpa using hw
      obtain ⟨t, ht, -⟩ := (Replaced.keep hfirst rest).literal hnew hout hw'
      exact hnone w hw ⟨[], t, by simpa using ht.symm⟩
    | cons d pre =>
      rw [List.cons_append, List.cons_append] at heq
      obtain ⟨-, heq⟩ := List.cons.inj heq
      refine ih (fun v hv hin => hnone v hv (hin.trans (List.suffix_cons c cs).isInfix)) w hw ?_
      exact ⟨pre, post, heq⟩
  | @swap v t out hv rest ih =>
    rintro w hw ⟨pre, post, heq⟩
    obtain ⟨pre', rfl⟩ := hnew.begins hw (by rw [← heq, List.append_assoc])
    refine ih (fun u hu hin => hnone u hu (hin.trans (List.suffix_append v t).isInfix)) w hw ?_
    refine ⟨pre', post, ?_⟩
    rw [List.append_assoc, List.append_assoc] at heq
    rw [List.append_assoc]
    exact List.append_cancel_left heq

/-- **Nothing is left**: if every word of the pattern is a head followed by a letter of a class,
every such head and letter make a word, and a word begins with a letter of that class, then no
head is followed by such a letter in the result. -/
theorem Replaced.clean {L : List α → Prop} {value : α → Bool} (hnew : Bracketed L new)
    (hword : ∀ h c, L h → value c = true → r.Spells (h ++ [c]))
    (hfirst : ∀ w, r.Spells w → ∃ c rest, w = c :: rest ∧ value c = true) {s out : List α}
    (hs : Replaced r new s out) :
    ∀ h c, L h → value c = true → ¬ (h ++ [c]) <:+: out := by
  induction hs with
  | nil =>
    rintro h c - - hin
    have hlen := hin.length_le
    simp at hlen
  | @keep d cs out hnone rest ih =>
    rintro h c hh hc ⟨pre, post, heq⟩
    cases pre with
    | nil =>
      have hout : d :: out = h ++ c :: post := by simpa using heq.symm
      have hh' : L ([] ++ h ++ []) := by simpa using hh
      obtain ⟨t, ht, hreplaced⟩ := (Replaced.keep hnone rest).literal hnew hout hh'
      -- what follows the head in the list begins with a letter of the class as well
      have hnext : ∃ e more, t = e :: more ∧ value e = true := by
        generalize htail : c :: post = tail at hreplaced
        cases hreplaced with
        | nil => cases htail
        | keep _ _ =>
          obtain ⟨rfl, -⟩ := List.cons.inj htail
          exact ⟨c, _, rfl, hc⟩
        | swap hw _ =>
          obtain ⟨e, more, rfl, he⟩ := hfirst _ hw
          exact ⟨e, _, rfl, he⟩
      obtain ⟨e, more, rfl, he⟩ := hnext
      exact hnone (h ++ [e]) more (hword h e hh he) (by simpa using ht)
    | cons d' pre =>
      rw [List.cons_append, List.cons_append] at heq
      obtain ⟨-, heq⟩ := List.cons.inj heq
      exact ih h c hh hc ⟨pre, post, heq⟩
  | @swap v t out hv rest ih =>
    rintro h c hh hc ⟨pre, post, heq⟩
    have hsplit : new ++ out = pre ++ (h ++ c :: post) := by rw [← heq]; simp
    obtain ⟨pre', rfl⟩ := hnew.begins hh hsplit
    refine ih h c hh hc ⟨pre', post, ?_⟩
    rw [List.append_assoc, List.append_assoc] at heq
    rw [List.append_assoc]
    exact List.append_cancel_left heq

end Pattern

end ContentOrchestrator.Lib
