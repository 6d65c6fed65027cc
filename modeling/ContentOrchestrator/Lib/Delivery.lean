import Mathlib.Data.List.Nodup
import Mathlib.Data.List.Count

/-! # Delivery by high-water marks

Messages are numbered within partitions and offered to several consumers. A consumer
keeps one mark for each partition, and what is numbered at or below it is not offered to
that consumer again. A message has one status and one counter of failed attempts for all
its consumers, and a failure that brings the counter to the limit of the consumer that
failed poisons it. The log of the attempts made so far is kept beside the relay: it says
what each consumer has handled, and how often it has failed itself. -/

namespace ContentOrchestrator.Lib.Delivery

variable {C P T : Type}

inductive Status
  | pending | dispatched | poison
deriving DecidableEq, Repr

structure Message (P T : Type) where
  kind : T
  partition : P
  sequence : Nat
  status : Status := .pending
  failures : Nat := 0

/-- The message under another status and counter. -/
def Message.mark (m : Message P T) (status : Status) (failures : Nat) : Message P T :=
  { m with status, failures }

/-- One call of a consumer's handler. -/
structure Attempt (C : Type) where
  consumer : C
  message : Nat
  succeeded : Bool
deriving DecidableEq, Repr

/-- Who is registered, and for which kinds of message. -/
structure Subscribers (C T : Type) where
  names : List C
  takes : C → T → Bool
  unique : names.Nodup

@[ext] structure Relay (C P T : Type) where
  messages : Nat → Option (Message P T)
  mark : C → P → Nat
  limit : C → Nat
  deadLettered : C → Nat → Bool

/-- The message is the same but for its status and counter. -/
structure SameMessage (m m' : Message P T) : Prop where
  kind : m'.kind = m.kind
  partition : m'.partition = m.partition
  sequence : m'.sequence = m.sequence

theorem SameMessage.refl (m : Message P T) : SameMessage m m := ⟨rfl, rfl, rfl⟩

theorem SameMessage.trans {a b c : Message P T} (h : SameMessage a b) (h' : SameMessage b c) :
    SameMessage a c :=
  ⟨h'.kind.trans h.kind, h'.partition.trans h.partition, h'.sequence.trans h.sequence⟩

/-- The message is one the consumer takes and has not passed. -/
def Relay.isOffered (takes : C → T → Bool) (r : Relay C P T) (m : Message P T) (c : C) : Bool :=
  takes c m.kind && decide (r.mark c m.partition < m.sequence)

/-- What a consumer is offered depends on its own mark only. -/
theorem isOffered_congr {takes : C → T → Bool} {r r' : Relay C P T} {m m' : Message P T} {c : C}
    (hsame : SameMessage m m') (hmark : r'.mark c m.partition = r.mark c m.partition) :
    r'.isOffered takes m' c = r.isOffered takes m c := by
  unfold Relay.isOffered
  rw [hsame.kind, hsame.partition, hsame.sequence, hmark]

theorem isOffered_iff {takes : C → T → Bool} {r : Relay C P T} {m : Message P T} {c : C} :
    r.isOffered takes m c = true ↔ takes c m.kind = true ∧ r.mark c m.partition < m.sequence := by
  simp [Relay.isOffered]

/-- The consumers whose handler is called and fails. -/
def Relay.failing (takes : C → T → Bool) (succeeds : C → Bool) (consumers : List C)
    (m : Message P T) (r : Relay C P T) : List C :=
  consumers.filter fun c => r.isOffered takes m c && !succeeds c

/-- Failing in turn, these consumers bring the counter to the limit of one of them. -/
def exhausts (limit : C → Nat) : Nat → List C → Bool
  | _, [] => false
  | n, c :: rest => decide (limit c ≤ n + 1) || exhausts limit (n + 1) rest

theorem exhausts_append {limit : C → Nat} {xs ys : List C} {n : Nat} :
    exhausts limit n (xs ++ ys) = (exhausts limit n xs || exhausts limit (n + xs.length) ys) := by
  induction xs generalizing n with
  | nil => simp [exhausts]
  | cons c rest ih =>
    rw [List.cons_append, exhausts, exhausts, ih, Bool.or_assoc, List.length_cons,
      Nat.add_right_comm, Nat.add_assoc]

variable [DecidableEq C] [DecidableEq P]

namespace Relay

def setMessage (k : Nat) (m : Message P T) (r : Relay C P T) : Relay C P T :=
  { r with messages := fun j => if j = k then some m else r.messages j }

def advance (c : C) (p : P) (n : Nat) (r : Relay C P T) : Relay C P T :=
  { r with mark := fun d q => if d = c ∧ q = p then n else r.mark d q }

def deadLetter (c : C) (k : Nat) (r : Relay C P T) : Relay C P T :=
  { r with deadLettered := fun d j => r.deadLettered d j || (decide (d = c) && decide (j = k)) }

/-- A failed attempt at a message. -/
def fail (c : C) (k : Nat) (m : Message P T) (r : Relay C P T) : Bool × Relay C P T :=
  if r.limit c ≤ m.failures + 1 then
    (false, (r.setMessage k (m.mark .poison (m.failures + 1))).deadLetter c k)
  else (true, r.setMessage k (m.mark m.status (m.failures + 1)))

/-- One consumer's turn; the answer says whether it still has the message to take. -/
def offer (takes : C → T → Bool) (succeeds : C → Bool) (k : Nat) (c : C) (r : Relay C P T) :
    Bool × Relay C P T :=
  match r.messages k with
  | none => (false, r)
  | some m =>
    if r.isOffered takes m c then
      if succeeds c then (false, r.advance c m.partition m.sequence) else r.fail c k m
    else (false, r)

def offerAll (takes : C → T → Bool) (succeeds : C → Bool) (k : Nat) :
    List C → Relay C P T → Bool × Relay C P T
  | [], r => (false, r)
  | c :: rest, r =>
    let first := r.offer takes succeeds k c
    let later := offerAll takes succeeds k rest first.2
    (first.1 || later.1, later.2)

/-- A message is dispatched once nobody has it still to take, unless it was poisoned. -/
def settle (k : Nat) (pending : Bool) (r : Relay C P T) : Relay C P T :=
  match r.messages k with
  | none => r
  | some m => if m.status ≠ .poison ∧ pending = false then
      r.setMessage k (m.mark .dispatched m.failures) else r

/-- **Deliver one message** to its consumers in turn. -/
def deliver (subs : Subscribers C T) (succeeds : C → Bool) (k : Nat) (r : Relay C P T) :
    Relay C P T :=
  (r.offerAll subs.takes succeeds k subs.names).2.settle k
    (r.offerAll subs.takes succeeds k subs.names).1

/-- The consumers a delivery calls. -/
def called (subs : Subscribers C T) (k : Nat) (r : Relay C P T) : List C :=
  match r.messages k with
  | none => []
  | some m => subs.names.filter (r.isOffered subs.takes m)

end Relay

/-- A relay with the log of its attempts. -/
structure Logged (C P T : Type) where
  relay : Relay C P T
  log : List (Attempt C)

namespace Logged

def handled (x : Logged C P T) (c : C) (k : Nat) : Prop := ⟨c, k, true⟩ ∈ x.log

/-- How often this consumer has failed on the message itself. -/
def ownFailures (x : Logged C P T) (c : C) (k : Nat) : Nat := x.log.count ⟨c, k, false⟩

def deliver (subs : Subscribers C T) (succeeds : C → Bool) (k : Nat) (x : Logged C P T) :
    Logged C P T where
  relay := x.relay.deliver subs succeeds k
  log := x.log ++ (x.relay.called subs k).map fun c => ⟨c, k, succeeds c⟩

def publish (k : Nat) (m : Message P T) (x : Logged C P T) : Logged C P T :=
  { x with relay := x.relay.setMessage k m }

end Logged

/-! ## What a delivery does -/

/-- What one turn of each of some consumers does with a message. -/
structure Offered (takes : C → T → Bool) (succeeds : C → Bool) (k : Nat) (consumers : List C)
    (m : Message P T) (r r' : Relay C P T) (pending : Bool) (m' : Message P T) : Prop where
  message : r'.messages k = some m'
  same : SameMessage m m'
  others : ∀ j, j ≠ k → r'.messages j = r.messages j
  limit : r'.limit = r.limit
  mark : ∀ c p, r'.mark c p =
    if c ∈ consumers ∧ p = m.partition ∧ r.isOffered takes m c = true ∧ succeeds c = true then
      m.sequence
    else r.mark c p
  failures : m'.failures = m.failures + (r.failing takes succeeds consumers m).length
  status : m'.status = m.status ∨ m'.status = .poison
  poisons : m'.status = .poison ↔
    m.status = .poison ∨ exhausts r.limit m.failures (r.failing takes succeeds consumers m) = true
  kept : pending = false → m'.status ≠ .poison → r.failing takes succeeds consumers m = []
  letters : ∀ c j, r'.deadLettered c j = true → r.deadLettered c j = true ∨
    j = k ∧ c ∈ r.failing takes succeeds consumers m ∧
      exhausts r.limit m.failures (r.failing takes succeeds consumers m) = true
  lettered : ∀ c j, r.deadLettered c j = true → r'.deadLettered c j = true
  tells : exhausts r.limit m.failures (r.failing takes succeeds consumers m) = true →
    ∃ c, r'.deadLettered c k = true

theorem Offered.trans {takes : C → T → Bool} {succeeds : C → Bool} {k : Nat} {xs ys : List C}
    {r r₁ r₂ : Relay C P T} {m m₁ m₂ : Message P T} {b₁ b₂ : Bool}
    (h : Offered takes succeeds k xs m r r₁ b₁ m₁) (h' : Offered takes succeeds k ys m₁ r₁ r₂ b₂ m₂)
    (hdisjoint : ∀ c ∈ ys, c ∉ xs) : Offered takes succeeds k (xs ++ ys) m r r₂ (b₁ || b₂) m₂ := by
  -- the turns of the first consumers leave the marks of the others alone
  have hother : ∀ c ∈ ys, r₁.isOffered takes m₁ c = r.isOffered takes m c := by
    intro c hc
    refine isOffered_congr h.same ?_
    rw [h.mark, if_neg]
    exact fun hxs => hdisjoint c hc hxs.1
  have hfailing : r₁.failing takes succeeds ys m₁ = r.failing takes succeeds ys m := by
    refine List.filter_congr fun c hc => ?_
    rw [hother c hc]
  have happend : r.failing takes succeeds (xs ++ ys) m =
      r.failing takes succeeds xs m ++ r.failing takes succeeds ys m := List.filter_append _ _
  have hexhausts : exhausts r.limit m.failures (r.failing takes succeeds (xs ++ ys) m) =
      (exhausts r.limit m.failures (r.failing takes succeeds xs m) ||
        exhausts r₁.limit m₁.failures (r₁.failing takes succeeds ys m₁)) := by
    rw [happend, exhausts_append, hfailing, h.limit, h.failures]
  refine ⟨h'.message, h.same.trans h'.same, fun j hj => (h'.others j hj).trans (h.others j hj),
    h'.limit.trans h.limit, fun c p => ?_, ?_, ?_, ?_, fun hb hne => ?_, fun c j hletter => ?_,
    fun c j hletter => h'.lettered c j (h.lettered c j hletter), fun hlimit => ?_⟩
  · rw [h'.mark, h.mark, h.same.partition, h.same.sequence]
    by_cases hys : c ∈ ys
    · have hxs : c ∉ xs := hdisjoint c hys
      simp [hys, hxs, hother c hys]
    · simp [hys]
  · rw [h'.failures, h.failures, hfailing, happend, List.length_append, Nat.add_assoc]
  · rcases h'.status with hstatus | hstatus
    · rw [hstatus]
      exact h.status
    · exact .inr hstatus
  · rw [h'.poisons, h.poisons, hexhausts, Bool.or_eq_true, or_assoc]
  · obtain ⟨hb₁, hb₂⟩ := Bool.or_eq_false_iff.mp hb
    have hne₁ : m₁.status ≠ .poison := fun hpoison => hne (h'.poisons.mpr (.inl hpoison))
    rw [happend, h.kept hb₁ hne₁, ← hfailing, h'.kept hb₂ hne]
    rfl
  · rw [hexhausts, happend, Bool.or_eq_true, List.mem_append, ← hfailing]
    rcases h'.letters c j hletter with hold | ⟨hj, hc, hlimit⟩
    · rcases h.letters c j hold with hold | ⟨hj, hc, hlimit⟩
      · exact .inl hold
      · exact .inr ⟨hj, .inl hc, .inl hlimit⟩
    · exact .inr ⟨hj, .inr hc, .inr hlimit⟩
  · rw [hexhausts, Bool.or_eq_true] at hlimit
    rcases hlimit with hlimit | hlimit
    · obtain ⟨c, hletter⟩ := h.tells hlimit
      exact ⟨c, h'.lettered c k hletter⟩
    · exact h'.tells hlimit

theorem offer_offered {takes : C → T → Bool} {succeeds : C → Bool} {k : Nat} {c : C}
    {r : Relay C P T} {m : Message P T} (hm : r.messages k = some m) :
    ∃ m', Offered takes succeeds k [c] m r (r.offer takes succeeds k c).2
      (r.offer takes succeeds k c).1 m' := by
  cases hoffered : r.isOffered takes m c with
  | false =>
    have hfailing : r.failing takes succeeds [c] m = [] := by simp [Relay.failing, hoffered]
    have hoffer : r.offer takes succeeds k c = (false, r) := by simp [Relay.offer, hm, hoffered]
    rw [hoffer]
    refine ⟨m, hm, .refl m, fun _ _ => rfl, rfl, fun d p => ?_, by simp [hfailing], .inl rfl, ?_,
      fun _ _ => hfailing, fun _ _ h => .inl h, fun _ _ h => h, by simp [hfailing, exhausts]⟩
    · rw [if_neg]
      rintro ⟨hd, -, hcalled, -⟩
      rw [List.mem_singleton.mp hd, hoffered] at hcalled
      cases hcalled
    · simp [hfailing, exhausts]
  | true =>
    cases hok : succeeds c with
    | true =>
      have hfailing : r.failing takes succeeds [c] m = [] := by simp [Relay.failing, hok]
      have hoffer : r.offer takes succeeds k c = (false, r.advance c m.partition m.sequence) := by
        simp [Relay.offer, hm, hoffered, hok]
      rw [hoffer]
      refine ⟨m, hm, .refl m, fun _ _ => rfl, rfl,
        fun d p => ?_, by simp [hfailing], .inl rfl, ?_, fun _ _ => hfailing,
        fun _ _ h => .inl h, fun _ _ h => h, by simp [hfailing, exhausts]⟩
      · by_cases hd : d = c
        · subst hd
          simp [Relay.advance, hoffered, hok]
        · simp [Relay.advance, hd]
      · simp [hfailing, exhausts]
    | false =>
      have hfailing : r.failing takes succeeds [c] m = [c] := by simp [Relay.failing, hoffered, hok]
      have hoffer : r.offer takes succeeds k c =
          r.fail c k m := by simp [Relay.offer, hm, hoffered, hok]
      have hmark : ∀ d p, r.mark d p =
          if d ∈ [c] ∧ p = m.partition ∧ r.isOffered takes m d = true ∧ succeeds d = true then
            m.sequence
          else r.mark d p := by
        intro d p
        rw [if_neg]
        rintro ⟨hd, -, -, hdone⟩
        rw [List.mem_singleton.mp hd, hok] at hdone
        cases hdone
      rw [hoffer]
      unfold Relay.fail
      split
      · rename_i hlimit
        refine ⟨m.mark .poison (m.failures + 1), ?_, ⟨rfl, rfl, rfl⟩, fun j hj => ?_, rfl,
          hmark, by simp [hfailing, Message.mark], .inr rfl, ?_,
          fun _ hne => absurd rfl hne, fun d j hletter => ?_, fun d j hletter => ?_,
            fun _ => ⟨c, ?_⟩⟩
        · simp [Relay.deadLetter, Relay.setMessage]
        · simp [Relay.deadLetter, Relay.setMessage, hj]
        · simp [hfailing, exhausts, hlimit, Message.mark]
        · simp only [Relay.deadLetter, Relay.setMessage, Bool.or_eq_true, Bool.and_eq_true,
            decide_eq_true_eq] at hletter
          rcases hletter with hold | ⟨rfl, rfl⟩
          · exact .inl hold
          · exact .inr ⟨rfl, by simp [hfailing], by simp [hfailing, exhausts, hlimit]⟩
        · simp [Relay.deadLetter, Relay.setMessage, hletter]
        · simp [Relay.deadLetter, Relay.setMessage]
      · rename_i hlimit
        refine ⟨m.mark m.status (m.failures + 1), ?_, ⟨rfl, rfl, rfl⟩, fun j hj => ?_, rfl,
          hmark, by simp [hfailing, Message.mark], .inl rfl, ?_,
          (by simp), fun _ _ h => .inl h, fun _ _ h => h, by simp [hfailing, exhausts, hlimit]⟩
        · simp [Relay.setMessage]
        · simp [Relay.setMessage, hj]
        · simp [hfailing, exhausts, hlimit, Message.mark]

theorem offerAll_offered {takes : C → T → Bool} {succeeds : C → Bool} {k : Nat} {consumers : List C}
    (hunique : consumers.Nodup) :
    ∀ {r : Relay C P T} {m : Message P T}, r.messages k = some m →
      ∃ m', Offered takes succeeds k consumers m r (r.offerAll takes succeeds k consumers).2
        (r.offerAll takes succeeds k consumers).1 m' := by
  induction consumers with
  | nil =>
    intro r m hm
    exact ⟨m, hm, .refl m, fun _ _ => rfl, rfl, fun _ _ => by simp [Relay.offerAll], rfl, .inl rfl,
      by simp [Relay.failing, exhausts], fun _ _ => rfl, fun _ _ h => .inl h, fun _ _ h => h,
      by simp [Relay.failing, exhausts]⟩
  | cons c rest ih =>
    intro r m hm
    obtain ⟨hc, hrest⟩ := List.nodup_cons.mp hunique
    obtain ⟨m₁, hfirst⟩ : ∃ m₁, Offered takes succeeds k [c] m r (r.offer takes succeeds k c).2
        (r.offer takes succeeds k c).1 m₁ := offer_offered hm
    obtain ⟨m₂, hlater⟩ := ih hrest hfirst.message
    refine ⟨m₂, hfirst.trans hlater fun d hd hmem => ?_⟩
    rw [List.mem_singleton] at hmem
    exact hc (hmem ▸ hd)

/-- What the delivery of a pending message does. -/
structure Delivered (subs : Subscribers C T) (succeeds : C → Bool) (k : Nat) (m : Message P T)
    (r r' : Relay C P T) (m' : Message P T) : Prop where
  message : r'.messages k = some m'
  same : SameMessage m m'
  others : ∀ j, j ≠ k → r'.messages j = r.messages j
  limit : r'.limit = r.limit
  mark : ∀ c p, r'.mark c p =
    if c ∈ subs.names ∧ p = m.partition ∧ r.isOffered subs.takes m c = true ∧ succeeds c = true then
      m.sequence
    else r.mark c p
  poisons : exhausts r.limit m.failures (r.failing subs.takes succeeds subs.names m) = true →
    m'.status = .poison
  waits : r.failing subs.takes succeeds subs.names m ≠ [] →
    exhausts r.limit m.failures (r.failing subs.takes succeeds subs.names m) = false →
      m'.status = .pending
  letters : ∀ c j, r'.deadLettered c j = true → r.deadLettered c j = true ∨
    j = k ∧ c ∈ r.failing subs.takes succeeds subs.names m ∧
      exhausts r.limit m.failures (r.failing subs.takes succeeds subs.names m) = true
  lettered : ∀ c j, r.deadLettered c j = true → r'.deadLettered c j = true
  tells : exhausts r.limit m.failures (r.failing subs.takes succeeds subs.names m) = true →
    ∃ c, r'.deadLettered c k = true

theorem deliver_delivered {subs : Subscribers C T} {succeeds : C → Bool} {k : Nat} {r : Relay C P T}
    {m : Message P T} (hm : r.messages k = some m) (hpending : m.status = .pending) :
    ∃ m', Delivered subs succeeds k m r (r.deliver subs succeeds k) m' := by
  obtain ⟨m₁, h⟩ : ∃ m₁, Offered subs.takes succeeds k subs.names m r
      (r.offerAll subs.takes succeeds k subs.names).2
        (r.offerAll subs.takes succeeds k subs.names).1 m₁ :=
    offerAll_offered subs.unique hm
  have hpoisons := h.poisons
  rw [hpending] at hpoisons
  unfold Relay.deliver Relay.settle
  rw [h.message]
  simp only
  split
  · rename_i hsettled
    refine ⟨m₁.mark .dispatched m₁.failures, by simp [Relay.setMessage],
      ⟨h.same.kind, h.same.partition, h.same.sequence⟩, fun j hj => ?_, h.limit, h.mark,
      fun hlimit => ?_, fun hfailing _ => ?_, h.letters, h.lettered, h.tells⟩
    · simp only [Relay.setMessage, hj, if_false]
      exact h.others j hj
    · exact absurd (hpoisons.mpr (.inr hlimit)) hsettled.1
    · exact absurd (h.kept hsettled.2 hsettled.1) hfailing
  · rename_i hstays
    refine ⟨m₁, h.message, h.same, h.others, h.limit, h.mark, fun hlimit =>
      hpoisons.mpr (.inr hlimit),
      fun _ hlimit => ?_, h.letters, h.lettered, h.tells⟩
    have hne : m₁.status ≠ .poison := by
      intro hpoison
      rcases hpoisons.mp hpoison with hstatus | hexhausted
      · cases hstatus
      · rw [hlimit] at hexhausted
        cases hexhausted
    rcases h.status with hstatus | hstatus
    · exact hstatus.trans hpending
    · exact absurd hstatus hne

/-- What is logged of a delivery. -/
theorem mem_log_deliver {subs : Subscribers C T} {succeeds : C → Bool} {k : Nat} {x : Logged C P T}
    {m : Message P T} (hm : x.relay.messages k = some m) {a : Attempt C} :
    a ∈ (x.deliver subs succeeds k).log ↔ a ∈ x.log ∨
      a.message = k ∧ a.consumer ∈ subs.names ∧ x.relay.isOffered subs.takes m a.consumer = true ∧
        a.succeeded = succeeds a.consumer := by
  simp only [Logged.deliver, Relay.called, hm, List.mem_append, List.mem_map, List.mem_filter]
  constructor
  · rintro (hold | ⟨c, ⟨hc, hoffered⟩, rfl⟩)
    · exact .inl hold
    · exact .inr ⟨rfl, hc, hoffered, rfl⟩
  · rintro (hold | ⟨hk, hc, hoffered, hok⟩)
    · exact .inl hold
    · refine .inr ⟨a.consumer, ⟨hc, hoffered⟩, ?_⟩
      cases a
      simp_all

section Step

variable {subs : Subscribers C T} {succeeds : C →
  Bool} {k : Nat} {x : Logged C P T} {m : Message P T}

theorem handled_deliver (hm : x.relay.messages k = some m) {c : C} {j : Nat} :
    (x.deliver subs succeeds k).handled c j ↔ x.handled c j ∨
      j = k ∧ c ∈ subs.names ∧ x.relay.isOffered subs.takes m c = true ∧ succeeds c = true := by
  have hmem : (⟨c, j, true⟩ : Attempt C) ∈ (x.deliver subs succeeds k).log ↔
      (⟨c, j, true⟩ : Attempt C) ∈ x.log ∨
      j = k ∧ c ∈ subs.names ∧ x.relay.isOffered subs.takes m c = true ∧ true = succeeds c :=
        mem_log_deliver hm
  have hok : true = succeeds c ↔ succeeds c = true := eq_comm
  unfold Logged.handled
  rw [hmem, hok]

namespace Delivered

variable {r r' : Relay C P T} {m' : Message P T}

theorem mark_le (h : Delivered subs succeeds k m r r' m') (c : C) (p : P) :
    r.mark c p ≤ r'.mark c p := by
  rw [h.mark]
  split
  · rename_i hadvanced
    obtain ⟨-, rfl, hoffered, -⟩ := hadvanced
    exact Nat.le_of_lt (isOffered_iff.mp hoffered).2
  · exact Nat.le_refl _

/-- Any message afterwards is the one it was before, but for its status and counter. -/
theorem message_of (h : Delivered subs succeeds k m r r' m') (hm : r.messages k = some m) {j : Nat}
    {n : Message P T} (hn : r.messages j = some n) :
    ∃ n', r'.messages j = some n' ∧ SameMessage n n' := by
  by_cases hj : j = k
  · subst hj
    rw [hm] at hn
    cases hn
    exact ⟨m', h.message, h.same⟩
  · exact ⟨n, (h.others j hj).trans hn, .refl n⟩

/-- What a consumer is offered after the delivery it was offered before. -/
theorem offered_before (h : Delivered subs succeeds k m r r' m') {n n' : Message P T}
    (hsame : SameMessage n n') {c : C} (hoffered : r'.isOffered subs.takes n' c = true) :
    r.isOffered subs.takes n c = true := by
  obtain ⟨htakes, hbelow⟩ := isOffered_iff.mp hoffered
  rw [hsame.kind] at htakes
  rw [hsame.partition, hsame.sequence] at hbelow
  exact isOffered_iff.mpr ⟨htakes, Nat.lt_of_le_of_lt (h.mark_le c n.partition) hbelow⟩

/-- A consumer that is still offered the message has failed on it. -/
theorem failing_of_offered (h : Delivered subs succeeds k m r r' m') {c : C} (hc : c ∈ subs.names)
    (hoffered : r'.isOffered subs.takes m' c = true) :
    c ∈ r.failing subs.takes succeeds subs.names m := by
  have hbefore : r.isOffered subs.takes m c = true := h.offered_before h.same hoffered
  have hbelow := (isOffered_iff.mp hoffered).2
  rw [h.same.partition, h.same.sequence, h.mark] at hbelow
  refine List.mem_filter.mpr ⟨hc, ?_⟩
  cases hok : succeeds c with
  | false => simp [hbefore]
  | true =>
    rw [if_pos ⟨hc, rfl, hbefore, hok⟩] at hbelow
    exact absurd hbelow (Nat.lt_irrefl _)

/-- A consumer that fails keeps its mark. -/
theorem offered_of_failing (h : Delivered subs succeeds k m r r' m') {c : C}
    (hfails : c ∈ r.failing subs.takes succeeds subs.names m) :
    r'.isOffered subs.takes m' c = true := by
  obtain ⟨-, hcalled⟩ := List.mem_filter.mp hfails
  obtain ⟨hoffered, hfailed⟩ := Bool.and_eq_true_iff.mp hcalled
  rw [isOffered_congr h.same, hoffered]
  rw [h.mark, if_neg]
  rintro ⟨-, -, -, hok⟩
  rw [hok] at hfailed
  cases hfailed

end Delivered

/-! ## No loss -/

/-- The bookkeeping behind the marks: a consumer has passed what it has handled, and no mark is
beyond the messages published. -/
structure Logged.Sound (x : Logged C P T) : Prop where
  passed : ∀ c k, x.handled c k →
    ∃ m, x.relay.messages k = some m ∧ m.sequence ≤ x.relay.mark c m.partition
  reached : ∀ c p, 0 < x.relay.mark c p →
    ∃ k m, x.relay.messages k = some m ∧ m.partition = p ∧ x.relay.mark c p ≤ m.sequence

/-- **No loss**: each of its consumers has handled the message, or will still be offered it, or the
message has been dead-lettered. -/
def Logged.Lossless (subs : Subscribers C T) (x : Logged C P T) : Prop :=
  ∀ k m, x.relay.messages k = some m → ∀ c ∈ subs.names, subs.takes c m.kind = true →
    x.handled c k ∨ m.status = .pending ∧ x.relay.mark c m.partition < m.sequence ∨
      m.status = .poison ∧ ∃ d, x.relay.deadLettered d k = true

/-- No consumer succeeds while an earlier message of the partition is still pending for it. -/
def InOrder (subs : Subscribers C T) (succeeds : C → Bool) (k : Nat) (x : Logged C P T) : Prop :=
  ∀ m, x.relay.messages k = some m → ∀ c ∈ subs.names, x.relay.isOffered subs.takes m c = true →
    succeeds c = true → ∀ j n, j ≠ k → x.relay.messages j = some n → n.partition = m.partition →
      n.sequence ≤ m.sequence → x.relay.isOffered subs.takes n c = true → n.status ≠ .pending

theorem deliver_sound (hm : x.relay.messages k = some m) (hpending : m.status = .pending)
    (hs : x.Sound) :
    (x.deliver subs succeeds k).Sound := by
  obtain ⟨m', h⟩ : ∃ m', Delivered subs succeeds k m x.relay (x.deliver subs succeeds k).relay m' :=
    deliver_delivered hm hpending
  refine ⟨fun c j hhandled => ?_, fun c p hpositive => ?_⟩
  · rcases (handled_deliver hm).mp hhandled with hold | ⟨rfl, hc, hoffered, hok⟩
    · obtain ⟨n, hn, hpassed⟩ := hs.passed c j hold
      obtain ⟨n', hn', hsame⟩ := h.message_of hm hn
      refine ⟨n', hn', ?_⟩
      rw [hsame.sequence, hsame.partition]
      exact Nat.le_trans hpassed (h.mark_le c n.partition)
    · refine ⟨m', h.message, ?_⟩
      have hmark : m.sequence = (x.deliver subs succeeds j).relay.mark c m.partition := by
        rw [h.mark, if_pos ⟨hc, rfl, hoffered, hok⟩]
      rw [h.same.sequence, h.same.partition]
      exact Nat.le_of_eq hmark
  · rw [h.mark] at hpositive ⊢
    split at hpositive
    · rename_i hadvanced
      rw [if_pos hadvanced]
      exact ⟨k, m', h.message, h.same.partition.trans hadvanced.2.1.symm,
        Nat.le_of_eq h.same.sequence.symm⟩
    · rename_i hstays
      rw [if_neg hstays]
      obtain ⟨j, n, hn, hpartition, hle⟩ := hs.reached c p hpositive
      obtain ⟨n', hn', hsame⟩ := h.message_of hm hn
      refine ⟨j, n', hn', hsame.partition.trans hpartition, ?_⟩
      rw [hsame.sequence]
      exact hle

/-- **A delivery loses nothing exactly when it is in order.** -/
theorem deliver_lossless (hm : x.relay.messages k = some m) (hpending : m.status = .pending)
    (hs : x.Sound) (hx : x.Lossless subs) :
    (x.deliver subs succeeds k).Lossless subs ↔ InOrder subs succeeds k x := by
  obtain ⟨m', h⟩ : ∃ m', Delivered subs succeeds k m x.relay (x.deliver subs succeeds k).relay m' :=
    deliver_delivered hm hpending
  constructor
  · intro hafter m₀ hm₀ c hc hoffered hok j n hj hn hpartition hle hnext hwaits
    rw [hm] at hm₀
    cases hm₀
    obtain ⟨htakes, hbelow⟩ := isOffered_iff.mp hnext
    have hn' : (x.deliver subs succeeds k).relay.messages j = some n := (h.others j hj).trans hn
    rcases hafter j n hn' c hc htakes with hhandled | ⟨-, hlt⟩ | ⟨hpoison, -⟩
    · rcases (handled_deliver hm).mp hhandled with hold | ⟨hjk, -⟩
      · obtain ⟨n₀, hn₀, hpassed⟩ := hs.passed c j hold
        rw [hn] at hn₀
        cases hn₀
        omega
      · exact hj hjk
    · rw [h.mark, if_pos ⟨hc, hpartition, hoffered, hok⟩] at hlt
      omega
    · rw [hwaits] at hpoison
      cases hpoison
  · intro horder j n' hn' c hc htakes
    by_cases hj : j = k
    · -- the message delivered: whoever was called has handled it or failed on it
      subst hj
      rw [h.message] at hn'
      cases hn'
      rw [h.same.kind] at htakes
      rw [handled_deliver hm]
      by_cases hbelow : x.relay.mark c m.partition < m.sequence
      · have hoffered := isOffered_iff.mpr ⟨htakes, hbelow⟩
        cases hok : succeeds c with
        | true => exact .inl (.inr ⟨rfl, hc, hoffered, rfl⟩)
        | false =>
          have hfails : c ∈ x.relay.failing subs.takes succeeds subs.names m :=
            List.mem_filter.mpr ⟨hc, by simp [hoffered, hok]⟩
          cases hlimit :
            exhausts x.relay.limit m.failures
              (x.relay.failing subs.takes succeeds subs.names m) with
          | true => exact .inr (.inr ⟨h.poisons hlimit, h.tells hlimit⟩)
          | false =>
            have hnext := (isOffered_iff.mp (h.offered_of_failing hfails)).2
            exact .inr (.inl ⟨h.waits (List.ne_nil_of_mem hfails) hlimit, hnext⟩)
      · rcases hx j m hm c hc htakes with hhandled | ⟨-, hlt⟩ | ⟨hpoison, -⟩
        · exact .inl (.inl hhandled)
        · exact absurd hlt hbelow
        · rw [hpending] at hpoison
          cases hpoison
    · -- any other message: only an advance past it could lose it
      have hn : x.relay.messages j = some n' := (h.others j hj).symm.trans hn'
      rw [handled_deliver hm]
      rcases hx j n' hn c hc htakes with hhandled | ⟨hwaits, hlt⟩ | ⟨hpoison, d, hletter⟩
      · exact .inl (.inl hhandled)
      · refine .inr (.inl ⟨hwaits, ?_⟩)
        rw [h.mark]
        split
        · rename_i hadvanced
          obtain ⟨-, hpartition, hoffered, hok⟩ := hadvanced
          by_contra hle
          exact horder m hm c hc hoffered hok j n' hj hn hpartition (by omega)
            (isOffered_iff.mpr ⟨htakes, hlt⟩) hwaits
        · exact hlt
      · exact .inr (.inr ⟨hpoison, d, h.lettered d j hletter⟩)

/-! ## Isolation -/

/-- **Isolation**: what a consumer has not passed is pending for it until its own failures reach its
limit, and it is dead-lettered for a message only then. -/
structure Logged.Isolated (subs : Subscribers C T) (x : Logged C P T) : Prop where
  delivery : ∀ k m, x.relay.messages k = some m →
    ∀ c ∈ subs.names, x.relay.isOffered subs.takes m c = true →
    m.status = .pending ∨ x.relay.limit c ≤ x.ownFailures c k
  letters : ∀ c k, x.relay.deadLettered c k = true → x.relay.limit c ≤ x.ownFailures c k

/-- If the delivery poisons the message, every consumer that fails in it has used up its limit
itself. -/
def PoisonsAlone (subs : Subscribers C T) (succeeds : C → Bool) (k : Nat) (x : Logged C P T) :
    Prop :=
  ∀ m, x.relay.messages k = some m →
    exhausts x.relay.limit m.failures (x.relay.failing subs.takes succeeds subs.names m) = true →
      ∀ c ∈ x.relay.failing subs.takes succeeds subs.names m, x.relay.limit c ≤
        x.ownFailures c k + 1

theorem ownFailures_le (c : C) (j : Nat) :
    x.ownFailures c j ≤ (x.deliver subs succeeds k).ownFailures c j := by
  unfold Logged.ownFailures Logged.deliver
  rw [List.count_append]
  exact Nat.le_add_right _ _

/-- A consumer that fails in the delivery is logged for it once. -/
theorem ownFailures_failing (hm : x.relay.messages k = some m) {c : C}
    (hfails : c ∈ x.relay.failing subs.takes succeeds subs.names m) :
    (x.deliver subs succeeds k).ownFailures c k = x.ownFailures c k + 1 := by
  obtain ⟨hc, hcalled⟩ := List.mem_filter.mp hfails
  obtain ⟨hoffered, hfailed⟩ := Bool.and_eq_true_iff.mp hcalled
  have hfailed : succeeds c = false := by simpa using hfailed
  have hunique : ((subs.names.filter (x.relay.isOffered subs.takes m)).map fun d =>
      (⟨d, k, succeeds d⟩ : Attempt C)).Nodup := by
    refine List.Nodup.map_on ?_ (subs.unique.filter _)
    intro d _ d' _ heq
    injection heq
  unfold Logged.ownFailures Logged.deliver Relay.called
  rw [hm, List.count_append]
  simp only [Nat.add_left_cancel_iff]
  refine List.count_eq_one_of_mem hunique
    (List.mem_map.mpr ⟨c, List.mem_filter.mpr ⟨hc, hoffered⟩, ?_⟩)
  rw [hfailed]

/-- **A delivery keeps consumers apart exactly when it poisons for nobody else.** -/
theorem deliver_isolated (hm : x.relay.messages k = some m) (hpending : m.status = .pending)
    (hx : x.Isolated subs) :
    (x.deliver subs succeeds k).Isolated subs ↔ PoisonsAlone subs succeeds k x := by
  obtain ⟨m', h⟩ : ∃ m', Delivered subs succeeds k m x.relay (x.deliver subs succeeds k).relay m' :=
    deliver_delivered hm hpending
  have hlimit : (x.deliver subs succeeds k).relay.limit = x.relay.limit := h.limit
  have hgrows : ∀ c j, x.relay.limit c ≤ x.ownFailures c j →
      (x.deliver subs succeeds k).relay.limit c ≤ (x.deliver subs succeeds k).ownFailures c j := by
    intro c j hle
    rw [hlimit]
    exact Nat.le_trans hle (ownFailures_le c j)
  constructor
  · intro hafter m₀ hm₀ hexhausted c hfails
    rw [hm] at hm₀
    cases hm₀
    have hc : c ∈ subs.names := (List.mem_filter.mp hfails).1
    rcases hafter.delivery k m' h.message c hc (h.offered_of_failing hfails) with hwaits | hown
    · rw [h.poisons hexhausted] at hwaits
      cases hwaits
    · rw [hlimit, ownFailures_failing hm hfails] at hown
      exact hown
  · intro halone
    have hfailing : ∀ c ∈ x.relay.failing subs.takes succeeds subs.names m,
        exhausts x.relay.limit m.failures (x.relay.failing subs.takes succeeds subs.names m) =
          true →
        (x.deliver subs succeeds k).relay.limit c ≤
            (x.deliver subs succeeds k).ownFailures c k := by
      intro c hfails hexhausted
      rw [hlimit, ownFailures_failing hm hfails]
      exact halone m hm hexhausted c hfails
    refine ⟨fun j n' hn' c hc hoffered => ?_, fun c j hletter => ?_⟩
    · by_cases hj : j = k
      · subst hj
        rw [h.message] at hn'
        cases hn'
        have hfails := h.failing_of_offered hc hoffered
        cases hexhausted :
          exhausts x.relay.limit m.failures (x.relay.failing subs.takes succeeds subs.names m) with
        | true => exact .inr (hfailing c hfails hexhausted)
        | false => exact .inl (h.waits (List.ne_nil_of_mem hfails) hexhausted)
      · have hn : x.relay.messages j = some n' := (h.others j hj).symm.trans hn'
        rcases hx.delivery j n' hn c hc (h.offered_before (.refl n') hoffered) with hwaits | hown
        · exact .inl hwaits
        · exact .inr (hgrows c j hown)
    · rcases h.letters c j hletter with hold | ⟨rfl, hfails, hexhausted⟩
      · exact hgrows c j (hx.letters c j hold)
      · exact hfailing c hfails hexhausted

end Step

/-! ## Publishing -/

/-- The message is new, and numbered beyond every message of its partition. -/
structure Fresh (k : Nat) (m : Message P T) (r : Relay C P T) : Prop where
  absent : r.messages k = none
  pending : m.status = .pending
  positive : 0 < m.sequence
  beyond : ∀ j n, r.messages j = some n → n.partition = m.partition → n.sequence < m.sequence

section Publish

omit [DecidableEq C] [DecidableEq P]

variable {subs : Subscribers C T} {k : Nat} {x : Logged C P T} {m : Message P T}

theorem publish_messages (k : Nat) (m : Message P T) (j : Nat) :
    (x.publish k m).relay.messages j = if j = k then some m else x.relay.messages j := rfl

theorem Fresh.kept (hfresh : Fresh k m x.relay) {j : Nat} {n : Message P T}
    (hn : x.relay.messages j = some n) :
    (x.publish k m).relay.messages j = some n := by
  rw [publish_messages, if_neg]
  · exact hn
  · rintro rfl
    rw [hfresh.absent] at hn
    cases hn

/-- No consumer has passed a new message. -/
theorem Fresh.mark_lt (hfresh : Fresh k m x.relay) (hs : x.Sound) (c : C) :
    x.relay.mark c m.partition < m.sequence := by
  by_cases hpositive : 0 < x.relay.mark c m.partition
  · obtain ⟨j, n, hn, hpartition, hle⟩ := hs.reached c _ hpositive
    exact Nat.lt_of_le_of_lt hle (hfresh.beyond j n hn hpartition)
  · have := hfresh.positive
    omega

theorem publish_sound (hfresh : Fresh k m x.relay) (hs : x.Sound) : (x.publish k m).Sound := by
  refine ⟨fun c j hhandled => ?_, fun c p hpositive => ?_⟩
  · obtain ⟨n, hn, hpassed⟩ := hs.passed c j hhandled
    exact ⟨n, hfresh.kept hn, hpassed⟩
  · obtain ⟨j, n, hn, hpartition, hle⟩ := hs.reached c p hpositive
    exact ⟨j, n, hfresh.kept hn, hpartition, hle⟩

theorem publish_lossless (hfresh : Fresh k m x.relay) (hs : x.Sound) (hx : x.Lossless subs) :
    (x.publish k m).Lossless subs := by
  intro j n hn c hc htakes
  rw [publish_messages] at hn
  split at hn
  · cases hn
    exact .inr (.inl ⟨hfresh.pending, hfresh.mark_lt hs c⟩)
  · exact hx j n hn c hc htakes

end Publish

omit [DecidableEq P] in
theorem publish_isolated {subs : Subscribers C T} {k : Nat} {x : Logged C P T} {m : Message P T}
    (hfresh : Fresh k m x.relay) (hx : x.Isolated subs) : (x.publish k m).Isolated subs := by
  refine ⟨fun j n hn c hc hoffered => ?_, hx.letters⟩
  rw [publish_messages] at hn
  split at hn
  · cases hn
    exact .inl hfresh.pending
  · exact hx.delivery j n hn c hc hoffered

end ContentOrchestrator.Lib.Delivery
