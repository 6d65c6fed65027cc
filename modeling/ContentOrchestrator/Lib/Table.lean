import Mathlib.Data.List.Nodup
import Mathlib.Algebra.Order.BigOperators.Group.List
import Mathlib.Algebra.Order.Group.Nat
import Mathlib.Algebra.GroupWithZero.Nat

/-! # Keyed tables

A table is a list of rows in insertion order with a numeric primary key. The
table hands the keys out itself, so a row is always inserted under a fresh key,
and both facts the proofs need (keys are distinct, keys lie below the next one)
are fields of the structure. Updates never change a key. `total` sums a weight
over the rows; `count` is the weight of a predicate. Every operation comes with
its membership, lookup and total lemma, and nothing below ever unfolds a list. -/

namespace ContentOrchestrator.Lib

/-- A row type with a numeric primary key. -/
class Keyed (α : Type) where
  key : α → Nat

open Keyed

/-- A change of a row that leaves its key alone. -/
structure Update (α : Type) [Keyed α] where
  apply : α → α
  key_apply : ∀ a, key (apply a) = key a

/-- One change after the other. -/
def Update.andThen {α : Type} [Keyed α] (u v : Update α) : Update α :=
  ⟨fun a => v.apply (u.apply a), fun a => (v.key_apply _).trans (u.key_apply a)⟩

/-- A row still to be given its key. -/
structure NewRow (α : Type) [Keyed α] where
  make : Nat → α
  key_make : ∀ k, key (make k) = k

structure Table (α : Type) [Keyed α] where
  rows : List α
  next : Nat
  fresh : ∀ r ∈ rows, key r < next
  nodup : (rows.map key).Nodup

namespace Table

variable {α : Type} [Keyed α]

instance : Membership α (Table α) := ⟨fun t a => a ∈ t.rows⟩

theorem mem_def {t : Table α} {a : α} : a ∈ t ↔ a ∈ t.rows := Iff.rfl

instance {p : α → Prop} [DecidablePred p] {t : Table α} : Decidable (∀ a ∈ t, p a) :=
  inferInstanceAs (Decidable (∀ a ∈ t.rows, p a))

instance {p : α → Prop} [DecidablePred p] {t : Table α} : Decidable (∃ a ∈ t, p a) :=
  inferInstanceAs (Decidable (∃ a ∈ t.rows, p a))

instance : EmptyCollection (Table α) := ⟨⟨[], 0, by simp, by simp⟩⟩

instance : Inhabited (Table α) := ⟨∅⟩

/-- A new last row, under the next key. -/
def insert (t : Table α) (row : NewRow α) : Table α where
  rows := t.rows ++ [row.make t.next]
  next := t.next + 1
  fresh := by
    intro r hr
    rcases List.mem_append.mp hr with hr | hr
    · exact Nat.lt_succ_of_lt (t.fresh r hr)
    · rw [List.mem_singleton.mp hr, row.key_make]; exact Nat.lt_succ_self _
  nodup := by
    rw [List.map_append, List.nodup_append]
    refine ⟨t.nodup, by simp, ?_⟩
    intro k hk j hj
    obtain ⟨r, hr, rfl⟩ := List.mem_map.mp hk
    have hlt := t.fresh r hr
    simp only [List.map_cons, List.map_nil, List.mem_singleton, row.key_make] at hj
    omega

/-- Every row that satisfies `p` is replaced by its image. -/
def modifyWhere (t : Table α) (p : α → Bool) (u : Update α) : Table α where
  rows := t.rows.map fun a => if p a then u.apply a else a
  next := t.next
  fresh := by
    intro r hr
    obtain ⟨a, ha, rfl⟩ := List.mem_map.mp hr
    split
    · rw [u.key_apply]; exact t.fresh a ha
    · exact t.fresh a ha
  nodup := by
    have hk : (key ∘ fun a => if p a then u.apply a else a) = (key : α → Nat) := by
      funext a
      simp only [Function.comp]
      split
      · exact u.key_apply a
      · rfl
    rw [List.map_map, hk]
    exact t.nodup

/-- The row under one key is replaced by its image. -/
def modify (t : Table α) (k : Nat) (u : Update α) : Table α :=
  t.modifyWhere (fun a => key a == k) u

/-- The rows that satisfy `p` are gone; their keys are not handed out again. -/
def deleteWhere (t : Table α) (p : α → Bool) : Table α where
  rows := t.rows.filter fun a => !p a
  next := t.next
  fresh r hr := t.fresh r (List.mem_of_mem_filter hr)
  nodup := t.nodup.sublist (List.filter_sublist.map key)

/-- Primary-key lookup. -/
def get? (t : Table α) (k : Nat) : Option α := t.rows.find? fun a => key a == k

/-- The sum of a weight over all rows. -/
def total (t : Table α) (w : α → Nat) : Nat := (t.rows.map w).sum

/-- The number of rows that satisfy `p`. -/
def count (t : Table α) (p : α → Bool) : Nat := t.total fun a => (p a).toNat

/-- The rows that satisfy `p`, in insertion order. -/
def select (t : Table α) (p : α → Bool) : List α := t.rows.filter p

/-! ## Membership and lookup -/

theorem mem_insert {t : Table α} {row : NewRow α} {b : α} :
    b ∈ t.insert row ↔ b ∈ t ∨ b = row.make t.next := by
  simp [mem_def, insert]

theorem mem_modifyWhere {t : Table α} {p : α → Bool} {u : Update α} {b : α} :
    b ∈ t.modifyWhere p u ↔ ∃ a ∈ t, (if p a then u.apply a else a) = b := by
  simp [mem_def, modifyWhere]

theorem mem_modify {t : Table α} {k : Nat} {u : Update α} {b : α} :
    b ∈ t.modify k u ↔ ∃ a ∈ t, (if key a = k then u.apply a else a) = b := by
  simp [modify, mem_modifyWhere]

theorem mem_deleteWhere {t : Table α} {p : α → Bool} {a : α} :
    a ∈ t.deleteWhere p ↔ a ∈ t ∧ p a = false := by
  simp [mem_def, deleteWhere]

theorem mem_select {t : Table α} {p : α → Bool} {a : α} :
    a ∈ t.select p ↔ a ∈ t ∧ p a = true := by
  simp [mem_def, select]

theorem mem_empty {a : α} : a ∉ (∅ : Table α) := by
  intro h; exact absurd (mem_def.mp h) (by simp [EmptyCollection.emptyCollection])

@[simp] theorem next_insert {t : Table α} {row : NewRow α} :
    (t.insert row).next = t.next + 1 := rfl

@[simp] theorem next_modifyWhere {t : Table α} {p : α → Bool} {u : Update α} :
    (t.modifyWhere p u).next = t.next := rfl

@[simp] theorem next_modify {t : Table α} {k : Nat} {u : Update α} :
    (t.modify k u).next = t.next := rfl

theorem key_lt {t : Table α} {a : α} (ha : a ∈ t) : key a < t.next := t.fresh a ha

theorem eq_of_key {t : Table α} {a b : α} (ha : a ∈ t) (hb : b ∈ t) (h : key a = key b) : a = b :=
  List.inj_on_of_nodup_map t.nodup ha hb h

theorem get?_eq_some {t : Table α} {k : Nat} {a : α} :
    t.get? k = some a ↔ a ∈ t ∧ key a = k := by
  constructor
  · intro h
    refine ⟨List.mem_of_find?_eq_some h, ?_⟩
    have := List.find?_some h
    simpa using this
  · rintro ⟨ha, rfl⟩
    cases hf : t.get? (key a) with
    | none =>
      have hn := List.find?_eq_none.mp hf a ha
      simp at hn
    | some b =>
      have hk := List.find?_some hf
      have hb : b ∈ t := List.mem_of_find?_eq_some hf
      rw [eq_of_key hb ha (by simpa using hk)]

theorem get?_of_mem {t : Table α} {a : α} (ha : a ∈ t) : t.get? (key a) = some a :=
  get?_eq_some.mpr ⟨ha, rfl⟩

theorem get?_eq_none {t : Table α} {k : Nat} : t.get? k = none ↔ ∀ a ∈ t, key a ≠ k := by
  constructor
  · intro h a ha hk
    rw [← hk, get?_of_mem ha] at h
    cases h
  · intro h
    cases hg : t.get? k with
    | none => rfl
    | some a => exact absurd (get?_eq_some.mp hg).2 (h a (get?_eq_some.mp hg).1)

theorem get?_next {t : Table α} : t.get? t.next = none :=
  get?_eq_none.mpr fun _ ha h => absurd (key_lt ha) (by omega)

theorem get?_insert {t : Table α} {row : NewRow α} {k : Nat} :
    (t.insert row).get? k = if k = t.next then some (row.make t.next) else t.get? k := by
  split
  · rename_i hk
    exact get?_eq_some.mpr ⟨mem_insert.mpr (.inr rfl), by rw [row.key_make, hk]⟩
  · rename_i hk
    cases hg : t.get? k with
    | none =>
      refine get?_eq_none.mpr fun a ha => ?_
      rcases mem_insert.mp ha with ha | rfl
      · exact get?_eq_none.mp hg a ha
      · rw [row.key_make]; exact Ne.symm hk
    | some a =>
      obtain ⟨ha, hk⟩ := get?_eq_some.mp hg
      exact get?_eq_some.mpr ⟨mem_insert.mpr (.inl ha), hk⟩

theorem get?_modifyWhere {t : Table α} {p : α → Bool} {u : Update α} {k : Nat} :
    (t.modifyWhere p u).get? k = (t.get? k).map fun a => if p a then u.apply a else a := by
  have hkey : ∀ a, key (if p a then u.apply a else a) = key a := by
    intro a; split
    · exact u.key_apply a
    · rfl
  cases hg : t.get? k with
  | none =>
    refine get?_eq_none.mpr fun b hb => ?_
    obtain ⟨a, ha, rfl⟩ := mem_modifyWhere.mp hb
    rw [hkey]; exact get?_eq_none.mp hg a ha
  | some a =>
    obtain ⟨ha, hk⟩ := get?_eq_some.mp hg
    exact get?_eq_some.mpr ⟨mem_modifyWhere.mpr ⟨a, ha, rfl⟩, by rw [hkey, hk]⟩

theorem get?_modify {t : Table α} {k : Nat} {u : Update α} {j : Nat} :
    (t.modify k u).get? j = if j = k then (t.get? k).map u.apply else t.get? j := by
  rw [modify, get?_modifyWhere]
  cases hg : t.get? j with
  | none => split <;> simp_all
  | some a =>
    have hk := (get?_eq_some.mp hg).2
    by_cases hjk : j = k
    · subst hjk; simp [hg, hk]
    · simp [hk, hjk]

theorem get?_modified {t : Table α} {k : Nat} {a : α} (u : Update α) (h : t.get? k = some a) :
    (t.modify k u).get? k = some (u.apply a) := by
  rw [get?_modify, if_pos rfl, h]
  rfl

/-! ## Updating a list of rows one by one -/

theorem ext_rows {s t : Table α} (hr : s.rows = t.rows) (hn : s.next = t.next) : s = t := by
  cases s; cases t
  simp only at hr hn
  subst hr hn
  rfl

theorem modifyWhere_congr {t : Table α} {p q : α → Bool} {u : Update α}
    (hpq : ∀ a ∈ t, p a = q a) : t.modifyWhere p u = t.modifyWhere q u := by
  refine ext_rows (List.map_congr_left fun a ha => ?_) rfl
  rw [hpq a ha]

/-- Two changes that agree on the row are the same change of the table. -/
theorem modify_congr {t : Table α} {k : Nat} {u v : Update α}
    (h : ∀ a, t.get? k = some a → u.apply a = v.apply a) :
    t.modify k u = t.modify k v := by
  refine ext_rows (List.map_congr_left fun a ha => ?_) rfl
  by_cases hk : (key a == k) = true
  · simp only [if_pos hk]
    exact h a (get?_eq_some.mpr ⟨ha, beq_iff_eq.mp hk⟩)
  · simp only [if_neg hk]

theorem modify_modify {t : Table α} {k : Nat} {u v : Update α} :
    (t.modify k u).modify k v = t.modify k (u.andThen v) := by
  refine ext_rows ?_ rfl
  simp only [modify, modifyWhere, List.map_map]
  refine List.map_congr_left fun a _ => ?_
  simp only [Function.comp]
  by_cases hk : key a = k
  · simp [hk, u.key_apply, Update.andThen]
  · simp [hk]

theorem modify_modifyWhere {t : Table α} {k : Nat} {p : α → Bool} {u : Update α}
    (hu : ∀ a, u.apply (u.apply a) = u.apply a) (hp : ∀ a, p (u.apply a) = p a) :
    (t.modify k u).modifyWhere p u = t.modifyWhere (fun a => key a == k || p a) u := by
  refine ext_rows ?_ rfl
  simp only [modify, modifyWhere, List.map_map]
  refine List.map_congr_left fun a _ => ?_
  simp only [Function.comp]
  by_cases hk : (key a == k) = true
  · simp only [hk, if_true, Bool.true_or, hp, hu]
    split <;> rfl
  · simp only [hk, Bool.false_eq_true, if_false, Bool.false_or]

theorem modifyWhere_false {t : Table α} {u : Update α} :
    t.modifyWhere (fun _ => false) u = t :=
  ext_rows (List.map_id' t.rows) rfl

/-- Updating the listed rows one by one is one update of all of them, for an update
that does nothing the second time. -/
theorem foldl_modify {u : Update α} (hu : ∀ a, u.apply (u.apply a) = u.apply a) :
    ∀ (l : List α) (t : Table α),
      l.foldl (fun t a => t.modify (key a) u) t =
        t.modifyWhere (fun b => decide (key b ∈ l.map key)) u
  | [], t => by simp [modifyWhere_false]
  | a :: l, t => by
    rw [List.foldl_cons, foldl_modify hu l]
    refine ext_rows ?_ rfl
    simp only [modify, modifyWhere, List.map_map]
    refine List.map_congr_left fun b _ => ?_
    by_cases hb : key b = key a
    · by_cases hl : key a ∈ l.map key <;> simp_all
    · by_cases hl : key b ∈ l.map key <;> simp_all

theorem mem_keys_select {t : Table α} {p : α → Bool} {a : α} (ha : a ∈ t) :
    key a ∈ (t.select p).map key ↔ p a = true := by
  constructor
  · intro h
    obtain ⟨b, hb, hk⟩ := List.mem_map.mp h
    obtain ⟨hbt, hpb⟩ := mem_select.mp hb
    rw [← eq_of_key hbt ha hk]
    exact hpb
  · intro h
    exact List.mem_map_of_mem (mem_select.mpr ⟨ha, h⟩)

/-- Updating every selected row in turn updates exactly the rows that were selected. -/
theorem foldl_modify_select {u : Update α} (hu : ∀ a, u.apply (u.apply a) = u.apply a)
    (t : Table α) (p : α → Bool) :
    (t.select p).foldl (fun t a => t.modify (key a) u) t = t.modifyWhere p u := by
  rw [foldl_modify hu]
  refine modifyWhere_congr fun a ha => ?_
  have hsel := mem_keys_select (p := p) ha
  cases hp : p a <;> simp_all

/-! ## Selections

A selection changes only where a selected row does: these are the rules by which a
view built from selections is carried across an operation. -/

theorem select_insert {t : Table α} {row : NewRow α} {p : α → Bool} :
    (t.insert row).select p =
      t.select p ++ if p (row.make t.next) then [row.make t.next] else [] := by
  simp only [select, insert, List.filter_append, List.filter_cons, List.filter_nil]

theorem select_insert_of_not {t : Table α} {row : NewRow α} {p : α → Bool}
    (hp : p (row.make t.next) = false) : (t.insert row).select p = t.select p := by
  rw [select_insert, hp]
  simp

/-- An update that respects the predicate maps the selection. -/
theorem select_modifyWhere {t : Table α} {p q : α → Bool} {u : Update α}
    (hp : ∀ a ∈ t, q a = true → p (u.apply a) = p a) :
    (t.modifyWhere q u).select p = (t.select p).map fun a => if q a then u.apply a else a := by
  have hfun : ∀ a ∈ t.rows, (p ∘ fun a => if q a = true then u.apply a else a) a = p a := by
    intro a ha
    simp only [Function.comp]
    split
    · rename_i hq; exact hp a ha hq
    · rfl
  simp only [select, modifyWhere, List.filter_map]
  rw [List.filter_congr hfun]

theorem head?_select_insert {t : Table α} {row : NewRow α} {p : α → Bool} :
    ((t.insert row).select p).head? =
      ((t.select p).head?).or (if p (row.make t.next) then some (row.make t.next) else none) := by
  rw [select_insert, List.head?_append]
  split <;> rfl

/-- An update that respects the predicate leaves the first row that satisfies it first. -/
theorem head?_select_modify {t : Table α} {p : α → Bool} {k : Nat} {u : Update α}
    (hp : ∀ a, p (u.apply a) = p a) :
    ((t.modify k u).select p).head? = ((t.select p).head?).map fun a =>
    if key a == k then u.apply a else a := by
  have hselect : (t.modify k u).select p = (t.select p).map fun a =>
      if key a == k then u.apply a else a :=
    select_modifyWhere fun a _ _ => hp a
  rw [hselect, List.head?_map]

theorem select_modifyWhere_of_not {t : Table α} {p q : α → Bool} {u : Update α}
    (hp : ∀ a ∈ t, q a = true → p a = false ∧ p (u.apply a) = false) :
    (t.modifyWhere q u).select p = t.select p := by
  rw [select_modifyWhere fun a ha hq => by rw [(hp a ha hq).1, (hp a ha hq).2]]
  refine (List.map_congr_left fun a ha => ?_).trans (List.map_id' _)
  obtain ⟨hmem, hpa⟩ := mem_select.mp ha
  cases hq : q a with
  | false => rfl
  | true => rw [(hp a hmem hq).1] at hpa; cases hpa

/-- An update that ends a row's part in the selection filters it out. -/
theorem select_modifyWhere_leave {t : Table α} {p q : α → Bool} {u : Update α}
    (hp : ∀ a, p (u.apply a) = false) :
    (t.modifyWhere q u).select p = (t.select p).filter fun a => !q a := by
  simp only [select, modifyWhere, List.filter_map, List.filter_filter]
  have hkeep : t.rows.filter (p ∘ fun a => if q a = true then u.apply a else a) =
      t.rows.filter fun a => !q a && p a := by
    refine List.filter_congr fun a _ => ?_
    cases hq : q a <;> simp [hq, hp]
  rw [hkeep]
  refine (List.map_congr_left fun a ha => ?_).trans (List.map_id' _)
  have hq := (List.mem_filter.mp ha).2
  cases hqa : q a with
  | false => rfl
  | true => rw [hqa] at hq; cases hq

theorem select_modify_of_not {t : Table α} {p : α → Bool} {k : Nat} {u : Update α}
    (hp : ∀ a, t.get? k = some a → p a = false ∧ p (u.apply a) = false) :
    (t.modify k u).select p = t.select p :=
  select_modifyWhere_of_not fun a ha hk => hp a (get?_eq_some.mpr ⟨ha, by simpa using hk⟩)

theorem select_eq_nil {t : Table α} {p : α → Bool} : t.select p = [] ↔ ∀ a ∈ t, p a = false := by
  unfold select
  rw [List.filter_eq_nil_iff]
  simp only [Bool.not_eq_true]
  exact Iff.rfl

/-- A row outside the selection cannot be filtered out of it. -/
theorem select_filter_key {t : Table α} {p : α → Bool} {a : α} (ha : a ∈ t) (hp : p a = false) :
    ((t.select p).filter fun b => !(key b == key a)) = t.select p := by
  refine List.filter_eq_self.mpr fun b hb => ?_
  obtain ⟨hbt, hpb⟩ := mem_select.mp hb
  have hne : key b ≠ key a := by
    intro hk
    rw [eq_of_key hbt ha hk, hp] at hpb
    cases hpb
  simpa using hne

/-- Nor is it changed within the selection. -/
theorem select_map_key {t : Table α} {p : α → Bool} {f : α → α} {a : α} (ha : a ∈ t)
    (hp : p a = false) :
    ((t.select p).map fun b => if key b == key a then f b else b) = t.select p := by
  refine (List.map_congr_left fun b hb => ?_).trans (List.map_id' _)
  obtain ⟨hbt, hpb⟩ := mem_select.mp hb
  have hne : key b ≠ key a := by
    intro hk
    rw [eq_of_key hbt ha hk, hp] at hpb
    cases hpb
  simp [hne]

/-- The rows a count counts are the rows selected. -/
theorem count_eq_length_select {t : Table α} {p : α → Bool} : t.count p = (t.select p).length := by
  unfold count total select
  induction t.rows with
  | nil => rfl
  | cons a rest ih =>
    simp only [List.map_cons, List.sum_cons, ih, List.filter_cons]
    cases p a <;> simp [Nat.add_comm]

/-! ## How a table evolves -/

/-- Every old row has a successor, and every row without a predecessor is new. -/
structure Evolves (R : α → α → Prop) (New : α → Prop) (s t : Table α) : Prop where
  old : ∀ a ∈ s, ∃ b ∈ t, R a b
  new : ∀ b ∈ t, (∃ a ∈ s, R a b) ∨ New b

namespace Evolves

variable {R : α → α → Prop} {New : α → Prop} {s t : Table α}

theorem of_eq (hrefl : ∀ a, R a a) (h : t = s) : Evolves R New s t where
  old a ha := ⟨a, h ▸ ha, hrefl a⟩
  new b hb := .inl ⟨b, h ▸ hb, hrefl b⟩

theorem modifyWhere {q : α → Bool} {u : Update α} (hrefl : ∀ a, R a a)
    (hu : ∀ a ∈ s, q a = true → R a (u.apply a)) (h : t = s.modifyWhere q u) :
    Evolves R New s t := by
  have hrow : ∀ a ∈ s, R a (if q a then u.apply a else a) := by
    intro a ha
    split
    · exact hu a ha ‹_›
    · exact hrefl a
  subst h
  refine ⟨fun a ha => ⟨_, mem_modifyWhere.mpr ⟨a, ha, rfl⟩, hrow a ha⟩, fun b hb => ?_⟩
  obtain ⟨a, ha, rfl⟩ := mem_modifyWhere.mp hb
  exact .inl ⟨a, ha, hrow a ha⟩

theorem modify {k : Nat} {u : Update α} (hrefl : ∀ a, R a a)
    (hu : ∀ a, s.get? k = some a → R a (u.apply a)) (h : t = s.modify k u) : Evolves R New s t :=
  modifyWhere hrefl (fun a ha hk => hu a (get?_eq_some.mpr ⟨ha, by simpa using hk⟩)) h

theorem insert {row : NewRow α} (hrefl : ∀ a, R a a) (hrow : New (row.make s.next))
    (h : t = s.insert row) : Evolves R New s t := by
  subst h
  refine ⟨fun a ha => ⟨a, mem_insert.mpr (.inl ha), hrefl a⟩, fun b hb => ?_⟩
  rcases mem_insert.mp hb with hb | rfl
  · exact .inl ⟨b, hb, hrefl b⟩
  · exact .inr hrow

theorem mono {R' : α → α → Prop} {New' : α → Prop} (hR : ∀ a ∈ s, ∀ b ∈ t, R a b → R' a b)
    (hNew : ∀ b ∈ t, New b → New' b) (h : Evolves R New s t) : Evolves R' New' s t where
  old a ha := by
    obtain ⟨b, hb, hab⟩ := h.old a ha
    exact ⟨b, hb, hR a ha b hb hab⟩
  new b hb := by
    rcases h.new b hb with ⟨a, ha, hab⟩ | hnew
    · exact .inl ⟨a, ha, hR a ha b hb hab⟩
    · exact .inr (hNew b hb hnew)

/-- The successor of the row under a key, when a step keeps keys. -/
theorem get? (h : Evolves R New s t) (hkey : ∀ a b, R a b → key b = key a) {k : Nat} {a : α}
    (ha : s.get? k = some a) : ∃ b, t.get? k = some b ∧ R a b := by
  obtain ⟨hmem, hk⟩ := get?_eq_some.mp ha
  obtain ⟨b, hb, hab⟩ := h.old a hmem
  exact ⟨b, get?_eq_some.mpr ⟨hb, (hkey a b hab).trans hk⟩, hab⟩

/-- Where the row under a key comes from. -/
theorem back (h : Evolves R New s t) (hkey : ∀ a b, R a b → key b = key a) {k : Nat} {b : α}
    (hb : t.get? k = some b) : (∃ a, s.get? k = some a ∧ R a b) ∨ New b := by
  obtain ⟨hmem, hk⟩ := get?_eq_some.mp hb
  rcases h.new b hmem with ⟨a, ha, hab⟩ | hnew
  · exact .inl ⟨a, get?_eq_some.mpr ⟨ha, (hkey a b hab).symm.trans hk⟩, hab⟩
  · exact .inr hnew

theorem trans {u : Table α} (hR : ∀ a b c, R a b → R b c → R a c)
    (hNew : ∀ a b, New a → R a b → New b) (h : Evolves R New s t) (h' : Evolves R New t u) :
    Evolves R New s u where
  old a ha := by
    obtain ⟨b, hb, hab⟩ := h.old a ha
    obtain ⟨c, hc, hbc⟩ := h'.old b hb
    exact ⟨c, hc, hR a b c hab hbc⟩
  new c hc := by
    rcases h'.new c hc with ⟨b, hb, hbc⟩ | hnew
    · rcases h.new b hb with ⟨a, ha, hab⟩ | hnew
      · exact .inl ⟨a, ha, hR a b c hab hbc⟩
      · exact .inr (hNew b c hnew hbc)
    · exact .inr hnew

end Evolves

/-! ## Totals -/

@[simp] theorem total_empty {w : α → Nat} : (∅ : Table α).total w = 0 := rfl

theorem total_insert {t : Table α} {row : NewRow α} {w : α → Nat} :
    (t.insert row).total w = t.total w + w (row.make t.next) := by
  simp [total, insert]

theorem total_congr {t : Table α} {v w : α → Nat} (h : ∀ a ∈ t, v a = w a) :
    t.total v = t.total w := by
  unfold total
  rw [List.map_congr_left h]

theorem total_modifyWhere {t : Table α} {p : α → Bool} {u : Update α} {w : α → Nat} :
    (t.modifyWhere p u).total w = t.total fun a => w (if p a then u.apply a else a) := by
  simp [total, modifyWhere, List.map_map, Function.comp_def]

theorem total_mono {t : Table α} {v w : α → Nat} (h : ∀ a ∈ t, v a ≤ w a) :
    t.total v ≤ t.total w :=
  List.sum_le_sum h

theorem total_add {t : Table α} {v w : α → Nat} :
    (t.total fun a => v a + w a) = t.total v + t.total w :=
  List.sum_map_add

theorem le_total {t : Table α} {a : α} (ha : a ∈ t) (w : α → Nat) : w a ≤ t.total w :=
  List.single_le_sum (fun _ _ => Nat.zero_le _) _ (List.mem_map_of_mem ha)

/-- Replacing the list entry under one key moves the sum by exactly that entry. -/
private theorem sum_replace (w : α → Nat) (f : α → α) (a : α) :
    ∀ rows : List α, (rows.map key).Nodup → a ∈ rows →
      ((rows.map fun b => if key b = key a then f b else b).map w).sum + w a =
        (rows.map w).sum + w (f a)
  | [], _, ha => by cases ha
  | b :: rest, hn, ha => by
    obtain ⟨hb, hrest⟩ := List.nodup_cons.mp hn
    by_cases hk : key b = key a
    · have hba : b = a := by
        rcases List.mem_cons.mp ha with rfl | ha
        · rfl
        · exact absurd (hk ▸ List.mem_map_of_mem ha) hb
      subst hba
      -- the key occurs once, so the tail is left as it is
      have htail : (rest.map fun c => if key c = key b then f c else c) = rest := by
        refine (List.map_congr_left fun c hc => if_neg ?_).trans (List.map_id' rest)
        intro he
        exact hb (he ▸ List.mem_map_of_mem hc)
      simp only [List.map_cons, htail, if_true, List.sum_cons]
      omega
    · rcases List.mem_cons.mp ha with rfl | ha
      · exact absurd rfl hk
      · have ih := sum_replace w f a rest hrest ha
        simp only [List.map_cons, hk, if_false, List.sum_cons] at ih ⊢
        omega

/-- **One update moves a total by exactly the updated row.** -/
theorem total_modify {t : Table α} {k : Nat} {u : Update α} {a : α} (ha : t.get? k = some a)
    (w : α → Nat) : (t.modify k u).total w + w a = t.total w + w (u.apply a) := by
  obtain ⟨hmem, rfl⟩ := get?_eq_some.mp ha
  simpa [modify, modifyWhere, total] using sum_replace w u.apply a t.rows t.nodup hmem

theorem modify_of_none {t : Table α} {k : Nat} {u : Update α} (ha : t.get? k = none) :
    t.modify k u = t := by
  have hrows : (t.modify k u).rows = t.rows := by
    refine (List.map_congr_left fun c hc => if_neg ?_).trans (List.map_id' t.rows)
    simpa using get?_eq_none.mp ha c hc
  cases t
  simpa [modify, modifyWhere] using hrows

/-! ## Counting -/

theorem count_insert {t : Table α} {row : NewRow α} {p : α → Bool} :
    (t.insert row).count p = t.count p + (p (row.make t.next)).toNat := total_insert

theorem count_modify {t : Table α} {k : Nat} {u : Update α} {a : α} (ha : t.get? k = some a)
    (p : α → Bool) : (t.modify k u).count p + (p a).toNat = t.count p + (p (u.apply a)).toNat :=
  total_modify ha _

theorem count_modify_of_eq {t : Table α} {k : Nat} {u : Update α} {p : α → Bool}
    (he : ∀ a, t.get? k = some a → p (u.apply a) = p a) : (t.modify k u).count p = t.count p := by
  cases ha : t.get? k with
  | none => rw [modify_of_none ha]
  | some a =>
    have hc := count_modify (u := u) ha p
    rw [he a ha] at hc
    omega

theorem count_modifyWhere {t : Table α} {q : α → Bool} {u : Update α} {p : α → Bool} :
    (t.modifyWhere q u).count p = t.count fun a => p (if q a then u.apply a else a) :=
  total_modifyWhere

theorem count_congr {t : Table α} {p q : α → Bool} (h : ∀ a ∈ t, p a = q a) :
    t.count p = t.count q :=
  total_congr fun a ha => by rw [h a ha]

theorem count_mono {t : Table α} {p q : α → Bool} (h : ∀ a ∈ t, p a = true → q a = true) :
    t.count p ≤ t.count q := by
  refine total_mono fun a ha => ?_
  cases hp : p a with
  | false => exact Nat.zero_le _
  | true => rw [h a ha hp]

theorem count_eq_zero {t : Table α} {p : α → Bool} : t.count p = 0 ↔ ∀ a ∈ t, p a = false := by
  constructor
  · intro h a ha
    have hle := le_total ha fun a => (p a).toNat
    cases hp : p a with
    | false => rfl
    | true => simp only [hp, Bool.toNat_true] at hle; exact absurd hle (by unfold count at h; omega)
  · intro h
    unfold count total
    rw [List.map_congr_left (g := fun _ => 0) fun a ha => by rw [h a ha]; rfl]
    simp

theorem count_pos {t : Table α} {p : α → Bool} : 0 < t.count p ↔ ∃ a ∈ t, p a = true := by
  rw [Nat.pos_iff_ne_zero, Ne, count_eq_zero]
  simp

theorem one_le_count {t : Table α} {p : α → Bool} {a : α} (ha : a ∈ t) (hp : p a = true) :
    1 ≤ t.count p :=
  count_pos.mpr ⟨a, ha, hp⟩

/-- Two distinct rows that satisfy `p` weigh two. -/
theorem eq_of_count_le_one {t : Table α} {p : α → Bool} (h : t.count p ≤ 1) {a b : α}
    (ha : a ∈ t) (hb : b ∈ t) (hpa : p a = true) (hpb : p b = true) : a = b := by
  by_contra hne
  -- switching `a` off leaves `b`, so `p` counted both
  have hsplit : t.count p =
      (t.count fun c => p c && decide (key c ≠ key a)) +
        t.count fun c => p c && decide (key c = key a) := by
    unfold count
    rw [← total_add]
    refine total_congr fun c _ => ?_
    by_cases hk : key c = key a <;> simp [hk]
  have h1 := one_le_count (p := fun c => p c && decide (key c ≠ key a)) hb (by
    simp only [hpb, Bool.true_and, decide_eq_true_eq]
    exact fun hk => hne (eq_of_key hb ha hk).symm)
  have h2 := one_le_count (p := fun c => p c && decide (key c = key a)) ha (by simp [hpa])
  omega

/-- Of two counted rows one has another key. -/
theorem exists_other {t : Table α} {p : α → Bool} (h : 2 ≤ t.count p) (k : Nat) :
    ∃ a ∈ t, p a = true ∧ key a ≠ k := by
  by_contra hnone
  have hkeys : ∀ a ∈ t, p a = true → key a = k := fun a ha hp => by
    by_contra hne
    exact hnone ⟨a, ha, hp, hne⟩
  have hle : (t.select p).length ≤ [k].length := by
    rw [← List.length_map key]
    refine (t.nodup.sublist (List.filter_sublist.map key)).length_le_of_subset fun j hj => ?_
    obtain ⟨a, ha, rfl⟩ := List.mem_map.mp hj
    obtain ⟨ha, hp⟩ := mem_select.mp ha
    exact List.mem_singleton.mpr (hkeys a ha hp)
  rw [← count_eq_length_select, List.length_singleton] at hle
  omega

/-- Counted rows that come from counted rows are not more than these. -/
theorem Evolves.count_le {R : α → α → Prop} {New : α → Prop} {s t : Table α} {p q : α → Bool}
    (h : Evolves R New s t) (hkey : ∀ a b, R a b → key b = key a)
    (hnew : ∀ b ∈ t, New b → p b = false)
    (hback : ∀ a ∈ s, ∀ b, R a b → p b = true → q a = true) : t.count p ≤ s.count q := by
  rw [count_eq_length_select, count_eq_length_select]
  suffices hkeys : ((t.select p).map key).length ≤ ((s.select q).map key).length by
    rwa [List.length_map, List.length_map] at hkeys
  have hnodup : ((t.select p).map key).Nodup := t.nodup.sublist (List.filter_sublist.map key)
  refine hnodup.length_le_of_subset fun k hk => ?_
  obtain ⟨b, hb, rfl⟩ := List.mem_map.mp hk
  obtain ⟨hb, hpb⟩ := mem_select.mp hb
  rcases h.new b hb with ⟨a, ha, hab⟩ | hfresh
  · exact List.mem_map.mpr ⟨a, mem_select.mpr ⟨ha, hback a ha b hab hpb⟩, (hkey a b hab).symm⟩
  · rw [hnew b hb hfresh] at hpb
    cases hpb

end Table
end ContentOrchestrator.Lib
