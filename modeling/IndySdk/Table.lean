import Mathlib.Data.Nat.Notation
import Mathlib.Tactic.Common

/-!
# Tables whose rows do not conflict

A table of a relational store is a list of rows in which no two rows conflict: rows conflict when
they agree on the columns of a primary key or of a unique index. The constraint is part of the
table, so that every statement that builds a table has to respect it.
-/

open List

variable {ρ : Type*}

structure Table (conflict : ρ → ρ → Prop) where
  rows : List ρ
  pairwise : rows.Pairwise (fun r s => ¬ conflict r s)

namespace Table

variable {conflict : ρ → ρ → Prop}

def empty : Table conflict := ⟨[], List.Pairwise.nil⟩

theorem eq_of_conflict (hsymm : ∀ r s, conflict r s → conflict s r) (t : Table conflict) {r s : ρ}
    (hr : r ∈ t.rows) (hs : s ∈ t.rows) (h : conflict r s) : r = s := by
  have hforward : t.rows.Pairwise (fun a b => conflict a b → a = b) :=
    t.pairwise.imp (fun hn hc => absurd hc hn)
  have hbackward : t.rows.Pairwise (flip (fun a b => conflict a b → a = b)) :=
    t.pairwise.imp (fun hn hc => absurd (hsymm _ _ hc) hn)
  exact List.Pairwise.forall_of_forall_of_flip (fun _ _ _ => rfl) hforward hbackward hr hs h

theorem nodup (hrefl : ∀ r, conflict r r) (t : Table conflict) : t.rows.Nodup := by
  refine t.pairwise.imp ?_
  rintro r s hn rfl
  exact hn (hrefl r)

variable {p : ρ → Bool} {t : Table conflict}

/-- A row selected by a condition that only conflicting rows share is the row of the table that
satisfies it. -/
theorem find?_eq_some_iff (hsymm : ∀ r s, conflict r s → conflict s r) (t : Table conflict)
    (hp : ∀ r s, p r → p s → conflict r s) {r : ρ} :
    t.rows.find? p = some r ↔ r ∈ t.rows ∧ p r := by
  constructor
  · exact fun h => ⟨mem_of_find?_eq_some h, find?_some h⟩
  · rintro ⟨hr, hpr⟩
    cases h : t.rows.find? p with
    | none => exact absurd hpr (find?_eq_none.mp h r hr)
    | some s =>
      have hs := mem_of_find?_eq_some h
      rw [t.eq_of_conflict hsymm hs hr (hp s r (find?_some h) hpr)]

theorem countP_eq {p : ρ → Bool} (hp : ∀ r s, p r → p s → conflict r s) (t : Table conflict) :
    t.rows.countP p = (t.rows.find? p).elim 0 (fun _ => 1) := by
  obtain ⟨rows, hrows⟩ := t
  induction rows with
  | nil => rfl
  | cons r rows ih =>
    obtain ⟨hr, hrows⟩ := pairwise_cons.mp hrows
    by_cases h : p r
    · have hz : rows.countP p = 0 := countP_eq_zero.mpr
        (fun s hs hps => hr s hs (hp r s h hps))
      rw [countP_cons_of_pos h, hz, find?_cons_of_pos h]
      rfl
    · rw [countP_cons_of_neg h, find?_cons_of_neg h]
      exact ih hrows

theorem ext_rows {t' : Table conflict} (h : t.rows = t'.rows) : t = t' := by
  cases t
  cases t'
  simpa using h

section Insert

variable [DecidableRel conflict]

/-- Insert a row; a conflict violates the constraint and nothing is inserted. -/
def insert (r : ρ) (t : Table conflict) : Option (Table conflict) :=
  if h : ∃ s ∈ t.rows, conflict s r then none
  else some ⟨t.rows ++ [r], pairwise_append.mpr
    ⟨t.pairwise, pairwise_singleton _ _, fun s hs _ hx hc =>
      h ⟨s, hs, mem_singleton.mp hx ▸ hc⟩⟩⟩

variable {t : Table conflict}

theorem insert_eq_some_iff {r : ρ} {t' : Table conflict} :
    t.insert r = some t' ↔ (∀ s ∈ t.rows, ¬ conflict s r) ∧ t'.rows = t.rows ++ [r] := by
  unfold insert
  by_cases h : ∃ s ∈ t.rows, conflict s r
  · rw [dif_pos h]
    constructor
    · intro hn
      cases hn
    · rintro ⟨hn, -⟩
      obtain ⟨s, hs, hc⟩ := h
      exact absurd hc (hn s hs)
  · rw [dif_neg h]
    constructor
    · intro he
      cases he
      exact ⟨fun s hs hc => h ⟨s, hs, hc⟩, rfl⟩
    · rintro ⟨-, ht⟩
      cases t'
      simp_all

theorem insert_eq_none_iff {r : ρ} :
    t.insert r = none ↔ ∃ s ∈ t.rows, conflict s r := by
  unfold insert
  by_cases h : ∃ s ∈ t.rows, conflict s r
  · simp [h]
  · rw [dif_neg h]
    exact ⟨fun hn => (by cases hn), fun hs => absurd hs h⟩

/-- Insert a row in place of the rows it conflicts with. -/
def insertOrReplace (r : ρ) (t : Table conflict) : Table conflict where
  rows := t.rows.filter (fun s => ¬ conflict s r) ++ [r]
  pairwise := pairwise_append.mpr ⟨t.pairwise.filter _, pairwise_singleton _ _,
    fun s hs x hx => by
      rw [mem_singleton.mp hx]
      simpa using (mem_filter.mp hs).2⟩

theorem mem_insertOrReplace {r s : ρ} :
    s ∈ (t.insertOrReplace r).rows ↔ s = r ∨ (s ∈ t.rows ∧ ¬ conflict s r) := by
  simp only [insertOrReplace, mem_append, mem_filter, decide_eq_true_eq,
    mem_singleton]
  exact Or.comm

end Insert

def deleteWhere (p : ρ → Bool) (t : Table conflict) : Table conflict where
  rows := t.rows.filter (fun r => ¬ p r)
  pairwise := t.pairwise.filter _

theorem mem_deleteWhere {r : ρ} :
    r ∈ (t.deleteWhere p).rows ↔ r ∈ t.rows ∧ ¬ p r := by
  simp [deleteWhere]

/-- Change the rows of a table by a function that makes no two rows conflict. -/
def updateWhere (p : ρ → Bool) (f : ρ → ρ)
    (hf : ∀ r s, conflict (if p r then f r else r) (if p s then f s else s) → conflict r s)
    (t : Table conflict) : Table conflict where
  rows := t.rows.map (fun r => if p r then f r else r)
  pairwise := pairwise_map.mpr (t.pairwise.imp (fun h hc => h (hf _ _ hc)))

theorem deleteWhere_of_find?_eq_none (h : t.rows.find? p = none) : t.deleteWhere p = t := by
  refine ext_rows (filter_eq_self.mpr (fun r hr => ?_))
  simpa using find?_eq_none.mp h r hr

theorem updateWhere_of_find?_eq_none {f : ρ → ρ}
    {hf : ∀ r s, conflict (if p r then f r else r) (if p s then f s else s) → conflict r s}
    (h : t.rows.find? p = none) : t.updateWhere p f hf = t := by
  refine ext_rows ((map_congr_left (fun r hr => ?_)).trans (map_id _))
  exact if_neg (find?_eq_none.mp h r hr)

theorem mem_updateWhere {f : ρ → ρ}
    {hf : ∀ r s, conflict (if p r then f r else r) (if p s then f s else s) → conflict r s}
    {r : ρ} :
    r ∈ (t.updateWhere p f hf).rows ↔ ∃ s ∈ t.rows, (if p s then f s else s) = r := by
  simp [updateWhere]

end Table

/-- The row id an insertion takes: one more than the greatest in use, whatever was used before. -/
def nextRowId (ids : List ℕ) : ℕ := ids.foldr max 0 + 1

theorem lt_nextRowId {ids : List ℕ} {i : ℕ} (h : i ∈ ids) : i < nextRowId ids := by
  induction ids with
  | nil => cases h
  | cons j ids ih =>
    simp only [nextRowId, foldr_cons] at ih ⊢
    rcases mem_cons.mp h with rfl | hm
    · omega
    · have := ih hm
      omega
