import Mathlib.Data.List.Basic
import Mathlib.Tactic.Common

/-!
# Text split at a delimiter

Splitting undoes joining only for pieces free of the delimiter. A splitter that takes delimiters as
terminators also loses a last piece that is empty.
-/

open List

universe u

namespace Delimited

variable {α : Type u} [DecidableEq α] {d : α}

/-- The pieces of a text, without the empty one after a delimiter at its end. -/
def splitTerminator (d : α) (text : List α) : List (List α) :=
  let pieces := text.splitOn d
  if pieces.getLast? = some [] then pieces.dropLast else pieces

variable {text piece : List α}

theorem not_mem_of_mem_splitOn (h : piece ∈ text.splitOn d) : d ∉ piece := by
  induction text generalizing piece with
  | nil =>
    rw [splitOn_nil, mem_singleton] at h
    rw [h]
    exact not_mem_nil
  | cons x text ih =>
    rw [splitOn_cons_eq_if_modifyHead] at h
    cases hp : text.splitOn d with
    | nil => exact absurd hp (splitOn_ne_nil d text)
    | cons first rest =>
      rw [hp] at h ih
      by_cases hx : x = d
      · rw [if_pos (beq_iff_eq.mpr hx)] at h
        cases h with
        | head => exact not_mem_nil
        | tail _ h => exact ih h
      · rw [if_neg (by rw [beq_iff_eq]; exact hx)] at h
        cases h with
        | head =>
          rw [mem_cons, not_or]
          exact ⟨fun he => hx he.symm, ih mem_cons_self⟩
        | tail _ h => exact ih (mem_cons_of_mem _ h)

theorem mem_splitOn_of_mem_splitTerminator (h : piece ∈ splitTerminator d text) :
    piece ∈ text.splitOn d := by
  unfold splitTerminator at h
  dsimp only at h
  split at h
  · exact dropLast_subset _ h
  · exact h

theorem not_mem_of_mem_splitTerminator (h : piece ∈ splitTerminator d text) : d ∉ piece :=
  not_mem_of_mem_splitOn (mem_splitOn_of_mem_splitTerminator h)

theorem splitTerminator_of_splitOn {pieces : List (List α)} (h : text.splitOn d = pieces)
    (hlast : pieces.getLast? ≠ some []) :
    splitTerminator d text = pieces := by
  unfold splitTerminator
  rw [h]
  exact if_neg hlast

theorem splitTerminator_of_splitOn_snoc {pieces : List (List α)}
    (h : text.splitOn d = pieces ++ [[]]) : splitTerminator d text = pieces := by
  unfold splitTerminator
  rw [h]
  dsimp only
  rw [if_pos getLast?_concat, dropLast_concat]

theorem eq_of_append_cons {a b c e : List α} (ha : d ∉ a) (hc : d ∉ c)
    (h : a ++ d :: b = c ++ d :: e) : a = c ∧ b = e := by
  have hsplit := congrArg (List.splitOn d) h
  rw [splitOn_append_cons_self_of_not_mem ha, splitOn_append_cons_self_of_not_mem hc]
    at hsplit
  have hac : a = c := (List.cons.inj hsplit).1
  rw [hac, append_cancel_left_eq] at h
  exact ⟨hac, (List.cons.inj h).2⟩

theorem eq_of_append_cons_of_not_mem {a b c e : List α} (ha : d ∉ a) (hb : d ∉ b)
    (h : a ++ d :: b = c ++ d :: e) : a = c ∧ b = e := by
  refine eq_of_append_cons ha ?_ h
  have hcount := congrArg (List.count d) h
  rw [count_append, count_append, count_cons_self, count_cons_self,
    count_eq_zero_of_not_mem ha, count_eq_zero_of_not_mem hb] at hcount
  have hzero : List.count d c = 0 := by omega
  exact count_eq_zero.mp hzero

/-- A text that is at its end, or goes on with one of the marks that stop a piece. -/
def Stopped (stops : α → Prop) (rest : List α) : Prop := ∀ x ∈ rest.head?, stops x

omit [DecidableEq α] in
theorem eq_of_append_stopped {stops : α → Prop} {a b rest rest' : List α}
    (ha : ∀ x ∈ a, ¬ stops x) (hb : ∀ x ∈ b, ¬ stops x) (hrest : Stopped stops rest)
    (hrest' : Stopped stops rest') (h : a ++ rest = b ++ rest') : a = b ∧ rest = rest' := by
  induction a generalizing b with
  | nil =>
    cases b with
    | nil => exact ⟨rfl, h⟩
    | cons y b =>
      rw [nil_append] at h
      exact absurd (hrest y (by rw [h]; rfl)) (hb y mem_cons_self)
  | cons x a ih =>
    cases b with
    | nil =>
      rw [nil_append] at h
      exact absurd (hrest' x (by rw [← h]; rfl)) (ha x mem_cons_self)
    | cons y b =>
      obtain ⟨hxy, hab⟩ := List.cons.inj h
      obtain ⟨hab, hrests⟩ := ih (fun z hz => ha z (mem_cons_of_mem x hz))
        (fun z hz => hb z (mem_cons_of_mem y hz)) hab
      exact ⟨by rw [hxy, hab], hrests⟩

end Delimited
