import Mathlib.Data.Nat.Digits.Defs
import Mathlib.Data.Nat.Digits.Lemmas
import Mathlib.Tactic.Common

/-!
# Digits rewritten in another base

A list of digits, the most significant first, is rewritten in another base as the number it stands
for, with as many zeros in front as the list has. Keeping the zeros makes rewriting invertible.
-/

open List

namespace Positional

/-- The zeros in front of a list of digits. -/
def leadingZeros (l : List ℕ) : List ℕ := l.takeWhile (· == 0)

def significant (l : List ℕ) : List ℕ := l.dropWhile (· == 0)

def value (b : ℕ) (l : List ℕ) : ℕ := Nat.ofDigits b l.reverse

def rebase (b c : ℕ) (l : List ℕ) : List ℕ :=
  leadingZeros l ++ (Nat.digits c (value b (significant l))).reverse

theorem leadingZeros_append_significant (l : List ℕ) : leadingZeros l ++ significant l = l :=
  takeWhile_append_dropWhile

variable {l : List ℕ}

theorem eq_zero_of_mem_leadingZeros {d : ℕ} (h : d ∈ leadingZeros l) : d = 0 :=
  beq_iff_eq.mp (all_eq_true.mp all_takeWhile d h)

theorem significant_ne_zero {d : ℕ} (h : (significant l).head? = some d) : d ≠ 0 := by
  intro hd
  have hnot := head?_dropWhile_not (· == 0) l
  rw [significant] at h
  rw [h, hd] at hnot
  cases hnot

theorem split_zeros {zeros : List ℕ} (hzeros : ∀ d ∈ zeros, d = 0)
    (hl : ∀ d, l.head? = some d → d ≠ 0) :
    leadingZeros (zeros ++ l) = zeros ∧ significant (zeros ++ l) = l := by
  induction zeros with
  | nil =>
    cases l with
    | nil => exact ⟨rfl, rfl⟩
    | cons d l =>
      have hd : (d == 0) = false := beq_eq_false_iff_ne.mpr (hl d rfl)
      exact ⟨takeWhile_cons_of_neg (by simp [hd]), dropWhile_cons_of_neg (by simp [hd])⟩
  | cons z zeros ih =>
    obtain ⟨hleading, hrest⟩ := ih (fun d hd => hzeros d (mem_cons_of_mem z hd))
    have hz : z = 0 := hzeros z mem_cons_self
    subst hz
    refine ⟨?_, hrest⟩
    exact congrArg (0 :: ·) hleading

theorem rebase_digits_lt {b c : ℕ} (hc : 1 < c) {d : ℕ} (h : d ∈ rebase b c l) :
    d < c := by
  rcases mem_append.mp h with hd | hd
  · rw [eq_zero_of_mem_leadingZeros hd]
    exact Nat.zero_lt_of_lt hc
  · exact Nat.digits_lt_base hc (mem_reverse.mp hd)

theorem rebase_rebase {b c : ℕ} (hb : 1 < b) (hl : ∀ d ∈ l, d < b) :
    rebase c b (rebase b c l) = l := by
  have hhead : ∀ d, ((Nat.digits c (value b (significant l))).reverse).head? = some d → d ≠ 0 := by
    intro d hd
    rw [head?_reverse] at hd
    obtain ⟨hne, rfl⟩ := mem_getLast?_eq_getLast hd
    exact Nat.getLast_digit_ne_zero c (Nat.digits_ne_nil_iff_ne_zero.mp hne)
  obtain ⟨hzeros, hrest⟩ := split_zeros (fun d => eq_zero_of_mem_leadingZeros (l := l)) hhead
  have hvalue : value c (Nat.digits c (value b (significant l))).reverse =
      value b (significant l) := by
    rw [value, reverse_reverse, Nat.ofDigits_digits]
  have hdigits : Nat.digits b (value b (significant l)) = (significant l).reverse := by
    refine Nat.digits_ofDigits b hb _ ?_ ?_
    · intro d hd
      exact hl d (dropWhile_suffix _ |>.subset (mem_reverse.mp hd))
    · intro hne
      rw [getLast_reverse]
      refine significant_ne_zero (l := l) ?_
      rw [head?_eq_some_head]
  rw [rebase, rebase, hzeros, hrest, hvalue, hdigits, reverse_reverse,
    leadingZeros_append_significant]

end Positional
