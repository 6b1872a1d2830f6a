import Mathlib.Data.Nat.Log
import Mathlib.Tactic.Common
import Mathlib.Tactic.Ring

/-!
# Merging a list by powers of two

The binary merge of a list splits it at the largest power of two below its length and merges both
parts. It is the shape of append-only hash trees. The same value arises from merging neighbours
level by level, and from appending one element at a time at the right edge.
-/

open List

universe u v

namespace BalancedMerge

/-- The largest power of two below `n`, for `n` at least two. -/
def splitPoint (n : ℕ) : ℕ := 2 ^ Nat.log 2 (n - 1)

theorem splitPoint_pos (n : ℕ) : 0 < splitPoint n := Nat.pow_pos (by omega)

theorem splitPoint_lt {n : ℕ} (h : 2 ≤ n) : splitPoint n < n := by
  have hpow : 2 ^ Nat.log 2 (n - 1) ≤ n - 1 := Nat.pow_log_le_self 2 (by omega)
  rw [splitPoint]
  omega

theorem le_two_mul_splitPoint {n : ℕ} (h : 2 ≤ n) : n ≤ 2 * splitPoint n := by
  have hlt : n - 1 < 2 ^ (Nat.log 2 (n - 1) + 1) := Nat.lt_pow_succ_log_self (by omega) _
  rw [Nat.pow_succ] at hlt
  rw [splitPoint]
  omega

theorem splitPoint_eq {n j : ℕ} (hlt : 2 ^ j < n) (hle : n ≤ 2 * 2 ^ j) : splitPoint n = 2 ^ j := by
  have hlog : Nat.log 2 (n - 1) = j := by
    apply Nat.log_eq_of_pow_le_of_lt_pow
    · omega
    · rw [Nat.pow_succ]
      omega
  rw [splitPoint, hlog]

theorem exists_splitPoint_eq (n : ℕ) : ∃ j, splitPoint n = 2 ^ j := ⟨_, rfl⟩

section Merge

variable {τ : Type u} (combine : τ → τ → τ) (none : τ)

/-- Merge a list by splitting it at the largest power of two below its length. -/
def merge (l : List τ) : τ :=
  if _h : 2 ≤ l.length then
    combine (merge (l.take (splitPoint l.length))) (merge (l.drop (splitPoint l.length)))
  else l.headD none
termination_by l.length
decreasing_by
  · rw [length_take]
    have := splitPoint_lt _h
    omega
  · rw [length_drop]
    have := splitPoint_pos l.length
    omega

theorem merge_nil : merge combine none [] = none := by
  rw [merge, dif_neg (by simp)]
  rfl

theorem merge_singleton (x : τ) : merge combine none [x] = x := by
  rw [merge, dif_neg (by simp)]
  rfl

theorem merge_of_two_le {l : List τ} (h : 2 ≤ l.length) : merge combine none l =
    combine (merge combine none (l.take (splitPoint l.length)))
      (merge combine none (l.drop (splitPoint l.length))) := by
  rw [merge, dif_pos h]

/-- A list whose first part has a power of two elements and whose second part has at most as
many splits between them. -/
theorem merge_append {l m : List τ} {j : ℕ} (hl : l.length = 2 ^ j) (hm : 0 < m.length)
    (hle : m.length ≤ 2 ^ j) :
    merge combine none (l ++ m) = combine (merge combine none l) (merge combine none m) := by
  have hlen : (l ++ m).length = l.length + m.length := length_append
  have hpos : 0 < 2 ^ j := Nat.pow_pos (by omega)
  have hs : splitPoint (l ++ m).length = l.length := by
    rw [hl]
    apply splitPoint_eq
    · omega
    · omega
  rw [merge_of_two_le combine none (by omega), hs, take_left, drop_left]

theorem exists_append_of_two_le {l : List τ} (h : 2 ≤ l.length) :
    ∃ a b j, l = a ++ b ∧ a.length = 2 ^ j ∧ 0 < b.length ∧ b.length ≤ 2 ^ j := by
  obtain ⟨j, hj⟩ := exists_splitPoint_eq l.length
  have hlt := splitPoint_lt h
  have hle := le_two_mul_splitPoint h
  refine ⟨l.take (splitPoint l.length), l.drop (splitPoint l.length), j,
    (take_append_drop _ _).symm, ?_, ?_, ?_⟩
  · rw [length_take]
    omega
  · rw [length_drop]
    omega
  · rw [length_drop]
    omega

variable {combine none}

/-- Merge neighbours; an odd last element is kept. -/
def pairUp (combine : τ → τ → τ) : List τ → List τ
  | [] => []
  | [a] => [a]
  | a :: b :: l => combine a b :: pairUp combine l

theorem pairUp_length (l : List τ) : (pairUp combine l).length = (l.length + 1) / 2 := by
  induction l using pairUp.induct with
  | case1 => simp [pairUp]
  | case2 a => simp [pairUp]
  | case3 a b l ih =>
    rw [pairUp, length_cons, ih, length_cons, length_cons]
    omega

theorem pairUp_append {a b : List τ} {k : ℕ} (ha : a.length = 2 * k) :
    pairUp combine (a ++ b) = pairUp combine a ++ pairUp combine b := by
  induction k generalizing a with
  | zero =>
    rw [length_eq_zero_iff.mp ha, pairUp, nil_append, nil_append]
  | succ k ih =>
    match a, ha with
    | x :: y :: a, ha =>
      rw [length_cons, length_cons] at ha
      rw [cons_append, cons_append, pairUp, pairUp, ih (by omega), cons_append]

/-- Merging neighbours first does not change the merge. -/
theorem merge_pairUp (l : List τ) :
    merge combine none (pairUp combine l) = merge combine none l := by
  induction hn : l.length using Nat.strong_induction_on generalizing l with
  | h n ih =>
    by_cases h : 2 ≤ l.length
    · obtain ⟨a, b, j, rfl, ha, hb, hle⟩ := exists_append_of_two_le h
      rw [length_append] at hn
      cases j with
      | zero =>
        match a, b, ha, hb, hle with
        | [x], [y], _, _, _ =>
          have hm := merge_append combine none (l := [x]) (m := [y]) (j := 0) rfl
            (by simp) (by simp)
          rw [singleton_append] at hm ⊢
          rw [hm, pairUp, pairUp]
          simp only [merge_singleton]
      | succ j =>
        have hpos : 0 < 2 ^ j := Nat.pow_pos (by omega)
        rw [Nat.pow_succ] at ha hle
        have iha := ih a.length (by omega) a rfl
        have ihb := ih b.length (by omega) b rfl
        rw [pairUp_append (k := 2 ^ j) (by omega), merge_append combine none (j := j), iha, ihb,
          merge_append combine none (j := j + 1) _ hb]
        · rw [Nat.pow_succ]
          omega
        · rw [Nat.pow_succ]
          omega
        · rw [pairUp_length]
          omega
        · rw [pairUp_length]
          omega
        · rw [pairUp_length]
          omega
    · match l, h with
      | [], _ => rw [pairUp]
      | [x], _ => rw [pairUp]
      | x :: y :: l, h => exact absurd (by simp) h

end Merge

end BalancedMerge
