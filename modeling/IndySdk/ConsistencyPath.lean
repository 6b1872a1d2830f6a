import IndySdk.ConsistencyProof

/-!
# The path of a consistency proof

The loops of the check climb from two leaves at once. Which hashes they combine depends only on the
two sizes: a path of steps, each of which consumes one hash of the proof. The path for a tree is the
path for one of its two parts with one more step at the end.
-/

namespace IndySdk.Ledger.MerkleTree

open List

/-- Where the next hash of the proof stands: to the left of both nodes, or to the right of the new
one. -/
inductive ClimbStep where
  | left
  | right
  deriving DecidableEq

def climbPath (oldNode newNode : ℕ) : List ClimbStep :=
  if _h : oldNode ≠ 0 then
    if oldNode % 2 ≠ 0 then .left :: climbPath (oldNode / 2) (newNode / 2)
    else if oldNode < newNode then .right :: climbPath (oldNode / 2) (newNode / 2)
    else climbPath (oldNode / 2) (newNode / 2)
  else if _h : newNode ≠ 0 then .right :: climbPath 0 (newNode / 2)
  else []
termination_by oldNode + newNode
decreasing_by all_goals omega

/-- The path from the old size to the new size. -/
def proofPath (oldSize newSize : ℕ) : List ClimbStep :=
  let nodes := skipRight (oldSize - 1) (newSize - 1)
  climbPath nodes.1 nodes.2

section Hashes

variable (sha256 : Sha256)

/-- The old and the new hash after one step. -/
def climbStep (hashes : Bytes × Bytes) : ClimbStep × Bytes → Bytes × Bytes
  | (.left, sibling) =>
    (Hash.hashNodes sha256 sibling hashes.1, Hash.hashNodes sha256 sibling hashes.2)
  | (.right, sibling) => (hashes.1, Hash.hashNodes sha256 hashes.2 sibling)

def climb (steps : List ClimbStep) (hashes : Bytes × Bytes) (proofs : List Bytes) :
    Bytes × Bytes :=
  (steps.zip proofs).foldl (climbStep sha256) hashes

variable {sha256}

theorem climb_cons (step : ClimbStep) (steps : List ClimbStep) (hashes : Bytes × Bytes)
    (proof : Bytes) (proofs : List Bytes) :
    climb sha256 (step :: steps) hashes (proof :: proofs) =
      climb sha256 steps (climbStep sha256 hashes (step, proof)) proofs := rfl

theorem climb_concat {steps : List ClimbStep} {proofs : List Bytes}
    (hlen : proofs.length = steps.length) (step : ClimbStep) (hashes : Bytes × Bytes)
    (proof : Bytes) :
    climb sha256 (steps ++ [step]) hashes (proofs ++ [proof]) =
      climbStep sha256 (climb sha256 steps hashes proofs) (step, proof) := by
  rw [climb, zip_append hlen.symm, foldl_append]
  rfl

theorem climbNew_eq (newNode : ℕ) (oldHash newHash : Bytes) (proofs : List Bytes) :
    (climbNew sha256 newNode newHash proofs).map (Prod.mk oldHash) =
      if (climbPath 0 newNode).length ≤ proofs.length then
        some (climb sha256 (climbPath 0 newNode) (oldHash, newHash) proofs)
      else none := by
  induction newNode using Nat.strong_induction_on generalizing newHash proofs with
  | h newNode ih =>
    rw [climbNew.eq_def, climbPath, dif_neg (not_not.mpr rfl)]
    by_cases hzero : newNode ≠ 0
    · rw [dif_pos hzero, dif_pos hzero]
      cases proofs with
      | nil =>
        rw [if_neg (by simp)]
        rfl
      | cons proof proofs =>
        have hrec := ih (newNode / 2) (by omega) (Hash.hashNodes sha256 newHash proof) proofs
        simp only [length_cons, Nat.add_le_add_iff_right, climb_cons]
        exact hrec
    · rw [dif_neg hzero, dif_neg hzero]
      rfl

/-- Both loops together follow the path of the two nodes. -/
theorem climbs_eq (oldNode newNode : ℕ) (oldHash newHash : Bytes) (proofs : List Bytes) :
    ((climbOld sha256 oldNode newNode oldHash newHash proofs).bind (fun climbed =>
        (climbNew sha256 climbed.1 climbed.2.2.1 climbed.2.2.2).map (Prod.mk climbed.2.1))) =
      if (climbPath oldNode newNode).length ≤ proofs.length then
        some (climb sha256 (climbPath oldNode newNode) (oldHash, newHash) proofs)
      else none := by
  induction oldNode using Nat.strong_induction_on generalizing newNode oldHash newHash proofs with
  | h oldNode ih =>
    by_cases hzero : oldNode ≠ 0
    · rw [climbOld.eq_def, climbPath, dif_pos hzero, dif_pos hzero]
      have hlt : oldNode / 2 < oldNode := by omega
      by_cases hodd : oldNode % 2 ≠ 0
      · rw [if_pos hodd, if_pos hodd]
        cases proofs with
        | nil =>
          rw [if_neg (by simp)]
          rfl
        | cons proof proofs =>
          have hrec := ih (oldNode / 2) hlt (newNode / 2) (Hash.hashNodes sha256 proof oldHash)
            (Hash.hashNodes sha256 proof newHash) proofs
          simp only [length_cons, Nat.add_le_add_iff_right, climb_cons]
          exact hrec
      · rw [if_neg hodd, if_neg hodd]
        by_cases hless : oldNode < newNode
        · rw [if_pos hless, if_pos hless]
          cases proofs with
          | nil =>
            rw [if_neg (by simp)]
            rfl
          | cons proof proofs =>
            have hrec := ih (oldNode / 2) hlt (newNode / 2) oldHash
              (Hash.hashNodes sha256 newHash proof) proofs
            simp only [length_cons, Nat.add_le_add_iff_right, climb_cons]
            exact hrec
        · rw [if_neg hless, if_neg hless]
          exact ih (oldNode / 2) hlt (newNode / 2) oldHash newHash proofs
    · rw [not_not] at hzero
      subst hzero
      rw [climbOld.eq_def, dif_neg (not_not.mpr rfl), Option.bind_some]
      exact climbNew_eq newNode oldHash newHash proofs

theorem rebuiltHashes_eq (t : MerkleTree) (newSize : ℕ) (proof : List Bytes) :
    rebuiltHashes sha256 t newSize proof =
      (startHash t (skipRight (t.count - 1) (newSize - 1)).1 proof).bind (fun start =>
        if (proofPath t.count newSize).length ≤ start.2.length then
          some (climb sha256 (proofPath t.count newSize) (start.1, start.1) start.2)
        else none) := by
  rw [rebuiltHashes, Option.bind_eq_bind]
  congr 1
  funext start
  rw [proofPath, ← climbs_eq]
  simp only [Option.bind_eq_bind, Option.map_eq_bind]
  rfl

end Hashes

/-! ### The path for a tree and for its parts -/

variable {j oldNode newNode : ℕ}

theorem climbPath_of_left (hold : oldNode < 2 ^ j) (hlow : 2 ^ j ≤ newNode)
    (hhigh : newNode < 2 * 2 ^ j) :
    climbPath oldNode newNode = climbPath oldNode (2 ^ j - 1) ++ [.right] := by
  induction j generalizing oldNode newNode with
  | zero =>
    obtain rfl : oldNode = 0 := by omega
    obtain rfl : newNode = 1 := by omega
    decide +kernel
  | succ j ih =>
    have hpow : 2 ^ (j + 1) = 2 * 2 ^ j := Nat.pow_succ'
    have hpos : 0 < 2 ^ j := Nat.two_pow_pos j
    have hhalf : (2 ^ (j + 1) - 1) / 2 = 2 ^ j - 1 := by omega
    have hrec := @ih (oldNode / 2) (newNode / 2) (by omega) (by omega) (by omega)
    rw [climbPath.eq_def oldNode newNode, climbPath.eq_def oldNode (2 ^ (j + 1) - 1), hhalf]
    by_cases hzero : oldNode ≠ 0
    · rw [dif_pos hzero, dif_pos hzero, hrec]
      by_cases hodd : oldNode % 2 ≠ 0
      · rw [if_pos hodd, if_pos hodd, cons_append]
      · rw [if_neg hodd, if_neg hodd, if_pos (by omega), if_pos (by omega), cons_append]
    · rw [not_not] at hzero
      subst hzero
      have hnew : newNode ≠ 0 := by omega
      have hlast : 2 ^ (j + 1) - 1 ≠ 0 := by omega
      rw [dif_neg (not_not.mpr rfl), dif_neg (not_not.mpr rfl), dif_pos hnew, dif_pos hlast]
      rw [Nat.zero_div] at hrec
      rw [hrec, cons_append]

/-- Inside the right part every step is the same, and the left part is one step more. -/
theorem climbPath_of_right (hle : oldNode ≤ newNode) (hnew : newNode < 2 ^ j) :
    climbPath (2 ^ j + oldNode) (2 ^ j + newNode) = climbPath oldNode newNode ++ [.left] := by
  induction j generalizing oldNode newNode with
  | zero =>
    obtain rfl : newNode = 0 := by omega
    obtain rfl : oldNode = 0 := by omega
    decide +kernel
  | succ j ih =>
    have hpow : 2 ^ (j + 1) = 2 * 2 ^ j := Nat.pow_succ'
    have hpos : 0 < 2 ^ j := Nat.two_pow_pos j
    have hzero : 2 ^ (j + 1) + oldNode ≠ 0 := by omega
    have hrec := @ih (oldNode / 2) (newNode / 2) (by omega) (by omega)
    have holdHalf : (2 ^ (j + 1) + oldNode) / 2 = 2 ^ j + oldNode / 2 := by omega
    have hnewHalf : (2 ^ (j + 1) + newNode) / 2 = 2 ^ j + newNode / 2 := by omega
    have hparity : (2 ^ (j + 1) + oldNode) % 2 = oldNode % 2 := by omega
    rw [climbPath.eq_def (2 ^ (j + 1) + oldNode), climbPath.eq_def oldNode newNode, dif_pos hzero,
      holdHalf, hnewHalf, hparity, hrec]
    by_cases hodd : oldNode % 2 ≠ 0
    · have hold : oldNode ≠ 0 := by omega
      rw [if_pos hodd, dif_pos hold, if_pos hodd, cons_append]
    · rw [if_neg hodd]
      by_cases hold : oldNode ≠ 0
      · rw [dif_pos hold, if_neg hodd]
        by_cases hless : oldNode < newNode
        · rw [if_pos hless, if_pos (by omega), cons_append]
        · rw [if_neg hless, if_neg (by omega)]
      · rw [not_not] at hold
        subst hold
        rw [dif_neg (not_not.mpr rfl)]
        by_cases hmore : newNode ≠ 0
        · rw [dif_pos hmore, if_pos (by omega), cons_append]
        · rw [not_not] at hmore
          subst hmore
          rw [dif_neg (not_not.mpr rfl), if_neg (lt_irrefl _), Nat.zero_div, climbPath,
            dif_neg (not_not.mpr rfl), dif_neg (not_not.mpr rfl)]

theorem skippedPath_of_left (hold : oldNode < 2 ^ j) (hlow : 2 ^ j ≤ newNode)
    (hhigh : newNode < 2 * 2 ^ j) :
    climbPath (skipRight oldNode newNode).1 (skipRight oldNode newNode).2 =
      climbPath (skipRight oldNode (2 ^ j - 1)).1 (skipRight oldNode (2 ^ j - 1)).2 ++
        [.right] := by
  induction j generalizing oldNode newNode with
  | zero =>
    have hodd : ¬ oldNode % 2 ≠ 0 := by omega
    rw [skipRight.eq_def oldNode newNode, skipRight.eq_def oldNode (2 ^ 0 - 1), dif_neg hodd,
      dif_neg hodd]
    exact climbPath_of_left hold hlow hhigh
  | succ j ih =>
    have hpow : 2 ^ (j + 1) = 2 * 2 ^ j := Nat.pow_succ'
    have hpos : 0 < 2 ^ j := Nat.two_pow_pos j
    rw [skipRight.eq_def oldNode newNode, skipRight.eq_def oldNode (2 ^ (j + 1) - 1)]
    by_cases hodd : oldNode % 2 ≠ 0
    · have hhalf : (2 ^ (j + 1) - 1) / 2 = 2 ^ j - 1 := by omega
      rw [dif_pos hodd, dif_pos hodd, hhalf]
      exact ih (by omega) (by omega) (by omega)
    · rw [dif_neg hodd, dif_neg hodd]
      exact climbPath_of_left hold hlow hhigh

theorem skippedPath_of_right (hlt : oldNode < newNode) (hnew : newNode < 2 ^ j) :
    climbPath (skipRight (2 ^ j + oldNode) (2 ^ j + newNode)).1
        (skipRight (2 ^ j + oldNode) (2 ^ j + newNode)).2 =
      climbPath (skipRight oldNode newNode).1 (skipRight oldNode newNode).2 ++ [.left] := by
  induction j generalizing oldNode newNode with
  | zero => omega
  | succ j ih =>
    have hpow : 2 ^ (j + 1) = 2 * 2 ^ j := Nat.pow_succ'
    have hpos : 0 < 2 ^ j := Nat.two_pow_pos j
    have hparity : (2 ^ (j + 1) + oldNode) % 2 = oldNode % 2 := by omega
    rw [skipRight.eq_def (2 ^ (j + 1) + oldNode), skipRight.eq_def oldNode newNode, hparity]
    by_cases hodd : oldNode % 2 ≠ 0
    · have holdHalf : (2 ^ (j + 1) + oldNode) / 2 = 2 ^ j + oldNode / 2 := by omega
      have hnewHalf : (2 ^ (j + 1) + newNode) / 2 = 2 ^ j + newNode / 2 := by omega
      rw [dif_pos hodd, dif_pos hodd, holdHalf, hnewHalf]
      exact ih (by omega) (by omega)
    · rw [dif_neg hodd, dif_neg hodd]
      exact climbPath_of_right hlt.le hnew

theorem proofPath_of_left {oldSize newSize : ℕ} (hpos : 0 < oldSize) (hold : oldSize ≤ 2 ^ j)
    (hlow : 2 ^ j < newSize) (hhigh : newSize ≤ 2 * 2 ^ j) :
    proofPath oldSize newSize = proofPath oldSize (2 ^ j) ++ [.right] :=
  skippedPath_of_left (by omega) (by omega) (by omega)

theorem proofPath_of_right {j oldSize newSize : ℕ} (hold : 0 < oldSize) (hlt : oldSize < newSize)
    (hhigh : newSize ≤ 2 ^ j) :
    proofPath (2 ^ j + oldSize) (2 ^ j + newSize) = proofPath oldSize newSize ++ [.left] := by
  have holdNode : 2 ^ j + oldSize - 1 = 2 ^ j + (oldSize - 1) := by omega
  have hnewNode : 2 ^ j + newSize - 1 = 2 ^ j + (newSize - 1) := by omega
  rw [proofPath, holdNode, hnewNode]
  exact skippedPath_of_right (by omega) (by omega)

theorem proofPath_ne_nil {oldSize newSize : ℕ} (hpos : 0 < oldSize) (hlt : oldSize < newSize) :
    proofPath oldSize newSize ≠ [] := by
  obtain ⟨j, hj⟩ := BalancedMerge.exists_splitPoint_eq newSize
  have hlow := BalancedMerge.splitPoint_lt (n := newSize) (by omega)
  have hhigh := BalancedMerge.le_two_mul_splitPoint (n := newSize) (by omega)
  rw [hj] at hlow hhigh
  by_cases hin : oldSize ≤ 2 ^ j
  · rw [proofPath_of_left hpos hin hlow hhigh]
    exact append_ne_nil_of_right_ne_nil _ (cons_ne_nil _ _)
  · have hright := @proofPath_of_right j (oldSize - 2 ^ j) (newSize - 2 ^ j) (by omega) (by omega)
      (by omega)
    rw [Nat.add_sub_cancel' (by omega), Nat.add_sub_cancel' (by omega)] at hright
    rw [hright]
    exact append_ne_nil_of_right_ne_nil _ (cons_ne_nil _ _)

theorem skipRight_eq_zero_iff :
    (skipRight oldNode newNode).1 = 0 ↔ ∃ j, oldNode + 1 = 2 ^ j := by
  induction oldNode using Nat.strong_induction_on generalizing newNode with
  | h oldNode ih =>
    rw [skipRight.eq_def]
    by_cases hodd : oldNode % 2 ≠ 0
    · rw [dif_pos hodd, ih (oldNode / 2) (by omega)]
      constructor
      · rintro ⟨j, hj⟩
        refine ⟨j + 1, ?_⟩
        rw [Nat.pow_succ]
        omega
      · rintro ⟨j, hj⟩
        cases j with
        | zero => omega
        | succ j =>
          rw [Nat.pow_succ] at hj
          exact ⟨j, by omega⟩
    · rw [dif_neg hodd]
      constructor
      · intro hzero
        exact ⟨0, congrArg Nat.succ hzero⟩
      · rintro ⟨j, hj⟩
        cases j with
        | zero => omega
        | succ j =>
          rw [Nat.pow_succ] at hj
          omega

theorem proofPath_pow_self (j : ℕ) : proofPath (2 ^ j) (2 ^ j) = [] := by
  have hpos : 0 < 2 ^ j := Nat.two_pow_pos j
  have hzero : (skipRight (2 ^ j - 1) (2 ^ j - 1)).1 = 0 :=
    skipRight_eq_zero_iff.mpr ⟨j, Nat.sub_add_cancel hpos⟩
  rw [proofPath, ← skipRight_self, hzero]
  rw [climbPath, dif_neg (not_not.mpr rfl), dif_neg (not_not.mpr rfl)]

end IndySdk.Ledger.MerkleTree
