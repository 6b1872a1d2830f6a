import IndySdk.MerkleTree

/-!
# Consistency proofs between ledger trees

The check climbs from the last leaf of the old tree to the roots of both trees and rebuilds both
hashes from the proof. It takes the sizes as they are claimed: of the new tree it knows only the
hash and the claimed number of leaves.
-/

namespace IndySdk.Ledger.MerkleTree

variable (sha256 : Sha256)

/-- Leave the nodes that are right children in the old tree. -/
def skipRight (oldNode newNode : ℕ) : ℕ × ℕ :=
  if _h : oldNode % 2 ≠ 0 then skipRight (oldNode / 2) (newNode / 2) else (oldNode, newNode)
termination_by oldNode
decreasing_by omega

/-- Climb to the root of the old tree, rebuilding both hashes. -/
def climbOld (oldNode newNode : ℕ) (oldHash newHash : Bytes) (proofs : List Bytes) :
    Option (ℕ × Bytes × Bytes × List Bytes) :=
  if _h : oldNode ≠ 0 then
    if oldNode % 2 ≠ 0 then
      match proofs with
      | [] => none
      | nextProof :: proofs => climbOld (oldNode / 2) (newNode / 2)
          (Hash.hashNodes sha256 nextProof oldHash) (Hash.hashNodes sha256 nextProof newHash) proofs
    else if oldNode < newNode then
      match proofs with
      | [] => none
      | nextProof :: proofs => climbOld (oldNode / 2) (newNode / 2) oldHash
          (Hash.hashNodes sha256 newHash nextProof) proofs
    else climbOld (oldNode / 2) (newNode / 2) oldHash newHash proofs
  else some (newNode, oldHash, newHash, proofs)
termination_by oldNode
decreasing_by all_goals omega

/-- Climb on to the root of the new tree. -/
def climbNew (newNode : ℕ) (newHash : Bytes) (proofs : List Bytes) : Option Bytes :=
  if _h : newNode ≠ 0 then
    match proofs with
    | [] => none
    | n :: proofs => climbNew (newNode / 2) (Hash.hashNodes sha256 newHash n) proofs
  else some newHash
termination_by newNode
decreasing_by omega

/-- The hash both climbs begin with. -/
def startHash (t : MerkleTree) (oldNode : ℕ) (proof : List Bytes) : Option (Bytes × List Bytes) :=
  if oldNode ≠ 0 then
    match proof with
    | [] => none
    | first :: proofs => some (first, proofs)
  else some (t.rootHash, proof)

/-- Both hashes rebuilt from the proof, the old one first. -/
def rebuiltHashes (t : MerkleTree) (newSize : ℕ) (proof : List Bytes) :
    Option (Bytes × Bytes) := do
  let nodes := skipRight (t.count - 1) (newSize - 1)
  let (hash, proofs) ← startHash t nodes.1 proof
  let (newNode, oldHash, newHash, proofs) ← climbOld sha256 nodes.1 nodes.2 hash hash proofs
  let newHash ← climbNew sha256 newNode newHash proofs
  some (oldHash, newHash)

def consistencyProof (t : MerkleTree) (newRootHash : Bytes) (newSize : ℕ) (proof : List Bytes) :
    IndyResult Bool :=
  if t.count = 0 then .ok true
  else if t.count = newSize ∧ t.rootHash = newRootHash then .ok true
  else if newSize < t.count then .panic
  else
    match rebuiltHashes sha256 t newSize proof with
    | none => .ok false
    | some (oldHash, newHash) => .ok (newHash = newRootHash && oldHash = t.rootHash)

variable {sha256}

theorem skipRight_self (node : ℕ) : (skipRight node node).1 = (skipRight node node).2 := by
  induction node using Nat.strong_induction_on with
  | h node ih =>
    rw [skipRight]
    by_cases h : node % 2 ≠ 0
    · rw [dif_pos h]
      exact ih (node / 2) (by omega)
    · rw [dif_neg h]

theorem climbOld_self {node : ℕ} {hash : Bytes} {proofs : List Bytes}
    {result : ℕ × Bytes × Bytes × List Bytes}
    (h : climbOld sha256 node node hash hash proofs = some result) :
    result.1 = 0 ∧ result.2.1 = result.2.2.1 := by
  induction node using Nat.strong_induction_on generalizing hash proofs with
  | h node ih =>
    unfold climbOld at h
    by_cases hzero : node ≠ 0
    · rw [dif_pos hzero] at h
      split_ifs at h with hodd hlt
      · cases proofs with
        | nil => cases h
        | cons nextProof proofs => exact ih (node / 2) (by omega) h
      · exact absurd hlt (lt_irrefl node)
      · exact ih (node / 2) (by omega) h
    · rw [dif_neg hzero] at h
      cases h
      exact ⟨not_not.mp hzero, rfl⟩

theorem rebuiltHashes_self {t : MerkleTree} {proof : List Bytes} {oldHash newHash : Bytes}
    (h : rebuiltHashes sha256 t t.count proof = some (oldHash, newHash)) : oldHash = newHash := by
  obtain ⟨start, -, h⟩ := Option.bind_eq_some_iff.mp h
  obtain ⟨climbed, hclimbed, h⟩ := Option.bind_eq_some_iff.mp h
  rw [← skipRight_self] at hclimbed
  obtain ⟨hzero, hsame⟩ := climbOld_self hclimbed
  obtain ⟨last, hlast, h⟩ := Option.bind_eq_some_iff.mp h
  unfold climbNew at hlast
  rw [hzero, dif_neg (by simp)] at hlast
  cases hlast
  cases h
  exact hsame

theorem rootHash_of_consistencyProof {t : MerkleTree} {newRootHash : Bytes} {proof : List Bytes}
    (hcount : t.count ≠ 0)
    (h : consistencyProof sha256 t newRootHash t.count proof = .ok true) :
    t.rootHash = newRootHash := by
  rw [consistencyProof, if_neg hcount] at h
  split_ifs at h with hsame hlt
  · exact hsame.2
  · cases hr : rebuiltHashes sha256 t t.count proof with
    | none =>
      rw [hr] at h
      cases h
    | some hashes =>
      obtain ⟨oldHash, newHash⟩ := hashes
      rw [hr] at h
      have hrebuilt := rebuiltHashes_self hr
      simp only [Outcome.ok.injEq, Bool.and_eq_true, decide_eq_true_eq] at h
      rw [← h.1, ← h.2, hrebuilt]

end IndySdk.Ledger.MerkleTree
