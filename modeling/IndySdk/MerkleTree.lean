import IndySdk.BalancedMerge
import IndySdk.Bytes
import IndySdk.Errors

/-!
# Ledger Merkle trees

Trees store the hash of every node. A tree is built from all its leaves level by level, or grown
by appending one leaf, which rebuilds the right subtree or adds a layer. Both give the tree that
splits its leaves at the largest power of two below their number.
-/

namespace IndySdk.Ledger

open List
open BalancedMerge (merge pairUp)

/-- The digest of the hashing library. -/
abbrev Sha256 := Bytes → Bytes

namespace Hash

variable (sha256 : Sha256)

def hashEmpty : Bytes := sha256 []

def hashLeaf (leaf : Bytes) : Bytes := sha256 (0x00 :: leaf)

def hashNodes (left right : Bytes) : Bytes := sha256 (0x01 :: (left ++ right))

end Hash

inductive Tree where
  | empty (hash : Bytes)
  | leaf (hash value : Bytes)
  | node (hash : Bytes) (left right : Tree)
  deriving DecidableEq, Repr

namespace Tree

variable (sha256 : Sha256)

def newLeaf (value : Bytes) : Tree := .leaf (Hash.hashLeaf sha256 value) value

def hash : Tree → Bytes
  | .empty hash => hash
  | .leaf hash _ => hash
  | .node hash _ _ => hash

def combine (left right : Tree) : Tree :=
  .node (Hash.hashNodes sha256 left.hash right.hash) left right

/-- The values of an iterator that is to go on with `rest` after the tree; an empty tree ends
it. -/
def iterFrom : Tree → List Bytes → List Bytes
  | .empty _, _ => []
  | .leaf _ value, rest => value :: rest
  | .node _ left right, rest => left.iterFrom (right.iterFrom rest)

def iter (t : Tree) : List Bytes := t.iterFrom []

end Tree

structure MerkleTree where
  root : Tree
  height : ℕ
  count : ℕ
  nodesCount : ℕ
  deriving DecidableEq, Repr

namespace MerkleTree

variable (sha256 : Sha256)

def rootHash (t : MerkleTree) : Bytes := t.root.hash

/-- The loop over the levels: the trees of the last level, the height and the number of nodes. -/
def fromLevels : ℕ → List Tree → ℕ → ℕ → List Tree × ℕ × ℕ
  | 0, cur, height, nodesCount => (cur, height, nodesCount)
  | fuel + 1, cur, height, nodesCount =>
    if 1 < cur.length then
      fromLevels fuel (pairUp (Tree.combine sha256) cur) (height + 1)
        (nodesCount + cur.length / 2)
    else (cur, height, nodesCount)

def fromVec (values : List Bytes) : IndyResult MerkleTree :=
  if values.isEmpty then .ok ⟨.empty (Hash.hashEmpty sha256), 0, 0, 0⟩
  else do
    let (cur, height, nodesCount) :=
      fromLevels sha256 values.length (values.map (Tree.newLeaf sha256)) 0 0
    let root ← Outcome.unwrap cur.head?
    pure ⟨root, height, values.length, nodesCount⟩

/-- The number of one bits, each of which one round of the loop clears. -/
def countBits (v : ℕ) : ℕ :=
  if _h : v = 0 then 0 else countBits (v &&& (v - 1)) + 1
termination_by v
decreasing_by
  have := @Nat.and_le_right v (v - 1)
  omega

def append (t : MerkleTree) (node : Bytes) : IndyResult MerkleTree :=
  if t.count = 0 then
    .ok { t with root := Tree.newLeaf sha256 node, count := t.count + 1 }
  else if countBits t.count ≠ 1 then
    match t.root with
    | .node _ left right => do
      let newRight ← fromVec sha256 (right.iter ++ [node])
      pure { t with
        root := .node (Hash.hashNodes sha256 left.hash newRight.rootHash) left newRight.root
        count := t.count + 1
        nodesCount := t.nodesCount + 1 }
    | _ => .panic
  else do
    let newRight ← fromVec sha256 [node]
    match t.root with
    | .node hash left right =>
      pure ⟨.node (Hash.hashNodes sha256 hash newRight.rootHash) (.node hash left right)
        newRight.root, t.height + 1, t.count + 1, t.nodesCount + 1⟩
    | .leaf hash value =>
      pure ⟨.node (Hash.hashNodes sha256 hash newRight.rootHash) (Tree.newLeaf sha256 value)
        newRight.root, t.height + 1, t.count + 1, t.nodesCount + 1⟩
    | .empty _ => .panic

end MerkleTree

/-- The tree of a list of leaves, split at the largest power of two below their number. -/
def Tree.ofLeaves (sha256 : Sha256) (leaves : List Bytes) : Tree :=
  merge (Tree.combine sha256) (.empty (Hash.hashEmpty sha256)) (leaves.map (Tree.newLeaf sha256))

variable {sha256 : Sha256}

theorem Tree.ofLeaves_nil : Tree.ofLeaves sha256 [] = .empty (Hash.hashEmpty sha256) := by
  rw [ofLeaves, map_nil, BalancedMerge.merge_nil]

theorem Tree.ofLeaves_singleton (v : Bytes) :
    Tree.ofLeaves sha256 [v] = Tree.newLeaf sha256 v := by
  rw [ofLeaves, map_singleton, BalancedMerge.merge_singleton]

theorem Tree.ofLeaves_append {a b : List Bytes} {j : ℕ} (ha : a.length = 2 ^ j)
    (hb : 0 < b.length) (hle : b.length ≤ 2 ^ j) :
    Tree.ofLeaves sha256 (a ++ b) =
      Tree.combine sha256 (Tree.ofLeaves sha256 a) (Tree.ofLeaves sha256 b) := by
  rw [ofLeaves, map_append]
  apply BalancedMerge.merge_append
  · rwa [length_map]
  · rwa [length_map]
  · rwa [length_map]

theorem Tree.iterFrom_ofLeaves {leaves : List Bytes} (h : leaves ≠ []) (rest : List Bytes) :
    (Tree.ofLeaves sha256 leaves).iterFrom rest = leaves ++ rest := by
  induction hn : leaves.length using Nat.strong_induction_on generalizing leaves rest with
  | h n ih =>
    by_cases htwo : 2 ≤ leaves.length
    · obtain ⟨a, b, j, rfl, ha, hb, hle⟩ := BalancedMerge.exists_append_of_two_le htwo
      have hpos : 0 < 2 ^ j := Nat.pow_pos (by omega)
      have hane : a ≠ [] := length_pos_iff.mp (by omega)
      have hbne : b ≠ [] := length_pos_iff.mp hb
      rw [length_append] at hn
      rw [ofLeaves_append ha hb hle, combine, iterFrom, ih b.length (by omega) hbne rest rfl,
        ih a.length (by omega) hane _ rfl, append_assoc]
    · match leaves, h, htwo with
      | [v], _, _ =>
        rw [ofLeaves_singleton]
        rfl
      | v :: w :: leaves, _, htwo => exact absurd (by simp) htwo

theorem Tree.iter_ofLeaves (leaves : List Bytes) : (Tree.ofLeaves sha256 leaves).iter = leaves := by
  by_cases h : leaves = []
  · rw [h, ofLeaves_nil]
    rfl
  · rw [iter, iterFrom_ofLeaves h, append_nil]

namespace MerkleTree

/-- The tree holds the leaves, in the shape that both ways of building it give. -/
structure Holds (sha256 : Sha256) (t : MerkleTree) (leaves : List Bytes) : Prop where
  root : t.root = Tree.ofLeaves sha256 leaves
  count : t.count = leaves.length

variable {t : MerkleTree} {leaves : List Bytes}

theorem Holds.iter (h : Holds sha256 t leaves) :
    t.root.iter = leaves := by
  rw [h.root, Tree.iter_ofLeaves]

theorem fromLevels_eq {fuel : ℕ} {cur : List Tree} (hcur : cur ≠ []) (hf : cur.length ≤ fuel)
    (height nodesCount : ℕ) : ∃ height' nodesCount', fromLevels sha256 fuel cur height nodesCount =
      ([merge (Tree.combine sha256) (.empty (Hash.hashEmpty sha256)) cur],
        height', nodesCount') := by
  induction fuel generalizing cur height nodesCount with
  | zero => exact absurd (length_eq_zero_iff.mp (by omega)) hcur
  | succ fuel ih =>
    rw [fromLevels]
    split_ifs with h
    · have hlen := @BalancedMerge.pairUp_length _ (Tree.combine sha256) cur
      have hne : pairUp (Tree.combine sha256) cur ≠ [] := by
        apply length_pos_iff.mp
        omega
      obtain ⟨height', nodesCount', he⟩ := ih hne (by omega) (height + 1)
        (nodesCount + cur.length / 2)
      exact ⟨height', nodesCount', by rw [he, BalancedMerge.merge_pairUp]⟩
    · match cur, hcur, h with
      | [x], _, _ => exact ⟨height, nodesCount, by rw [BalancedMerge.merge_singleton]⟩
      | x :: y :: cur, _, h => exact absurd (by simp) h

theorem fromVec_holds (values : List Bytes) :
    ∃ t, fromVec sha256 values = .ok t ∧ Holds sha256 t values := by
  rw [fromVec]
  split_ifs with h
  · rw [List.isEmpty_iff] at h
    exact ⟨_, rfl, by rw [h, Tree.ofLeaves_nil], by rw [h]; rfl⟩
  · rw [List.isEmpty_iff] at h
    have hne : values.map (Tree.newLeaf sha256) ≠ [] := by
      rw [ne_eq, map_eq_nil_iff]
      exact h
    obtain ⟨height, nodesCount, he⟩ := @fromLevels_eq sha256 values.length _ hne
      (by rw [length_map]) 0 0
    rw [he]
    exact ⟨_, rfl, rfl, rfl⟩

theorem countBits_eq_zero_iff {v : ℕ} : countBits v = 0 ↔ v = 0 := by
  rw [countBits]
  by_cases h : v = 0
  · rw [dif_pos h]
    exact iff_of_true rfl h
  · rw [dif_neg h]
    exact iff_of_false (Nat.succ_ne_zero _) h

theorem countBits_eq_one_iff {v : ℕ} : countBits v = 1 ↔ ∃ j, v = 2 ^ j := by
  rw [← Nat.isPowerOfTwo, ← Nat.ne_zero_and_sub_one_eq_zero_iff_isPowerOfTwo, countBits]
  by_cases h : v = 0
  · rw [dif_pos h]
    exact iff_of_false Nat.zero_ne_one (fun hv => hv.1 h)
  · rw [dif_neg h, Nat.add_eq_right, countBits_eq_zero_iff]
    exact ⟨fun hv => ⟨h, hv⟩, fun hv => hv.2⟩

theorem append_holds_of_pow (h : Holds sha256 t leaves) {j : ℕ} (hj : leaves.length = 2 ^ j)
    (v : Bytes) :
    ∃ t', append sha256 t v = .ok t' ∧ Holds sha256 t' (leaves ++ [v]) := by
  have hpos : 1 ≤ 2 ^ j := Nat.pow_pos (by omega)
  have hcount := h.count
  obtain ⟨newRight, hnew, hright⟩ := @fromVec_holds sha256 [v]
  have hroot : Tree.ofLeaves sha256 (leaves ++ [v]) =
      Tree.combine sha256 t.root newRight.root := by
    rw [Tree.ofLeaves_append (b := [v]) hj Nat.one_pos hpos, h.root, hright.root]
  have hlen : (leaves ++ [v]).length = t.count + 1 := by
    rw [length_append, hcount, length_singleton]
  have hbits : ¬ countBits t.count ≠ 1 := by
    rw [not_not, countBits_eq_one_iff]
    exact ⟨j, hcount.trans hj⟩
  rw [append, if_neg (by omega), if_neg hbits, hnew, Outcome.ok_bind]
  by_cases htwo : 2 ≤ leaves.length
  · obtain ⟨a, b, i, rfl, ha, hb, hle⟩ := BalancedMerge.exists_append_of_two_le htwo
    have hnode := h.root
    rw [Tree.ofLeaves_append ha hb hle, Tree.combine] at hnode
    rw [hnode] at hroot ⊢
    exact ⟨_, rfl, hroot.symm, hlen.symm⟩
  · match leaves, h, hj, htwo with
    | [], _, hj, _ => exact absurd hj (Nat.pow_pos (by omega)).ne
    | [x], h, _, _ =>
      have hleaf := h.root
      rw [Tree.ofLeaves_singleton, Tree.newLeaf] at hleaf
      rw [hleaf] at hroot ⊢
      exact ⟨_, rfl, hroot.symm, hlen.symm⟩
    | x :: y :: leaves, _, _, htwo => exact absurd (by simp) htwo

theorem append_holds_of_not_pow (h : Holds sha256 t leaves) (hzero : leaves.length ≠ 0)
    (hj : ¬ ∃ j, leaves.length = 2 ^ j) (v : Bytes) :
    ∃ t', append sha256 t v = .ok t' ∧ Holds sha256 t' (leaves ++ [v]) := by
  have hcount := h.count
  have hone : leaves.length ≠ 1 := fun he => hj ⟨0, he⟩
  have hbits : countBits t.count ≠ 1 := by
    rw [ne_eq, countBits_eq_one_iff, hcount]
    exact hj
  obtain ⟨a, b, i, rfl, ha, hb, hle⟩ :=
    BalancedMerge.exists_append_of_two_le (l := leaves) (by omega)
  have hlt : b.length < 2 ^ i := by
    refine lt_of_le_of_ne hle (fun he => hj ⟨i + 1, ?_⟩)
    rw [length_append, Nat.pow_succ]
    omega
  obtain ⟨newRight, hnew, hright⟩ := @fromVec_holds sha256 (b ++ [v])
  have hnode := h.root
  rw [Tree.ofLeaves_append ha hb hle, Tree.combine] at hnode
  have hroot : Tree.ofLeaves sha256 (a ++ b ++ [v]) =
      Tree.combine sha256 (Tree.ofLeaves sha256 a) newRight.root := by
    rw [append_assoc, Tree.ofLeaves_append ha, hright.root]
    · simp
    · rw [length_append, length_singleton]
      omega
  rw [append, if_neg (by omega), if_pos hbits, hnode]
  simp only [Tree.iter_ofLeaves, hnew, Outcome.ok_bind, Outcome.pure_eq_ok]
  refine ⟨_, rfl, hroot.symm, ?_⟩
  rw [length_append, hcount, length_singleton]

theorem append_holds (h : Holds sha256 t leaves) (v : Bytes) :
    ∃ t', append sha256 t v = .ok t' ∧ Holds sha256 t' (leaves ++ [v]) := by
  by_cases hzero : leaves.length = 0
  · have hnil := length_eq_zero_iff.mp hzero
    rw [append, if_pos (h.count.trans hzero)]
    refine ⟨_, rfl, ?_, ?_⟩
    · rw [hnil, nil_append, Tree.ofLeaves_singleton]
    · rw [hnil, h.count, hzero]
      rfl
  · by_cases hpow : ∃ j, leaves.length = 2 ^ j
    · obtain ⟨j, hj⟩ := hpow
      exact append_holds_of_pow h hj v
    · exact append_holds_of_not_pow h hzero hpow v

end MerkleTree

end IndySdk.Ledger
