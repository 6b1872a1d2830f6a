import IndySdk.ConsistencyPath
import IndySdk.MerkleGrowth

/-!
# What a consistency proof binds

The list of hashes that the log's standard gives for a prefix of a tree is accepted. An accepted
list shows that the old tree is this prefix, as long as no two different inputs that are hashed for
the two trees and for the check share a digest.
-/

namespace IndySdk.Ledger

open List
open BalancedMerge (splitPoint)

/-- No two of the inputs share a digest. -/
def CollisionFree (sha256 : Sha256) (inputs : List Bytes) : Prop :=
  ∀ x ∈ inputs, ∀ y ∈ inputs, sha256 x = sha256 y → x = y

variable (sha256 : Sha256)

def leavesHash (leaves : List Bytes) : Bytes := (Tree.ofLeaves sha256 leaves).hash

/-- What is hashed for the nodes of a tree. -/
def Tree.inputs : Tree → List Bytes
  | .empty _ => [[]]
  | .leaf _ value => [0x00 :: value]
  | .node _ left right => (0x01 :: (left.hash ++ right.hash)) :: (left.inputs ++ right.inputs)

def leavesInputs (leaves : List Bytes) : List Bytes := (Tree.ofLeaves sha256 leaves).inputs

/-- The hashes that lead from a prefix of the leaves to all of them, from the bottom up. The hash of
a part that is all old is left out on the way down to it from the root. -/
def subproof (leaves : List Bytes) (m : ℕ) (fromRoot : Bool) : List Bytes :=
  if _h : 0 < m ∧ m < leaves.length then
    let k := splitPoint leaves.length
    if m ≤ k then
      subproof (leaves.take k) m fromRoot ++ [leavesHash sha256 (leaves.drop k)]
    else subproof (leaves.drop k) (m - k) false ++ [leavesHash sha256 (leaves.take k)]
  else if fromRoot then []
  else [leavesHash sha256 leaves]
termination_by leaves.length
decreasing_by
  · have := BalancedMerge.splitPoint_lt (n := leaves.length) (by omega)
    rw [length_take]
    omega
  · have := BalancedMerge.splitPoint_pos leaves.length
    rw [length_drop]
    omega

def prefixProof (leaves : List Bytes) (m : ℕ) : List Bytes := subproof sha256 leaves m true

namespace MerkleTree

/-- What is hashed at one step. -/
def stepInputs (hashes : Bytes × Bytes) : ClimbStep × Bytes → List Bytes
  | (.left, sibling) => [0x01 :: (sibling ++ hashes.1), 0x01 :: (sibling ++ hashes.2)]
  | (.right, sibling) => [0x01 :: (hashes.2 ++ sibling)]

def climbInputs (hashes : Bytes × Bytes) : List (ClimbStep × Bytes) → List Bytes
  | [] => []
  | step :: steps => stepInputs hashes step ++ climbInputs (climbStep sha256 hashes step) steps

/-- What is hashed by the check of a proof. -/
def checkInputs (t : MerkleTree) (newSize : ℕ) (proof : List Bytes) : List Bytes :=
  match startHash t (skipRight (t.count - 1) (newSize - 1)).1 proof with
  | none => []
  | some (hash, proofs) =>
    climbInputs sha256 (hash, hash) ((proofPath t.count newSize).zip proofs)

end MerkleTree

variable {sha256} {a b : List Bytes} {j : ℕ}

theorem leavesHash_append (ha : a.length = 2 ^ j) (hb : 0 < b.length) (hle : b.length ≤ 2 ^ j) :
    leavesHash sha256 (a ++ b) =
      Hash.hashNodes sha256 (leavesHash sha256 a) (leavesHash sha256 b) := by
  rw [leavesHash, Tree.ofLeaves_append ha hb hle]
  rfl

theorem leavesInputs_append (ha : a.length = 2 ^ j) (hb : 0 < b.length) (hle : b.length ≤ 2 ^ j) :
    leavesInputs sha256 (a ++ b) =
      (0x01 :: (leavesHash sha256 a ++ leavesHash sha256 b)) ::
        (leavesInputs sha256 a ++ leavesInputs sha256 b) := by
  rw [leavesInputs, Tree.ofLeaves_append ha hb hle]
  rfl

theorem leavesHash_eq_digest (leaves : List Bytes) : ∃ b, leavesHash sha256 leaves = sha256 b := by
  by_cases htwo : 2 ≤ leaves.length
  · obtain ⟨a, b, j, rfl, ha, hb, hle⟩ := BalancedMerge.exists_append_of_two_le htwo
    exact ⟨_, leavesHash_append ha hb hle⟩
  · match leaves, htwo with
    | [], _ => exact ⟨[], by rw [leavesHash, Tree.ofLeaves_nil]; rfl⟩
    | [v], _ => exact ⟨0x00 :: v, by rw [leavesHash, Tree.ofLeaves_singleton]; rfl⟩
    | v :: w :: leaves, htwo => exact absurd (by simp) htwo

theorem subproof_of_left {a b : List Bytes} {j m : ℕ} {fromRoot : Bool} (ha : a.length = 2 ^ j)
    (hb : 0 < b.length) (hle : b.length ≤ 2 ^ j) (hpos : 0 < m) (hm : m ≤ a.length) :
    subproof sha256 (a ++ b) m fromRoot =
      subproof sha256 a m fromRoot ++ [leavesHash sha256 b] := by
  have hlen : (a ++ b).length = a.length + b.length := length_append
  have hsplit : splitPoint (a ++ b).length = a.length := by
    rw [ha]
    exact BalancedMerge.splitPoint_eq (by omega) (by omega)
  rw [subproof.eq_def (sha256) (a ++ b), dif_pos ⟨hpos, by omega⟩]
  simp only [hsplit, if_pos hm, take_left, drop_left]

theorem subproof_of_right {m : ℕ} {fromRoot : Bool} (ha : a.length = 2 ^ j) (hle : b.length ≤ 2 ^ j)
    (hpos : 0 < m) (hm : m < b.length) :
    subproof sha256 (a ++ b) (a.length + m) fromRoot =
      subproof sha256 b m false ++ [leavesHash sha256 a] := by
  have hlen : (a ++ b).length = a.length + b.length := length_append
  have hsplit : splitPoint (a ++ b).length = a.length := by
    rw [ha]
    exact BalancedMerge.splitPoint_eq (by omega) (by omega)
  rw [subproof.eq_def (sha256) (a ++ b), dif_pos ⟨by omega, by omega⟩]
  simp only [hsplit, if_neg (show ¬ a.length + m ≤ a.length by omega), take_left,
    drop_left, Nat.add_sub_cancel_left]

theorem subproof_self {leaves : List Bytes} {fromRoot : Bool} :
    subproof sha256 leaves leaves.length fromRoot =
      if fromRoot then [] else [leavesHash sha256 leaves] := by
  rw [subproof, dif_neg (fun h => lt_irrefl _ h.2)]

/-- What the standard's list for a prefix consists of, and what climbing along it gives. -/
structure Climbs (sha256 : Sha256) (leaves : List Bytes) (m : ℕ) (first : Bytes)
    (siblings : List Bytes) : Prop where
  whole : subproof sha256 leaves m false = first :: siblings
  of_pow : (∃ j, m = 2 ^ j) →
    prefixProof sha256 leaves m = siblings ∧ first = leavesHash sha256 (leaves.take m)
  of_not_pow : (¬ ∃ j, m = 2 ^ j) → prefixProof sha256 leaves m = first :: siblings
  length : siblings.length = (MerkleTree.proofPath m leaves.length).length
  climbed : MerkleTree.climb sha256 (MerkleTree.proofPath m leaves.length) (first, first) siblings =
    (leavesHash sha256 (leaves.take m), leavesHash sha256 leaves)

theorem climbs_pow {leaves : List Bytes} (h : leaves.length = 2 ^ j) :
    Climbs sha256 leaves leaves.length (leavesHash sha256 leaves) [] := by
  have hpath : MerkleTree.proofPath leaves.length leaves.length = [] := by
    rw [h, MerkleTree.proofPath_pow_self]
  refine ⟨?_, ?_, ?_, ?_, ?_⟩
  · rw [subproof_self]
    rfl
  · intro _
    rw [prefixProof, subproof_self, take_length]
    exact ⟨rfl, rfl⟩
  · intro hpow
    exact absurd ⟨j, h⟩ hpow
  · rw [hpath]
    rfl
  · rw [hpath, take_length]
    rfl

theorem Climbs.left {m : ℕ} {first : Bytes} {siblings : List Bytes} (ha : a.length = 2 ^ j)
    (hb : 0 < b.length) (hle : b.length ≤ 2 ^ j) (hpos : 0 < m) (hm : m ≤ a.length)
    (h : Climbs sha256 a m first siblings) :
    Climbs sha256 (a ++ b) m first (siblings ++ [leavesHash sha256 b]) := by
  have hpath : MerkleTree.proofPath m (a ++ b).length =
      MerkleTree.proofPath m a.length ++ [.right] := by
    rw [length_append, ha]
    exact MerkleTree.proofPath_of_left hpos (by omega) (by omega) (by omega)
  have htake : (a ++ b).take m = a.take m := take_append_of_le_length hm
  have hwhole := @subproof_of_left sha256 a b j m false ha hb hle hpos hm
  have hhonest : prefixProof sha256 (a ++ b) m =
      prefixProof sha256 a m ++ [leavesHash sha256 b] := subproof_of_left ha hb hle hpos hm
  refine ⟨?_, ?_, ?_, ?_, ?_⟩
  · rw [hwhole, h.whole, cons_append]
  · intro hpow
    rw [hhonest, htake, (h.of_pow hpow).1]
    exact ⟨rfl, (h.of_pow hpow).2⟩
  · intro hpow
    rw [hhonest, h.of_not_pow hpow, cons_append]
  · rw [hpath, length_append, length_append, h.length]
    rfl
  · rw [hpath, MerkleTree.climb_concat h.length, h.climbed, htake, leavesHash_append ha hb hle]
    rfl

theorem Climbs.right {m : ℕ} {first : Bytes} {siblings : List Bytes} (ha : a.length = 2 ^ j)
    (hle : b.length ≤ 2 ^ j) (hpos : 0 < m) (hm : m < b.length)
    (h : Climbs sha256 b m first siblings) :
    Climbs sha256 (a ++ b) (a.length + m) first (siblings ++ [leavesHash sha256 a]) := by
  have hpath : MerkleTree.proofPath (a.length + m) (a ++ b).length =
      MerkleTree.proofPath m b.length ++ [.left] := by
    rw [length_append, ha]
    exact MerkleTree.proofPath_of_right hpos hm hle
  have htake : (a ++ b).take (a.length + m) = a ++ b.take m := take_length_add_append m
  have hlength : (b.take m).length = m := length_take_of_le hm.le
  have hwhole : ∀ fromRoot, subproof sha256 (a ++ b) (a.length + m) fromRoot =
      first :: (siblings ++ [leavesHash sha256 a]) := by
    intro fromRoot
    rw [subproof_of_right ha hle hpos hm, h.whole, cons_append]
  refine ⟨hwhole false, ?_, fun _ => hwhole true, ?_, ?_⟩
  · rintro ⟨i, hi⟩
    have hlow : 2 ^ j < 2 ^ i := by omega
    have hhigh : 2 ^ i < 2 ^ (j + 1) := by
      rw [Nat.pow_succ]
      omega
    have hlt := (Nat.pow_lt_pow_iff_right Nat.one_lt_two).mp hlow
    have hlt' := (Nat.pow_lt_pow_iff_right Nat.one_lt_two).mp hhigh
    omega
  · rw [hpath, length_append, length_append, h.length]
    rfl
  · rw [hpath, MerkleTree.climb_concat h.length, h.climbed, htake,
      leavesHash_append ha (by omega) hle, leavesHash_append ha (by omega) (by omega)]
    rfl

/-- Every prefix of a tree has a list along which the hash of the prefix and of the tree are
climbed to. -/
theorem exists_climbs {leaves : List Bytes} {m : ℕ} (hpos : 0 < m) (hm : m < leaves.length) :
    ∃ first siblings, Climbs sha256 leaves m first siblings := by
  induction hn : leaves.length using Nat.strong_induction_on generalizing leaves m with
  | h n ih =>
    obtain ⟨a, b, j, rfl, ha, hb, hle⟩ :=
      BalancedMerge.exists_append_of_two_le (l := leaves) (by omega)
    have hlen : (a ++ b).length = a.length + b.length := length_append
    rcases lt_trichotomy m a.length with hlt | heq | hgt
    · obtain ⟨first, siblings, h⟩ := ih a.length (by omega) hpos hlt rfl
      exact ⟨first, _, h.left ha hb hle hpos hlt.le⟩
    · rw [heq]
      exact ⟨_, _, (climbs_pow ha).left ha hb hle (by omega) le_rfl⟩
    · obtain ⟨first, siblings, h⟩ :=
        @ih b.length (by have := Nat.two_pow_pos j; omega) b (m - a.length) (by omega)
          (by omega) rfl
      have hright := h.right ha hle (by omega) (by omega)
      rw [Nat.add_sub_cancel' hgt.le] at hright
      exact ⟨first, _, hright⟩

namespace MerkleTree

theorem climbInputs_concat (hashes : Bytes × Bytes) (steps : List (ClimbStep × Bytes))
    (step : ClimbStep × Bytes) :
    climbInputs sha256 hashes (steps ++ [step]) = climbInputs sha256 hashes steps ++
      stepInputs (steps.foldl (climbStep sha256) hashes) step := by
  induction steps generalizing hashes with
  | nil => simp [climbInputs]
  | cons first steps ih =>
    rw [cons_append, climbInputs, climbInputs, ih, append_assoc, foldl_cons]

variable {proofs leaves : List Bytes}

theorem exists_concat {steps : List ClimbStep} {step : ClimbStep}
    (hlen : proofs.length = (steps ++ [step]).length) :
    ∃ init last, proofs = init ++ [last] ∧ init.length = steps.length := by
  rw [length_append, length_singleton] at hlen
  have hne : proofs ≠ [] := length_pos_iff.mp (by omega)
  refine ⟨proofs.dropLast, proofs.getLast hne, (dropLast_concat_getLast hne).symm, ?_⟩
  rw [length_dropLast, hlen, Nat.add_sub_cancel]

theorem length_climb_new (hsize : ∀ b, (sha256 b).length = 32) {steps : List ClimbStep}
    (hlen : proofs.length = steps.length) (hne : steps ≠ []) (hashes : Bytes × Bytes) :
    (climb sha256 steps hashes proofs).2.length = 32 := by
  obtain ⟨init, last, rfl⟩ : ∃ init last, steps = init ++ [last] :=
    ⟨_, _, (dropLast_concat_getLast hne).symm⟩
  obtain ⟨proofs, proof, rfl, hinit⟩ := exists_concat hlen
  rw [climb_concat hinit]
  cases last with
  | left => exact hsize _
  | right => exact hsize _

theorem length_leavesHash (hsize : ∀ b, (sha256 b).length = 32) (leaves : List Bytes) :
    (leavesHash sha256 leaves).length = 32 := by
  obtain ⟨b, hb⟩ := @leavesHash_eq_digest sha256 leaves
  rw [hb, hsize]

/-- Two nodes of one digest have the same children, where both right or both left hashes are known
to be digests. -/
theorem children_eq {inputs : List Bytes} (hfree : CollisionFree sha256 inputs)
    {left right left' right' : Bytes} (hmem : 0x01 :: (left ++ right) ∈ inputs)
    (hmem' : 0x01 :: (left' ++ right') ∈ inputs)
    (hlen : left.length = left'.length ∨ right.length = right'.length)
    (h : Hash.hashNodes sha256 left right = Hash.hashNodes sha256 left' right') :
    left = left' ∧ right = right' := by
  have hall := (List.cons.inj (hfree _ hmem _ hmem' h)).2
  rcases hlen with hlen | hlen
  · exact append_inj hall hlen
  · exact append_inj' hall hlen

/-- Climbing to the hash of a tree from below, and to the hash of an old tree of the size of a
prefix, shows that the prefix has this hash. -/
theorem climb_sound (hsize : ∀ b, (sha256 b).length = 32) {inputs : List Bytes}
    (hfree : CollisionFree sha256 inputs) {oldLeaves : List Bytes} (hpos : 0 < oldLeaves.length)
    (hm : oldLeaves.length < leaves.length ∨
      oldLeaves.length = leaves.length ∧ ∃ j, leaves.length = 2 ^ j) {first : Bytes}
    (hlen : proofs.length = (proofPath oldLeaves.length leaves.length).length)
    (hleaves : ∀ x ∈ leavesInputs sha256 leaves, x ∈ inputs)
    (holdLeaves : ∀ x ∈ leavesInputs sha256 oldLeaves, x ∈ inputs)
    (hclimb : ∀ x ∈ climbInputs sha256 (first, first)
      ((proofPath oldLeaves.length leaves.length).zip proofs), x ∈ inputs)
    (h : climb sha256 (proofPath oldLeaves.length leaves.length) (first, first) proofs =
      (leavesHash sha256 oldLeaves, leavesHash sha256 leaves)) :
    leavesHash sha256 oldLeaves = leavesHash sha256 (leaves.take oldLeaves.length) := by
  induction hn : leaves.length using Nat.strong_induction_on
    generalizing leaves oldLeaves proofs with
  | h n ih =>
    rcases hm with hm | ⟨heq, j, hj⟩
    · obtain ⟨a, b, j, rfl, ha, hb, hle⟩ :=
        BalancedMerge.exists_append_of_two_le (l := leaves) (by omega)
      have hsum : (a ++ b).length = a.length + b.length := length_append
      rw [leavesInputs_append ha hb hle] at hleaves
      rw [leavesHash_append ha hb hle] at h
      by_cases hin : oldLeaves.length ≤ a.length
      · have hpath : proofPath oldLeaves.length (a ++ b).length =
            proofPath oldLeaves.length a.length ++ [.right] := by
          rw [hsum, ha]
          exact proofPath_of_left hpos (by omega) (by omega) (by omega)
        rw [hpath] at hlen hclimb h
        obtain ⟨proofs, proof, rfl, hinit⟩ := exists_concat hlen
        rw [climb_concat hinit] at h
        rw [zip_append hinit.symm, zip_cons_cons, zip_nil_right,
          climbInputs_concat] at hclimb
        obtain ⟨hold, hnew⟩ := Prod.mk.inj h
        have hdigest : (climb sha256 (proofPath oldLeaves.length a.length) (first, first)
            proofs).2.length = (leavesHash sha256 a).length := by
          rw [length_leavesHash hsize]
          by_cases hnil : proofPath oldLeaves.length a.length = []
          · rw [hnil] at hold ⊢
            exact (congrArg List.length hold).trans (length_leavesHash hsize oldLeaves)
          · exact length_climb_new hsize hinit hnil _
        obtain ⟨ha', -⟩ := children_eq hfree
          (hclimb _ (mem_append_right _ mem_cons_self)) (hleaves _ mem_cons_self)
          (.inl hdigest) hnew
        have hrec := ih a.length (by omega) hpos
          (hin.lt_or_eq.imp_right (fun he => ⟨he, j, ha⟩)) hinit
          (fun x hx => hleaves x (mem_cons_of_mem _ (mem_append_left _ hx))) holdLeaves
          (fun x hx => hclimb x (mem_append_left _ hx)) (Prod.ext hold ha') rfl
        rw [hrec, take_append_of_le_length hin]
      · rw [not_le] at hin
        obtain ⟨c, d, rfl, hc⟩ : ∃ c d, oldLeaves = c ++ d ∧ c.length = a.length :=
          ⟨_, _, (take_append_drop a.length oldLeaves).symm,
            length_take_of_le hin.le⟩
        have hsumOld : (c ++ d).length = a.length + d.length := by rw [length_append, hc]
        have hpath : proofPath (c ++ d).length (a ++ b).length =
            proofPath d.length b.length ++ [.left] := by
          rw [hsumOld, hsum, ha]
          exact proofPath_of_right (by omega) (by omega) hle
        rw [hpath] at hlen hclimb h
        obtain ⟨proofs, proof, rfl, hinit⟩ := exists_concat hlen
        rw [climb_concat hinit, leavesHash_append (hc.trans ha) (by omega) (by omega)] at h
        rw [leavesInputs_append (hc.trans ha) (by omega) (by omega)] at holdLeaves
        rw [zip_append hinit.symm, zip_cons_cons, zip_nil_right,
          climbInputs_concat] at hclimb
        obtain ⟨hold, hnew⟩ := Prod.mk.inj h
        have hne : proofPath d.length b.length ≠ [] :=
          proofPath_ne_nil (by omega) (by omega)
        obtain ⟨ha', hb'⟩ := children_eq hfree
          (hclimb _ (mem_append_right _ (mem_cons_of_mem _ mem_cons_self)))
          (hleaves _ mem_cons_self)
          (.inr ((length_climb_new hsize hinit hne _).trans
            (length_leavesHash hsize b).symm)) hnew
        obtain ⟨hc', hd'⟩ := children_eq hfree
          (hclimb _ (mem_append_right _ mem_cons_self)) (holdLeaves _ mem_cons_self)
          (.inl (by rw [ha', length_leavesHash hsize, length_leavesHash hsize])) hold
        have hrec := ih b.length (by omega) (by omega) (.inl (by omega)) hinit
          (fun x hx => hleaves x (mem_cons_of_mem _ (mem_append_right _ hx)))
          (fun x hx => holdLeaves x (mem_cons_of_mem _ (mem_append_right _ hx)))
          (fun x hx => hclimb x (mem_append_left _ hx)) (Prod.ext hd' hb') rfl
        have hcount : (b.take d.length).length = d.length := length_take_of_le (by omega)
        rw [hsumOld, take_length_add_append, leavesHash_append (hc.trans ha)
          (by omega) (by omega),
          leavesHash_append ha (by omega) (by omega), hrec, ← hc', ha']
    · have hpath : proofPath oldLeaves.length leaves.length = [] := by
        rw [heq, hj, proofPath_pow_self]
      rw [hpath] at h
      obtain ⟨hold, hnew⟩ := Prod.mk.inj h
      rw [heq, take_length]
      exact hold.symm.trans hnew

/-- The tree that grows from the empty tree when the leaves are appended. -/
def Grown (sha256 : Sha256) (leaves : List Bytes) (t : MerkleTree) : Prop :=
  (fromVec sha256 [] >>= leaves.foldlM (append sha256)) = .ok t

variable {t old : MerkleTree}

theorem Grown.holds (h : Grown sha256 leaves t) :
    Holds sha256 t leaves := by
  obtain ⟨empty, hempty, hsized⟩ := @fromVec_sized sha256 []
  obtain ⟨t', ht', hsized'⟩ := appends_sized hsized leaves
  rw [Grown, hempty, Outcome.ok_bind, ht'] at h
  rw [← Outcome.ok.inj h]
  exact hsized'.toHolds

theorem Holds.rootHash (h : Holds sha256 t leaves) :
    t.rootHash = leavesHash sha256 leaves := by
  rw [MerkleTree.rootHash, h.root, leavesHash]

theorem startHash_of_pow (hpos : 0 < t.count) (hpow : ∃ j, t.count = 2 ^ j) (newSize : ℕ)
    (proof : List Bytes) :
    startHash t (skipRight (t.count - 1) (newSize - 1)).1 proof = some (t.rootHash, proof) := by
  have hzero : (skipRight (t.count - 1) (newSize - 1)).1 = 0 := by
    rw [skipRight_eq_zero_iff, Nat.sub_add_cancel hpos]
    exact hpow
  rw [startHash.eq_def, hzero, if_neg (not_not.mpr rfl)]

theorem startHash_of_not_pow (hpos : 0 < t.count) (hpow : ¬ ∃ j, t.count = 2 ^ j) (newSize : ℕ)
    (first : Bytes) (proofs : List Bytes) :
    startHash t (skipRight (t.count - 1) (newSize - 1)).1 (first :: proofs) =
      some (first, proofs) := by
  have hzero : (skipRight (t.count - 1) (newSize - 1)).1 ≠ 0 := by
    rw [ne_eq, skipRight_eq_zero_iff, Nat.sub_add_cancel hpos]
    exact hpow
  rw [startHash.eq_def, if_pos hzero]

theorem rebuiltHashes_prefixProof (hpos : 0 < old.count) (hlt : old.count < leaves.length)
    (hold : Holds sha256 old (leaves.take old.count)) :
    rebuiltHashes sha256 old leaves.length (prefixProof sha256 leaves old.count) =
      some (old.rootHash, leavesHash sha256 leaves) := by
  obtain ⟨first, siblings, h⟩ := @exists_climbs sha256 leaves old.count hpos hlt
  have hstart : startHash old (skipRight (old.count - 1) (leaves.length - 1)).1
      (prefixProof sha256 leaves old.count) = some (first, siblings) := by
    by_cases hpow : ∃ j, old.count = 2 ^ j
    · obtain ⟨hproof, hfirst⟩ := h.of_pow hpow
      rw [hproof, startHash_of_pow hpos hpow, hfirst, hold.rootHash]
    · rw [h.of_not_pow hpow, startHash_of_not_pow hpos hpow]
  rw [rebuiltHashes_eq, hstart, Option.bind_some, if_pos h.length.ge, h.climbed, hold.rootHash]

theorem consistencyProof_prefixProof (hpos : 0 < old.count) (hle : old.count ≤ leaves.length)
    (hold : Holds sha256 old (leaves.take old.count)) :
    consistencyProof sha256 old (leavesHash sha256 leaves) leaves.length
      (prefixProof sha256 leaves old.count) = .ok true := by
  rw [consistencyProof, if_neg hpos.ne']
  rcases hle.lt_or_eq with hlt | heq
  · have hsame : ¬ (old.count = leaves.length ∧ old.rootHash = leavesHash sha256 leaves) :=
      fun h => hlt.ne h.1
    rw [if_neg hsame, if_neg hle.not_gt, rebuiltHashes_prefixProof hpos hlt hold]
    simp
  · rw [heq, take_length] at hold
    rw [if_pos ⟨heq, hold.rootHash⟩]

theorem zip_take_length (steps : List ClimbStep) (proofs : List Bytes) :
    steps.zip (proofs.take steps.length) = steps.zip proofs := by
  induction steps generalizing proofs with
  | nil => rfl
  | cons step steps ih =>
    cases proofs with
    | nil => rfl
    | cons proof proofs =>
      rw [length_cons, take_succ_cons, zip_cons_cons, zip_cons_cons, ih]

theorem consistencyProof_ok {newRootHash : Bytes} {newSize : ℕ} {proof : List Bytes}
    (hpos : 0 < t.count) (hlt : t.count < newSize)
    (h : consistencyProof sha256 t newRootHash newSize proof = .ok true) :
    ∃ first proofs, startHash t (skipRight (t.count - 1) (newSize - 1)).1 proof =
        some (first, proofs) ∧ (proofPath t.count newSize).length ≤ proofs.length ∧
      climb sha256 (proofPath t.count newSize) (first, first) proofs =
        (t.rootHash, newRootHash) := by
  have hsame : ¬ (t.count = newSize ∧ t.rootHash = newRootHash) := fun h => hlt.ne h.1
  rw [consistencyProof, if_neg hpos.ne', if_neg hsame, if_neg hlt.not_gt, rebuiltHashes_eq] at h
  cases hstart : startHash t (skipRight (t.count - 1) (newSize - 1)).1 proof with
  | none =>
    rw [hstart] at h
    cases h
  | some start =>
    rw [hstart, Option.bind_some] at h
    by_cases hlen : (proofPath t.count newSize).length ≤ start.2.length
    · rw [if_pos hlen] at h
      simp only [Outcome.ok.injEq, Bool.and_eq_true, decide_eq_true_eq] at h
      exact ⟨start.1, start.2, rfl, hlen, Prod.ext h.2 h.1⟩
    · rw [if_neg hlen] at h
      cases h

theorem rootHash_of_accepted (hsize : ∀ b, (sha256 b).length = 32) {oldLeaves : List Bytes}
    (hpos : 0 < oldLeaves.length) (hle : oldLeaves.length ≤ leaves.length)
    (hold : Holds sha256 old oldLeaves) {proof : List Bytes}
    (hfree : CollisionFree sha256 (leavesInputs sha256 leaves ++ leavesInputs sha256 oldLeaves ++
      checkInputs sha256 old leaves.length proof))
    (h : consistencyProof sha256 old (leavesHash sha256 leaves) leaves.length proof = .ok true) :
    old.rootHash = leavesHash sha256 (leaves.take oldLeaves.length) := by
  have hcount := hold.count
  rcases hle.lt_or_eq with hlt | heq
  · rw [← hcount] at hpos hlt
    obtain ⟨first, proofs, hstart, hlen, hclimb⟩ := consistencyProof_ok hpos hlt h
    rw [hcount] at hpos hlt hlen hclimb
    rw [checkInputs, hstart, hcount] at hfree
    simp only [← zip_take_length _ proofs] at hfree
    rw [hold.rootHash] at hclimb ⊢
    rw [climb, ← zip_take_length] at hclimb
    exact climb_sound hsize hfree hpos (.inl hlt) (length_take_of_le hlen)
      (fun x hx => mem_append_left _ (mem_append_left _ hx))
      (fun x hx => mem_append_left _ (mem_append_right _ hx))
      (fun x hx => mem_append_right _ hx) hclimb
  · rw [heq, take_length]
    rw [← heq, ← hcount] at h
    exact rootHash_of_consistencyProof (by omega) h

/-- The proof that the standard gives for a prefix is accepted, and whatever is accepted for a tree
of its size shows that tree to have the hash of the prefix. -/
theorem consistencyProof_complete_sound (sha256 : Sha256) (hsize : ∀ b, (sha256 b).length = 32)
    {leaves : List Bytes} {t : MerkleTree} (ht : Grown sha256 leaves t) {m : ℕ} (hpos : 0 < m)
    (hm : m ≤ leaves.length) {part : MerkleTree} (hpart : Grown sha256 (leaves.take m) part) :
    consistencyProof sha256 part t.rootHash t.count (prefixProof sha256 leaves m) = .ok true ∧
      ∀ oldLeaves old proof, Grown sha256 oldLeaves old → oldLeaves.length = m →
        CollisionFree sha256 (leavesInputs sha256 leaves ++ leavesInputs sha256 oldLeaves ++
          checkInputs sha256 old leaves.length proof) →
        consistencyProof sha256 old t.rootHash t.count proof = .ok true →
        old.rootHash = part.rootHash := by
  have hcount : part.count = m := hpart.holds.count.trans (length_take_of_le hm)
  rw [ht.holds.rootHash, ht.holds.count]
  constructor
  · rw [← hcount] at hpos hm hpart ⊢
    exact consistencyProof_prefixProof hpos hm hpart.holds
  · intro oldLeaves old proof hold hlength hfree h
    rw [hpart.holds.rootHash, ← hlength]
    rw [← hlength] at hpos hm
    exact rootHash_of_accepted hsize hpos hm hold.holds hfree h

theorem exists_grown (sha256 : Sha256) (leaves : List Bytes) : ∃ t, Grown sha256 leaves t := by
  obtain ⟨empty, hempty, hsized⟩ := @fromVec_sized sha256 []
  obtain ⟨t, ht, -⟩ := appends_sized hsized leaves
  exact ⟨t, by rw [Grown, hempty, Outcome.ok_bind, ht]⟩

theorem consistencyProof_complete_sound_three :
    ∃ t part : MerkleTree, consistencyProof toySha256 part t.rootHash t.count
        (prefixProof toySha256 [[1], [2], [3]] 2) = .ok true ∧
      ∀ old, Grown toySha256 [[1], [2]] old →
        consistencyProof toySha256 old t.rootHash t.count
          [Hash.hashLeaf toySha256 [3]] = .ok true → old.rootHash = part.rootHash := by
  obtain ⟨t, ht⟩ := exists_grown toySha256 [[1], [2], [3]]
  obtain ⟨part, hpart⟩ := exists_grown toySha256 ([[1], [2], [3]].take 2)
  obtain ⟨hcomplete, hsound⟩ := consistencyProof_complete_sound toySha256
    (fun _ => Bytes.length_ofNat 32 _) ht (by decide : 0 < 2) (by decide) hpart
  refine ⟨t, part, hcomplete, fun old hold haccepted => ?_⟩
  have hroot := hold.holds.rootHash
  have hcount := hold.holds.count
  refine hsound [[1], [2]] old _ hold rfl ?_ haccepted
  have hstart : startHash old (skipRight (old.count - 1) (3 - 1)).1
      [Hash.hashLeaf toySha256 [3]] = some (old.rootHash, [Hash.hashLeaf toySha256 [3]]) :=
    startHash_of_pow (by rw [hcount]; decide) ⟨1, hcount⟩ 3 _
  rw [checkInputs, length_cons, length_cons, length_singleton, hstart, hroot, hcount]
  unfold CollisionFree
  decide +kernel

end MerkleTree

end IndySdk.Ledger
