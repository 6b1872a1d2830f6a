import IndySdk.MerkleGrowth
import Mathlib.Data.Fintype.EquivFin

/-!
# Inclusion proofs of the ledger tree

A proof climbs from a leaf to the root of its tree, with the sibling at every level. The check
follows the hashes from the root down to the last lemma and never looks at the value.
-/

namespace IndySdk.Ledger

/-- From which side a hash is taken. -/
inductive Positioned (α : Type) where
  | left (a : α)
  | right (a : α)
  deriving DecidableEq

/-- A lemma, without and with a sub-lemma. -/
inductive Lemma where
  | last (nodeHash : Bytes) (siblingHash : Option (Positioned Bytes))
  | above (nodeHash : Bytes) (siblingHash : Option (Positioned Bytes)) (subLemma : Lemma)
  deriving DecidableEq

structure Proof where
  rootHash : Bytes
  firstLemma : Lemma
  value : Bytes
  deriving DecidableEq

namespace Lemma

def nodeHash : Lemma → Bytes
  | .last nodeHash _ => nodeHash
  | .above nodeHash _ _ => nodeHash

def newLeafProof (hash needle : Bytes) : Option Lemma :=
  if hash = needle then some (.last hash none) else none

/-- The lemma for the first leaf with a hash. -/
def new : Tree → Bytes → Option Lemma
  | .empty _, _ => none
  | .leaf hash _, needle => newLeafProof hash needle
  | .node hash left right, needle =>
    match new left needle with
    | some subLemma => some (.above hash (some (.right right.hash)) subLemma)
    | none => (new right needle).map (fun subLemma =>
        .above hash (some (.left left.hash)) subLemma)

end Lemma

variable (sha256 : Sha256)

namespace Proof

def validateLemma : Lemma → Bool
  | .last _ siblingHash => siblingHash.isNone
  | .above _ none _ => false
  | .above nodeHash (some (.left hash)) sub =>
    decide (Hash.hashNodes sha256 hash sub.nodeHash = nodeHash) && validateLemma sub
  | .above nodeHash (some (.right hash)) sub =>
    decide (Hash.hashNodes sha256 sub.nodeHash hash = nodeHash) && validateLemma sub

def validate (proof : Proof) (rootHash : Bytes) : Bool :=
  if proof.rootHash ≠ rootHash ∨ proof.firstLemma.nodeHash ≠ rootHash then false
  else validateLemma sha256 proof.firstLemma

end Proof

def MerkleTree.genProof (t : MerkleTree) (value : Bytes) : Option Proof :=
  (Lemma.new t.root (Hash.hashLeaf sha256 value)).map (fun firstLemma =>
    ⟨t.rootHash, firstLemma, value⟩)

/-- Every node carries the hash of what is below it. -/
def Tree.Hashed : Tree → Prop
  | .empty hash => hash = Hash.hashEmpty sha256
  | .leaf hash value => hash = Hash.hashLeaf sha256 value
  | .node hash left right =>
    hash = Hash.hashNodes sha256 left.hash right.hash ∧ left.Hashed ∧ right.Hashed

variable {sha256}

theorem Tree.hashed_ofLeaves (leaves : List Bytes) :
    (Tree.ofLeaves sha256 leaves).Hashed sha256 := by
  induction hn : leaves.length using Nat.strong_induction_on generalizing leaves with
  | h n ih =>
    by_cases htwo : 2 ≤ leaves.length
    · obtain ⟨a, b, j, rfl, ha, hb, hle⟩ := BalancedMerge.exists_append_of_two_le htwo
      have hpos : 0 < 2 ^ j := Nat.two_pow_pos j
      rw [List.length_append] at hn
      rw [Tree.ofLeaves_append ha hb hle]
      exact ⟨rfl, ih a.length (by omega) a rfl, ih b.length (by omega) b rfl⟩
    · match leaves, htwo with
      | [], _ =>
        rw [Tree.ofLeaves_nil]
        rfl
      | [v], _ =>
        rw [Tree.ofLeaves_singleton]
        rfl
      | v :: w :: leaves, htwo => exact absurd (by simp) htwo

theorem Lemma.validate_new {t : Tree} (ht : t.Hashed sha256) {needle : Bytes} {l : Lemma}
    (h : Lemma.new t needle = some l) :
    l.nodeHash = t.hash ∧ Proof.validateLemma sha256 l = true := by
  induction t generalizing l with
  | empty hash => cases h
  | leaf hash value =>
    rw [Lemma.new, Lemma.newLeafProof] at h
    by_cases hneedle : hash = needle
    · rw [if_pos hneedle] at h
      cases h
      exact ⟨rfl, rfl⟩
    · rw [if_neg hneedle] at h
      cases h
  | node hash left right ihLeft ihRight =>
    obtain ⟨hhash, hleft, hright⟩ := ht
    rw [Lemma.new] at h
    cases hsub : Lemma.new left needle with
    | some sub =>
      obtain ⟨hnode, hvalid⟩ := ihLeft hleft hsub
      rw [hsub] at h
      cases h
      refine ⟨rfl, ?_⟩
      rw [Proof.validateLemma, hnode, hvalid, Bool.and_true, decide_eq_true_eq]
      exact hhash.symm
    | none =>
      rw [hsub] at h
      obtain ⟨sub, hsub', rfl⟩ := Option.map_eq_some_iff.mp h
      obtain ⟨hnode, hvalid⟩ := ihRight hright hsub'
      refine ⟨rfl, ?_⟩
      rw [Proof.validateLemma, hnode, hvalid, Bool.and_true, decide_eq_true_eq]
      exact hhash.symm

theorem Lemma.exists_new {t : Tree} (ht : t.Hashed sha256) {value : Bytes} {rest : List Bytes}
    (h : value ∈ t.iterFrom rest) :
    (∃ l, Lemma.new t (Hash.hashLeaf sha256 value) = some l) ∨ value ∈ rest := by
  induction t generalizing rest with
  | empty hash => cases h
  | leaf hash v =>
    rcases List.mem_cons.mp h with rfl | h
    · have hhash : hash = Hash.hashLeaf sha256 value := ht
      exact .inl ⟨_, by rw [Lemma.new, Lemma.newLeafProof, if_pos hhash]⟩
    · exact .inr h
  | node hash left right ihLeft ihRight =>
    obtain ⟨-, hleft, hright⟩ := ht
    rcases ihLeft hleft h with ⟨l, hl⟩ | h
    · exact .inl ⟨_, by rw [Lemma.new, hl]⟩
    · rcases ihRight hright h with ⟨l, hl⟩ | h
      · cases hsub : Lemma.new left (Hash.hashLeaf sha256 value) with
        | some sub => exact .inl ⟨_, by rw [Lemma.new, hsub]⟩
        | none => exact .inl ⟨_, by rw [Lemma.new, hsub, hl, Option.map_some]⟩
      · exact .inr h

namespace MerkleTree

theorem Holds.genProof_validates {t : MerkleTree} {leaves : List Bytes} (h : Holds sha256 t leaves)
    {value : Bytes} (hmem : value ∈ leaves) :
    ∃ proof, genProof sha256 t value = some proof ∧ proof.value = value ∧
      proof.validate sha256 t.rootHash = true := by
  have hhashed : t.root.Hashed sha256 := by
    rw [h.root]
    exact Tree.hashed_ofLeaves leaves
  have hiter : value ∈ t.root.iterFrom [] := by
    rw [← h.iter] at hmem
    exact hmem
  rcases Lemma.exists_new hhashed hiter with ⟨l, hl⟩ | hnil
  · obtain ⟨hnode, hvalid⟩ := Lemma.validate_new hhashed hl
    refine ⟨⟨t.rootHash, l, value⟩, by rw [genProof, hl, Option.map_some], rfl, ?_⟩
    have hroot : ¬ (t.rootHash ≠ t.rootHash ∨ l.nodeHash ≠ t.rootHash) := by
      rw [hnode]
      exact not_or_intro (not_not.mpr rfl) (not_not.mpr rfl)
    rw [Proof.validate, if_neg hroot, hvalid]
  · cases hnil

end MerkleTree

/-- For every tree the members are proved, and so is a value that is no member. -/
theorem inclusion_proved_unbound (sha256 : Sha256) (values : List Bytes) :
    ∃ t, MerkleTree.fromVec sha256 values = .ok t ∧
      (∀ value ∈ values, ∃ proof, t.genProof sha256 value = some proof ∧ proof.value = value ∧
        proof.validate sha256 t.rootHash = true) ∧
      ∃ proof : Proof, proof.validate sha256 t.rootHash = true ∧ proof.value ∉ values := by
  obtain ⟨t, ht, hholds⟩ := @MerkleTree.fromVec_holds sha256 values
  refine ⟨t, ht, fun value hmem => hholds.genProof_validates hmem, ?_⟩
  obtain ⟨foreign, hforeign⟩ := Infinite.exists_notMem_finset values.toFinset
  rw [List.mem_toFinset] at hforeign
  refine ⟨⟨t.rootHash, .last t.rootHash none, foreign⟩, ?_, hforeign⟩
  have hroot : ¬ (t.rootHash ≠ t.rootHash ∨ t.rootHash ≠ t.rootHash) :=
    not_or_intro (not_not.mpr rfl) (not_not.mpr rfl)
  exact if_neg hroot

/-- The proof for a member of a tree of two leaves, with another value in its place. -/
def forgedProof : Proof where
  rootHash := Hash.hashNodes toySha256 (Hash.hashLeaf toySha256 [1]) (Hash.hashLeaf toySha256 [2])
  firstLemma := .above
    (Hash.hashNodes toySha256 (Hash.hashLeaf toySha256 [1]) (Hash.hashLeaf toySha256 [2]))
    (some (.right (Hash.hashLeaf toySha256 [2]))) (.last (Hash.hashLeaf toySha256 [1]) none)
  value := [3]

theorem forgedProof_validates : ∃ t, MerkleTree.fromVec toySha256 [[1], [2]] = .ok t ∧
    forgedProof.validate toySha256 t.rootHash = true ∧ forgedProof.value ∉ [[1], [2]] :=
  ⟨_, rfl, by decide +kernel, by decide⟩

end IndySdk.Ledger
