import IndySdk.MerkleTree

/-!
# Ledger trees grown leaf by leaf

A tree grown by appending is the very tree that is built from all leaves at once: not only its root
and its number of leaves agree, but also its height and its number of inner nodes. The iterator over
the leaves keeps the right subtrees that it has passed on a stack.
-/

namespace IndySdk.Ledger

open Outcome
open BalancedMerge (merge pairUp)

/-- The iterator over the leaves, with the last right subtree on top of its stack. -/
structure LeavesIterator where
  currentValue : Option Bytes
  rightNodes : List Tree

namespace LeavesIterator

def addLeft (iter : LeavesIterator) : Tree → LeavesIterator
  | .empty _ => { iter with currentValue := none }
  | .node _ left right => addLeft { iter with rightNodes := right :: iter.rightNodes } left
  | .leaf _ value => { iter with currentValue := some value }

def new (root : Tree) : LeavesIterator := addLeft ⟨none, []⟩ root

def next (iter : LeavesIterator) : Option Bytes × LeavesIterator :=
  match iter.rightNodes with
  | [] => (iter.currentValue, { iter with currentValue := none })
  | rest :: rightNodes => (iter.currentValue, addLeft ⟨none, rightNodes⟩ rest)

/-- The values of all calls up to the first that gives none. -/
def Yields : LeavesIterator → List Bytes → Prop
  | iter, [] => iter.next.1 = none
  | iter, value :: values => iter.next.1 = some value ∧ iter.next.2.Yields values

/-- The iterator after a value, when these right subtrees are left. -/
def resume (rightNodes : List Tree) : LeavesIterator := (next ⟨none, rightNodes⟩).2

def rest (rightNodes : List Tree) : List Bytes :=
  rightNodes.foldr Tree.iterFrom []

theorem addLeft_yields (t : Tree) (value : Option Bytes) {rightNodes : List Tree}
    (h : (resume rightNodes).Yields (rest rightNodes)) :
    (addLeft ⟨value, rightNodes⟩ t).Yields (t.iterFrom (rest rightNodes)) := by
  induction t generalizing value rightNodes with
  | empty hash =>
    rw [addLeft, Tree.iterFrom, Yields, next]
    cases rightNodes with
    | nil => rfl
    | cons right rightNodes => rfl
  | leaf hash v =>
    rw [addLeft, Tree.iterFrom, Yields, next]
    cases rightNodes with
    | nil => exact ⟨rfl, h⟩
    | cons right rightNodes => exact ⟨rfl, h⟩
  | node hash left right ihLeft ihRight =>
    rw [addLeft, Tree.iterFrom]
    exact ihLeft value (ihRight none h)

theorem new_yields (t : Tree) : (new t).Yields t.iter := by
  have hend : (resume []).Yields (rest []) := rfl
  exact addLeft_yields t none hend

end LeavesIterator

namespace MerkleTree

variable {sha256 : Sha256}

/-- Besides its leaves, the sizes of the tree are those of the merge of its leaves. -/
structure Sized (sha256 : Sha256) (t : MerkleTree) (leaves : List Bytes) : Prop
    extends Holds sha256 t leaves where
  height : t.height = Nat.clog 2 leaves.length
  nodesCount : t.nodesCount = leaves.length - 1

variable {t : MerkleTree} {leaves : List Bytes}

theorem Sized.unique {t' : MerkleTree} (h : Sized sha256 t leaves) (h' : Sized sha256 t' leaves) :
    t = t' := by
  obtain ⟨root, height, count, nodesCount⟩ := t
  obtain ⟨root', height', count', nodesCount'⟩ := t'
  rw [MerkleTree.mk.injEq]
  exact ⟨h.root.trans h'.root.symm, h.height.trans h'.height.symm, h.count.trans h'.count.symm,
    h.nodesCount.trans h'.nodesCount.symm⟩

theorem fromLevels_sizes {fuel : ℕ} {cur : List Tree} (hf : cur.length ≤ fuel)
    (height nodesCount : ℕ) :
    (fromLevels sha256 fuel cur height nodesCount).2 =
      (height + Nat.clog 2 cur.length, nodesCount + (cur.length - 1)) := by
  induction fuel generalizing cur height nodesCount with
  | zero =>
    rw [Nat.le_zero.mp hf]
    rfl
  | succ fuel ih =>
    rw [fromLevels]
    by_cases h : 1 < cur.length
    · have hlen := @BalancedMerge.pairUp_length _ (Tree.combine sha256) cur
      have hclog : Nat.clog 2 cur.length = Nat.clog 2 ((cur.length + 1) / 2) + 1 :=
        Nat.clog_of_two_le Nat.one_lt_two h
      rw [if_pos h, ih (by omega), hlen, hclog, Prod.mk.injEq]
      constructor
      · omega
      · omega
    · rw [if_neg h, Nat.clog_of_right_le_one (by omega), Prod.mk.injEq]
      constructor
      · omega
      · omega

theorem fromVec_sized (values : List Bytes) :
    ∃ t, fromVec sha256 values = .ok t ∧ Sized sha256 t values := by
  obtain ⟨t, ht, hholds⟩ := @fromVec_holds sha256 values
  suffices hsizes : t.height = Nat.clog 2 values.length ∧ t.nodesCount = values.length - 1 from
    ⟨t, ht, hholds, hsizes.1, hsizes.2⟩
  rw [fromVec] at ht
  by_cases h : values.isEmpty
  · rw [if_pos h] at ht
    cases ht
    rw [List.isEmpty_iff.mp h]
    exact ⟨rfl, rfl⟩
  · have hlen : (values.map (Tree.newLeaf sha256)).length ≤ values.length :=
      (List.length_map _).le
    have hsizes := @fromLevels_sizes sha256 _ _ hlen 0 0
    rw [if_neg h] at ht
    obtain ⟨root, -, ht⟩ := bind_eq_ok_iff.mp ht
    cases ht
    rw [List.length_map, Nat.zero_add, Nat.zero_add] at hsizes
    exact ⟨congrArg Prod.fst hsizes, congrArg Prod.snd hsizes⟩

theorem clog_succ_of_pow (j : ℕ) : Nat.clog 2 (2 ^ j + 1) = j + 1 := by
  have hpos : 1 ≤ 2 ^ j := Nat.one_le_two_pow
  apply le_antisymm
  · apply Nat.clog_le_of_le_pow
    rw [Nat.pow_succ]
    omega
  · apply (Nat.lt_clog_iff_pow_lt Nat.one_lt_two).mpr
    omega

theorem clog_succ_of_not_pow {n : ℕ} (h : ¬ ∃ j, n = 2 ^ j) :
    Nat.clog 2 (n + 1) = Nat.clog 2 n := by
  apply le_antisymm
  · apply Nat.clog_le_of_le_pow
    have hle : n ≤ 2 ^ Nat.clog 2 n := Nat.le_pow_clog Nat.one_lt_two n
    have hne : n ≠ 2 ^ Nat.clog 2 n := fun he => h ⟨_, he⟩
    omega
  · exact Nat.clog_mono_right 2 (Nat.le_succ n)

theorem append_sizes {t' : MerkleTree} {v : Bytes} (hcount : t.count ≠ 0)
    (h : append sha256 t v = .ok t') : t'.nodesCount = t.nodesCount + 1 ∧
      t'.height = if countBits t.count = 1 then t.height + 1 else t.height := by
  rw [append, if_neg hcount] at h
  by_cases hbits : countBits t.count = 1
  · rw [if_neg (not_not.mpr hbits)] at h
    rw [if_pos hbits]
    obtain ⟨newRight, -, h⟩ := bind_eq_ok_iff.mp h
    cases hroot : t.root with
    | empty hash =>
      rw [hroot] at h
      cases h
    | leaf hash value =>
      rw [hroot] at h
      cases h
      exact ⟨rfl, rfl⟩
    | node hash left right =>
      rw [hroot] at h
      cases h
      exact ⟨rfl, rfl⟩
  · rw [if_pos hbits] at h
    rw [if_neg hbits]
    cases hroot : t.root with
    | node hash left right =>
      rw [hroot] at h
      obtain ⟨newRight, -, h⟩ := bind_eq_ok_iff.mp h
      cases h
      exact ⟨rfl, rfl⟩
    | _ =>
      rw [hroot] at h
      cases h

theorem append_sized (h : Sized sha256 t leaves) (v : Bytes) :
    ∃ t', append sha256 t v = .ok t' ∧ Sized sha256 t' (leaves ++ [v]) := by
  obtain ⟨t', ht', hholds⟩ := append_holds h.toHolds v
  have hlen : (leaves ++ [v]).length = leaves.length + 1 := List.length_append
  refine ⟨t', ht', hholds, ?_, ?_⟩
  · by_cases hzero : t.count = 0
    · have hempty : leaves.length = 0 := h.count.symm.trans hzero
      rw [append, if_pos hzero] at ht'
      cases ht'
      rw [hlen, hempty]
      exact h.height.trans (by rw [hempty]; rfl)
    · rw [(append_sizes hzero ht').2, h.height, hlen, h.count]
      by_cases hbits : countBits leaves.length = 1
      · obtain ⟨j, hj⟩ := countBits_eq_one_iff.mp hbits
        rw [if_pos hbits, hj, Nat.clog_pow 2 j Nat.one_lt_two, clog_succ_of_pow]
      · have hpow := mt countBits_eq_one_iff.mpr hbits
        rw [if_neg hbits, clog_succ_of_not_pow hpow]
  · by_cases hzero : t.count = 0
    · have hempty : leaves.length = 0 := h.count.symm.trans hzero
      rw [append, if_pos hzero] at ht'
      cases ht'
      rw [hlen, hempty]
      exact h.nodesCount.trans (by rw [hempty])
    · have hcount := h.count
      rw [(append_sizes hzero ht').1, h.nodesCount, hlen]
      omega

theorem appends_sized (h : Sized sha256 t leaves) (values : List Bytes) :
    ∃ t', values.foldlM (append sha256) t = .ok t' ∧ Sized sha256 t' (leaves ++ values) := by
  induction values generalizing t leaves with
  | nil => exact ⟨t, rfl, by rwa [List.append_nil]⟩
  | cons v values ih =>
    obtain ⟨t₁, h₁, hsized₁⟩ := append_sized h v
    obtain ⟨t', h', hsized'⟩ := ih hsized₁
    refine ⟨t', ?_, ?_⟩
    · rw [List.foldlM_cons, h₁, ok_bind, h']
    · rwa [List.append_assoc] at hsized'

/-- Appending the values one by one to the empty tree gives the tree that is built from all of
them. -/
theorem appends_eq_fromVec (sha256 : Sha256) (values : List Bytes) :
    ∃ t, (fromVec sha256 [] >>= values.foldlM (append sha256)) = .ok t ∧
      fromVec sha256 values = .ok t ∧ t.count = values.length ∧
      t.nodesCount = values.length - 1 ∧ (LeavesIterator.new t.root).Yields values := by
  obtain ⟨empty, hempty, hsizedEmpty⟩ := @fromVec_sized sha256 []
  obtain ⟨t, ht, hsized⟩ := appends_sized hsizedEmpty values
  obtain ⟨t', ht', hsized'⟩ := @fromVec_sized sha256 values
  rw [List.nil_append] at hsized
  have hsame : t' = t := hsized'.unique hsized
  refine ⟨t, ?_, ?_, hsized.count, hsized.nodesCount, ?_⟩
  · rw [hempty, ok_bind, ht]
  · rw [ht', hsame]
  · have hyields := LeavesIterator.new_yields t.root
    rwa [hsized.toHolds.iter] at hyields

end MerkleTree

/-- A digest of fixed length that keeps short inputs apart. -/
def toySha256 (b : Bytes) : Bytes :=
  Bytes.ofNat 32 (b.foldl (fun acc byte => (acc * 257 + byte.toNat + 1) % 2 ^ 256) 0)

end IndySdk.Ledger
