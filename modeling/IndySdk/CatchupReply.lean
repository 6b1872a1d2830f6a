import IndySdk.Catchup
import Mathlib.Data.List.Sort

/-!
# What an accepted catch-up reply shows

The loop applies the transactions of a reply in the order of their sequence numbers, whichever
numbers these are. A reply is accepted exactly when its keys are plain numerals, its transactions
can be encoded and its proof holds for the tree that results.
-/

namespace IndySdk.Pool

open Outcome Numerals List
open Ledger (MerkleTree)
open Ledger.MerkleTree (Holds append append_holds)

variable {crates : Crates} {world : World} {txns : Txns} {m : ℕ}

theorem minTxStep_ok {min : Option ℕ} {k : String} {result : Option ℕ}
    (h : minTxStep min k = .ok result) :
    ∃ val best, parseUnsigned 64 k = some val ∧ result = some best ∧ best ≤ val ∧
      (∀ m, min = some m → best ≤ m) ∧ (best = val ∨ min = some best) := by
  obtain ⟨val, hval, h⟩ := bind_eq_ok_iff.mp h
  rw [ofOption_eq_ok] at hval
  cases min with
  | none =>
    cases h
    exact ⟨val, val, hval, rfl, le_rfl, (fun m hm => by cases hm), .inl rfl⟩
  | some m =>
    simp only at h
    split_ifs at h with hlt
    · cases h
      exact ⟨val, val, hval, rfl, le_rfl, (fun m' hm => by cases hm; omega), .inl rfl⟩
    · cases h
      exact ⟨val, m, hval, rfl, by omega, (fun m' hm => by cases hm; omega), .inr rfl⟩

theorem foldlM_minTxStep_ok {keys : List String} {min result : Option ℕ}
    (h : keys.foldlM minTxStep min = .ok result) :
    (∀ k ∈ keys, ∃ n best, parseUnsigned 64 k = some n ∧ result = some best ∧ best ≤ n) ∧
      (∀ m, min = some m → ∃ best, result = some best ∧ best ≤ m) ∧
      (∀ best, result = some best →
        min = some best ∨ ∃ k ∈ keys, parseUnsigned 64 k = some best) := by
  induction keys generalizing min with
  | nil =>
    cases h
    exact ⟨fun k hk => absurd hk not_mem_nil, fun m hm => ⟨m, hm, le_rfl⟩,
      fun best hb => .inl hb⟩
  | cons k keys ih =>
    rw [foldlM_cons] at h
    obtain ⟨next, hnext, h⟩ := bind_eq_ok_iff.mp h
    obtain ⟨val, best, hval, rfl, hle, hmin, hfrom⟩ := minTxStep_ok hnext
    obtain ⟨hkeys, hinit, hresult⟩ := ih h
    obtain ⟨last, hlast, hlastle⟩ := hinit best rfl
    refine ⟨?_, ?_, ?_⟩
    · intro k' hk'
      rcases mem_cons.mp hk' with rfl | hk'
      · exact ⟨val, last, hval, hlast, by omega⟩
      · exact hkeys k' hk'
    · intro m hm
      have hbest := hmin m hm
      exact ⟨last, hlast, by omega⟩
    · intro b hb
      rcases hresult b hb with hcase | ⟨k', hk', hparse⟩
      · cases hcase
        rcases hfrom with rfl | hfrom
        · exact .inr ⟨k, mem_cons_self, hval⟩
        · exact .inl hfrom
      · exact .inr ⟨k', mem_cons_of_mem _ hk', hparse⟩

theorem minTx_ok (h : minTx txns = .ok m) :
    (∃ k ∈ txns.keys, parseUnsigned 64 k = some m) ∧
      ∀ k ∈ txns.keys, ∃ n, parseUnsigned 64 k = some n ∧ m ≤ n := by
  obtain ⟨min, hfold, h⟩ := bind_eq_ok_iff.mp h
  rw [ofOption_eq_ok] at h
  obtain ⟨hkeys, -, hfrom⟩ := foldlM_minTxStep_ok hfold
  constructor
  · rcases hfrom m h with hnone | hsome
    · cases hnone
    · exact hsome
  · intro k hk
    obtain ⟨n, best, hn, hbest, hle⟩ := hkeys k hk
    rw [h] at hbest
    cases hbest
    exact ⟨n, hn, hle⟩

theorem exists_foldlM_minTxStep {keys : List String}
    (hkeys : ∀ k ∈ keys, ∃ n, parseUnsigned 64 k = some n) (min : Option ℕ) :
    ∃ result, keys.foldlM minTxStep min = .ok result := by
  induction keys generalizing min with
  | nil => exact ⟨min, rfl⟩
  | cons k keys ih =>
    obtain ⟨n, hn⟩ := hkeys k mem_cons_self
    have hstep : ∃ next, minTxStep min k = .ok next := by
      rw [minTxStep, hn]
      cases min with
      | none => exact ⟨some n, rfl⟩
      | some m =>
        by_cases hlt : n < m
        · exact ⟨some n, by simp [hlt]⟩
        · exact ⟨some m, by simp [hlt]⟩
    obtain ⟨next, hnext⟩ := hstep
    rw [foldlM_cons, hnext]
    exact ih (fun k' hk' => hkeys k' (mem_cons_of_mem _ hk')) next

theorem minTx_eq {k : String} (hk : k ∈ txns.keys) (hm : parseUnsigned 64 k = some m)
    (hle : ∀ k' ∈ txns.keys, ∃ n, parseUnsigned 64 k' = some n ∧ m ≤ n) :
    minTx txns = .ok m := by
  obtain ⟨result, hfold⟩ := exists_foldlM_minTxStep
    (fun k' hk' => (hle k' hk').imp (fun n hn => hn.1)) none
  obtain ⟨n, best, hn, rfl, hbest⟩ := (foldlM_minTxStep_ok hfold).1 k hk
  have hmin : minTx txns = .ok best := by
    rw [minTx, hfold]
    rfl
  obtain ⟨⟨k', hk', hparse⟩, -⟩ := minTx_ok hmin
  obtain ⟨n', hn', hmn⟩ := hle k' hk'
  rw [hparse] at hn'
  rw [hm] at hn
  cases hn
  cases hn'
  rw [hmin, le_antisymm hbest hmn]

/-- The transactions stand exactly under the plain numerals of the numbers. -/
structure Numbering (txns : Txns) (numbers : List ℕ) : Prop where
  sorted : numbers.Pairwise (· < ·)
  bounded : ∀ n ∈ numbers, n < 2 ^ 64
  mem_iff : ∀ k, k ∈ txns ↔ ∃ n ∈ numbers, n.repr = k

/-- The bytes of the transaction under a sequence number. -/
def encodedAt (crates : Crates) (txns : Txns) (n : ℕ) : Option Bytes :=
  (txns.lookup n.repr).bind crates.toVecNamed

variable {numbers : List ℕ}

theorem Numbering.unique {numbers' : List ℕ} (h : Numbering txns numbers)
    (h' : Numbering txns numbers') : numbers = numbers' := by
  apply h.sorted.eq_of_mem_iff h'.sorted
  have hsub : ∀ {l l' : List ℕ}, Numbering txns l → Numbering txns l' → ∀ n ∈ l, n ∈ l' := by
    intro l l' hl hl' n hn
    have hkey := (hl.mem_iff n.repr).mpr ⟨n, hn, rfl⟩
    obtain ⟨n', hn', hrepr⟩ := (hl'.mem_iff n.repr).mp hkey
    rw [← repr_injective hrepr]
    exact hn'
  exact fun n => ⟨hsub h h' n, hsub h' h n⟩

theorem Numbering.tail (h : Numbering txns (m :: numbers)) :
    Numbering (txns.erase m.repr) numbers := by
  have hsorted := pairwise_cons.mp h.sorted
  refine ⟨hsorted.2, fun n hn => h.bounded n (mem_cons_of_mem _ hn), ?_⟩
  intro k
  rw [AList.mem_erase, h.mem_iff]
  constructor
  · rintro ⟨hne, n, hn, rfl⟩
    rcases mem_cons.mp hn with rfl | hn
    · exact absurd rfl hne
    · exact ⟨n, hn, rfl⟩
  · rintro ⟨n, hn, rfl⟩
    have hlt := hsorted.1 n hn
    refine ⟨fun he => ?_, n, mem_cons_of_mem _ hn, rfl⟩
    have hnm := repr_injective he
    omega

theorem encodedAt_erase {n : ℕ} (h : n ≠ m) :
    encodedAt crates (txns.erase m.repr) n = encodedAt crates txns n := by
  rw [encodedAt, AList.lookup_erase_ne (fun he => h (repr_injective he)), encodedAt]

theorem map_encodedAt_erase (h : ∀ n ∈ numbers, m < n) :
    numbers.map (encodedAt crates (txns.erase m.repr)) = numbers.map (encodedAt crates txns) := by
  apply map_congr_left
  intro n hn
  have hlt := h n hn
  exact encodedAt_erase (by omega)

theorem Numbering.minTx_eq (h : Numbering txns (m :: numbers)) : minTx txns = .ok m := by
  have hm : m.repr ∈ txns.keys :=
    AList.mem_keys.mp ((h.mem_iff _).mpr ⟨m, mem_cons_self, rfl⟩)
  refine Pool.minTx_eq hm (parseUnsigned_repr (h.bounded m mem_cons_self)) ?_
  intro k hk
  obtain ⟨n, hn, rfl⟩ := (h.mem_iff k).mp (AList.mem_keys.mpr hk)
  refine ⟨n, parseUnsigned_repr (h.bounded n hn), ?_⟩
  rcases mem_cons.mp hn with rfl | hn
  · exact le_rfl
  · exact ((pairwise_cons.mp h.sorted).1 n hn).le

/-- The loop numbers the transactions and appends them in the order of their numbers. -/
theorem appendTxns_ok {rounds : ℕ} {merkle merkle' : MerkleTree} {leaves encoded : List Bytes}
    (hrounds : txns.keys.length = rounds) (hmerkle : Holds crates.sha256 merkle leaves)
    (h : appendTxns crates rounds txns merkle = .ok (merkle', encoded)) :
    ∃ numbers, Numbering txns numbers ∧
      numbers.map (encodedAt crates txns) = encoded.map some ∧
      Holds crates.sha256 merkle' (leaves ++ encoded) := by
  induction rounds generalizing txns merkle leaves encoded with
  | zero =>
    cases h
    have hnil := length_eq_zero_iff.mp hrounds
    refine ⟨[], ⟨List.Pairwise.nil, fun n hn => absurd hn not_mem_nil, ?_⟩, rfl, ?_⟩
    · intro k
      rw [AList.mem_keys, hnil]
      simp
    · rwa [append_nil]
  | succ rounds ih =>
    obtain ⟨m, hm, h⟩ := bind_eq_ok_iff.mp h
    obtain ⟨txn, htxn, h⟩ := bind_eq_ok_iff.mp h
    obtain ⟨bytes, hbytes, h⟩ := bind_eq_ok_iff.mp h
    obtain ⟨merkle₁, hmerkle₁, h⟩ := bind_eq_ok_iff.mp h
    obtain ⟨⟨last, rest⟩, hrest, h⟩ := bind_eq_ok_iff.mp h
    cases h
    rw [unwrap_eq_ok] at htxn
    rw [ofOption_eq_ok] at hbytes
    obtain ⟨t, ht, hholds⟩ := append_holds hmerkle bytes
    rw [hmerkle₁] at ht
    cases ht
    have hmem : m.repr ∈ txns := by
      rw [← AList.lookup_isSome, htxn]
      rfl
    have hlen : (txns.erase m.repr).keys.length = rounds := by
      rw [AList.keys_erase, length_erase_of_mem (AList.mem_keys.mp hmem), hrounds]
      rfl
    obtain ⟨numbers, hnumbers, hencoded, hlast⟩ := ih hlen hholds hrest
    obtain ⟨⟨k, -, hparse⟩, hleast⟩ := minTx_ok hm
    have hlt : ∀ n ∈ numbers, m < n := by
      intro n hn
      have hkey := (hnumbers.mem_iff n.repr).mpr ⟨n, hn, rfl⟩
      obtain ⟨hne, hmem'⟩ := AList.mem_erase.mp hkey
      obtain ⟨n', hn', hle⟩ := hleast n.repr (AList.mem_keys.mp hmem')
      rw [parseUnsigned_repr (hnumbers.bounded n hn)] at hn'
      cases hn'
      refine lt_of_le_of_ne hle ?_
      rintro rfl
      exact hne rfl
    refine ⟨m :: numbers, ⟨pairwise_cons.mpr ⟨hlt, hnumbers.sorted⟩, ?_, ?_⟩, ?_, ?_⟩
    · intro n hn
      rcases mem_cons.mp hn with rfl | hn
      · exact lt_of_parseUnsigned hparse
      · exact hnumbers.bounded n hn
    · intro k'
      by_cases hk' : k' = m.repr
      · exact iff_of_true (hk' ▸ hmem) ⟨m, mem_cons_self, hk'.symm⟩
      · have hsame : k' ∈ txns ↔ k' ∈ txns.erase m.repr := by
          rw [AList.mem_erase]
          exact ⟨fun hk => ⟨hk', hk⟩, fun hk => hk.2⟩
        rw [hsame, hnumbers.mem_iff]
        constructor
        · rintro ⟨n, hn, he⟩
          exact ⟨n, mem_cons_of_mem _ hn, he⟩
        · rintro ⟨n, hn, he⟩
          rcases mem_cons.mp hn with rfl | hn
          · exact absurd he.symm hk'
          · exact ⟨n, hn, he⟩
    · rw [map_encodedAt_erase hlt] at hencoded
      rw [map_cons, map_cons, hencoded, encodedAt, htxn, Option.bind_some, hbytes]
    · rwa [append_assoc, singleton_append] at hlast

theorem exists_appendTxns {merkle : MerkleTree} {leaves encoded : List Bytes}
    (hnumbers : Numbering txns numbers)
    (hencoded : numbers.map (encodedAt crates txns) = encoded.map some)
    (hmerkle : Holds crates.sha256 merkle leaves) :
    ∃ merkle', appendTxns crates txns.keys.length txns merkle = .ok (merkle', encoded) ∧
      Holds crates.sha256 merkle' (leaves ++ encoded) := by
  induction numbers generalizing txns merkle leaves encoded with
  | nil =>
    have hkeys : txns.keys = [] := by
      rw [eq_nil_iff_forall_not_mem]
      intro k hk
      obtain ⟨n, hn, -⟩ := (hnumbers.mem_iff k).mp (AList.mem_keys.mpr hk)
      exact absurd hn not_mem_nil
    rw [hkeys]
    cases encoded with
    | nil => exact ⟨merkle, rfl, by rwa [append_nil]⟩
    | cons e encoded => cases hencoded
  | cons m numbers ih =>
    cases encoded with
    | nil => cases hencoded
    | cons e encoded =>
      rw [map_cons, map_cons, List.cons.injEq] at hencoded
      obtain ⟨txn, htxn, hbytes⟩ := Option.bind_eq_some_iff.mp hencoded.1
      have hmem : m.repr ∈ txns.keys := by
        rw [← AList.mem_keys, ← AList.lookup_isSome, htxn]
        rfl
      have hlen : txns.keys.length = (txns.erase m.repr).keys.length + 1 := by
        have hpos := length_pos_of_mem hmem
        rw [AList.keys_erase, length_erase_of_mem hmem]
        omega
      have hrest := hencoded.2
      rw [← map_encodedAt_erase (pairwise_cons.mp hnumbers.sorted).1] at hrest
      obtain ⟨merkle₁, hmerkle₁, hholds⟩ := append_holds hmerkle e
      obtain ⟨last, hlast, hholds'⟩ := ih hnumbers.tail hrest hholds
      refine ⟨last, ?_, ?_⟩
      · rw [hlen, appendTxns, hnumbers.minTx_eq, ok_bind, htxn, unwrap_some,
          ok_bind, hbytes, ofOption_some, ok_bind, hmerkle₁,
          ok_bind, hlast]
        rfl
      · rwa [append_assoc, singleton_append] at hholds'

/-- What the code asks of a reply: plain numerals, transactions that can be encoded, a proof that
holds for the tree of the old leaves and these transactions, and a cache that can be written. -/
def Acceptable (crates : Crates) (world : World) (rep : CatchupRep) (leaves : List Bytes)
    (targetMtRoot : Bytes) (targetMtSize : ℕ) (poolName : String) : Prop :=
  ∃ numbers encoded tree, Numbering rep.txns numbers ∧
    numbers.map (encodedAt crates rep.txns) = encoded.map some ∧
    Holds crates.sha256 tree (leaves ++ encoded) ∧
    checkConsProofs crates tree rep.consProof targetMtRoot targetMtSize = .ok () ∧
    world.dumpNewTxns poolName encoded = .ok ()

variable {rep : CatchupRep} {merkle : MerkleTree} {leaves : List Bytes} {targetMtRoot : Bytes}
  {targetMtSize : ℕ} {poolName : String} {tree : MerkleTree}

theorem processCatchupReply_ok (hmerkle : Holds crates.sha256 merkle leaves)
    (h : processCatchupReply crates world rep merkle targetMtRoot targetMtSize poolName =
      .ok tree) :
    ∃ numbers encoded, Numbering rep.txns numbers ∧
      numbers.map (encodedAt crates rep.txns) = encoded.map some ∧
      Holds crates.sha256 tree (leaves ++ encoded) ∧
      checkConsProofs crates tree rep.consProof targetMtRoot targetMtSize = .ok () ∧
      world.dumpNewTxns poolName encoded = .ok () := by
  obtain ⟨⟨last, encoded⟩, happend, h⟩ := bind_eq_ok_iff.mp h
  obtain ⟨⟨⟩, hcheck, h⟩ := bind_eq_ok_iff.mp h
  obtain ⟨⟨⟩, hdump, h⟩ := bind_eq_ok_iff.mp h
  cases h
  obtain ⟨numbers, hnumbers, hencoded, hholds⟩ := appendTxns_ok rfl hmerkle happend
  exact ⟨numbers, encoded, hnumbers, hencoded, hholds, hcheck, hdump⟩

theorem checkConsProofs_congr {tree' : MerkleTree} (h : Holds crates.sha256 tree leaves)
    (h' : Holds crates.sha256 tree' leaves) (consProofs : List String) :
    checkConsProofs crates tree consProofs targetMtRoot targetMtSize =
      checkConsProofs crates tree' consProofs targetMtRoot targetMtSize := by
  have hroot : tree.root = tree'.root := h.root.trans h'.root.symm
  have hcount : tree.count = tree'.count := h.count.trans h'.count.symm
  obtain ⟨root, height, count, nodesCount⟩ := tree
  obtain ⟨root', height', count', nodesCount'⟩ := tree'
  cases hroot
  cases hcount
  rfl

theorem exists_processCatchupReply_iff (hmerkle : Holds crates.sha256 merkle leaves) :
    (∃ tree, processCatchupReply crates world rep merkle targetMtRoot targetMtSize poolName =
      .ok tree) ↔ Acceptable crates world rep leaves targetMtRoot targetMtSize poolName := by
  constructor
  · rintro ⟨tree, h⟩
    obtain ⟨numbers, encoded, h⟩ := processCatchupReply_ok hmerkle h
    exact ⟨numbers, encoded, tree, h⟩
  · rintro ⟨numbers, encoded, tree, hnumbers, hencoded, hholds, hcheck, hdump⟩
    obtain ⟨last, happend, hlast⟩ := exists_appendTxns hnumbers hencoded hmerkle
    refine ⟨last, ?_⟩
    rw [processCatchupReply, happend, ok_bind]
    simp only
    rw [checkConsProofs_congr hlast hholds, hcheck, ok_bind, hdump, ok_bind]
    rfl

/-- The reply carries exactly the transactions that the old leaves lack. -/
def ExactNumbers (txns : Txns) (size targetMtSize : ℕ) : Prop :=
  ∀ k, k ∈ txns ↔ ∃ n, size < n ∧ n ≤ targetMtSize ∧ n.repr = k

/-- The tree is the target: its size, its root hash, and its leaves, which are the old ones and
then the transactions of the reply under the missing numbers, each once and in order. -/
structure Complete (crates : Crates) (rep : CatchupRep) (leaves : List Bytes)
    (targetMtRoot : Bytes) (targetMtSize : ℕ) (tree : MerkleTree) : Prop where
  count : tree.count = targetMtSize
  rootHash : tree.rootHash = targetMtRoot
  leafSequence : ∃ encoded, tree.root.iter = leaves ++ encoded ∧
    (List.range' (leaves.length + 1) (targetMtSize - leaves.length)).map
      (encodedAt crates rep.txns) = encoded.map some
  exactNumbers : ExactNumbers rep.txns leaves.length targetMtSize

theorem numbering_range' {size : ℕ} (hsize : targetMtSize < 2 ^ 64)
    (h : ExactNumbers txns size targetMtSize) :
    Numbering txns (List.range' (size + 1) (targetMtSize - size)) := by
  refine ⟨pairwise_lt_range', ?_, ?_⟩
  · intro n hn
    have hrange := mem_range'_1.mp hn
    omega
  · intro k
    rw [h k]
    constructor
    · rintro ⟨n, hlt, hle, he⟩
      exact ⟨n, mem_range'_1.mpr (by omega), he⟩
    · rintro ⟨n, hn, he⟩
      have hrange := mem_range'_1.mp hn
      exact ⟨n, by omega, by omega, he⟩

theorem rootHash_of_checkConsProofs {consProofs : List String} (hcount : tree.count = targetMtSize)
    (hpos : 0 < targetMtSize)
    (h : checkConsProofs crates tree consProofs targetMtRoot targetMtSize = .ok ()) :
    tree.rootHash = targetMtRoot := by
  obtain ⟨proofs, -, h⟩ := bind_eq_ok_iff.mp h
  obtain ⟨accepted, haccepted, h⟩ := bind_eq_ok_iff.mp h
  cases accepted with
  | false => cases h
  | true =>
    rw [← hcount] at haccepted
    exact MerkleTree.rootHash_of_consistencyProof (by omega) haccepted

theorem complete_iff_exactNumbers (hmerkle : Holds crates.sha256 merkle leaves)
    (hlt : leaves.length < targetMtSize) (hsize : targetMtSize < 2 ^ 64)
    (h : processCatchupReply crates world rep merkle targetMtRoot targetMtSize poolName =
      .ok tree) :
    Complete crates rep leaves targetMtRoot targetMtSize tree ↔
      ExactNumbers rep.txns leaves.length targetMtSize := by
  refine ⟨Complete.exactNumbers, fun hexact => ?_⟩
  obtain ⟨numbers, encoded, hnumbers, hencoded, hholds, hcheck, -⟩ :=
    processCatchupReply_ok hmerkle h
  have hrange := hnumbers.unique (numbering_range' hsize hexact)
  rw [hrange] at hencoded
  have hlen : encoded.length = targetMtSize - leaves.length := by
    have hlength := congrArg List.length hencoded
    rwa [length_map, length_map, length_range', eq_comm] at hlength
  have hcount : tree.count = targetMtSize := by
    rw [hholds.count, length_append, hlen]
    omega
  exact ⟨hcount, rootHash_of_checkConsProofs hcount (by omega) hcheck,
    ⟨encoded, hholds.iter, hencoded⟩, hexact⟩

end IndySdk.Pool
