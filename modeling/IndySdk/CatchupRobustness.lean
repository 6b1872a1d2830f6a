import IndySdk.CatchupReply
import IndySdk.RequestMachine

/-!
# Catch-up replies of an arbitrary node

A reply aborts the thread in two ways. The loop looks transactions up under the plain numeral of the
smallest key, which is missing when the key was spelt otherwise; and the consistency check asserts
that the tree with the transactions is not larger than the target.
-/

namespace IndySdk.Pool

open Outcome Numerals Option AList
open Ledger (MerkleTree)
open Ledger.MerkleTree (Holds append append_holds consistencyProof)

variable {crates : Crates} {world : World} {txns : Txns}

theorem minTxStep_cases (min : Option ℕ) (k : String) :
    (∃ best, minTxStep min k = .ok (some best)) ∨
      (parseUnsigned 64 k = none ∧ ∃ e, minTxStep min k = .err e) := by
  rw [minTxStep]
  cases hval : parseUnsigned 64 k with
  | none => exact .inr ⟨rfl, _, rfl⟩
  | some val =>
    left
    cases min with
    | none => exact ⟨val, rfl⟩
    | some m =>
      by_cases hlt : val < m
      · exact ⟨val, by simp [hlt]⟩
      · exact ⟨m, by simp [hlt]⟩

theorem foldlM_minTxStep_cases (keys : List String) (min : Option ℕ) :
    (∃ result, keys.foldlM minTxStep min = .ok result ∧ (min ≠ none ∨ keys ≠ [] → result ≠ none)) ∨
      ((∃ k ∈ keys, parseUnsigned 64 k = none) ∧
        ∃ e, keys.foldlM minTxStep min = .err e) := by
  induction keys generalizing min with
  | nil => exact .inl ⟨min, rfl, fun h => h.resolve_right (fun hne => hne rfl)⟩
  | cons k keys ih =>
    rw [List.foldlM_cons]
    rcases minTxStep_cases min k with ⟨best, hstep⟩ | ⟨hnone, e, hstep⟩
    · rw [hstep, ok_bind]
      rcases ih (some best) with ⟨result, hfold, hsome⟩ | ⟨⟨k', hk', hnone⟩, e, hfold⟩
      · exact .inl ⟨result, hfold, fun _ => hsome (.inl (some_ne_none _))⟩
      · exact .inr ⟨⟨k', List.mem_cons_of_mem _ hk', hnone⟩, e, hfold⟩
    · rw [hstep]
      exact .inr ⟨⟨k, List.mem_cons_self, hnone⟩, e, rfl⟩

theorem minTx_cases (hne : txns.keys ≠ []) :
    (∃ m, minTx txns = .ok m) ∨
      ((∃ k ∈ txns.keys, parseUnsigned 64 k = none) ∧ ∃ e, minTx txns = .err e) := by
  rw [minTx]
  rcases foldlM_minTxStep_cases txns.keys none with ⟨result, hfold, hsome⟩ | ⟨hnone, e, hfold⟩
  · left
    rw [hfold, ok_bind]
    obtain ⟨m, hm⟩ := ne_none_iff_exists'.mp (hsome (.inr hne))
    exact ⟨m, by rw [hm, ofOption_some]⟩
  · rw [hfold]
    exact .inr ⟨hnone, e, rfl⟩

/-- All keys are numbers, and one of them is not spelt as the code prints it, while the transactions
under the plain numerals up to it can be encoded. -/
structure Jams (crates : Crates) (txns : Txns) : Prop where
  numerals : ∀ k ∈ txns.keys, ∃ n, parseUnsigned 64 k = some n
  misspelt : ∃ k ∈ txns.keys, ∃ n, parseUnsigned 64 k = some n ∧ n.repr ≠ k ∧
    ∀ m ≤ n, m.repr ∈ txns.keys → (encodedAt crates txns m).isSome

/-- Every key is a plain numeral, and every transaction can be encoded. -/
def PlainTxns (crates : Crates) (txns : Txns) : Prop :=
  ∀ k ∈ txns.keys, (∃ n, n < 2 ^ 64 ∧ n.repr = k) ∧ ((txns.lookup k).bind crates.toVecNamed).isSome

theorem PlainTxns.not_jams (h : PlainTxns crates txns) : ¬ Jams crates txns := by
  intro hjams
  obtain ⟨k, hk, n, hparse, hne, -⟩ := hjams.misspelt
  obtain ⟨⟨m, hm, rfl⟩, -⟩ := h k hk
  rw [parseUnsigned_repr hm] at hparse
  cases hparse
  exact hne rfl

theorem mem_keys_erase {a k : String} :
    k ∈ (txns.erase a).keys ↔ k ≠ a ∧ k ∈ txns.keys := by
  rw [← mem_keys, mem_erase, mem_keys]

theorem jams_erase_iff {m : ℕ} (hm : m < 2 ^ 64) (hencoded : (encodedAt crates txns m).isSome) :
    Jams crates (txns.erase m.repr) ↔ Jams crates txns := by
  have hother : ∀ {m' : ℕ}, m'.repr ∈ (txns.erase m.repr).keys ↔ m' ≠ m ∧ m'.repr ∈ txns.keys := by
    intro m'
    rw [mem_keys_erase, repr_injective.ne_iff]
  constructor
  · rintro ⟨hnumerals, k, hk, n, hparse, hne, hall⟩
    refine ⟨?_, k, (mem_keys_erase.mp hk).2, n, hparse, hne, ?_⟩
    · intro k' hk'
      by_cases he : k' = m.repr
      · exact ⟨m, by rw [he, parseUnsigned_repr hm]⟩
      · exact hnumerals k' (mem_keys_erase.mpr ⟨he, hk'⟩)
    · intro m' hm' hmem
      by_cases he : m' = m
      · rwa [he]
      · have hrest := hall m' hm' (hother.mpr ⟨he, hmem⟩)
        rwa [encodedAt_erase he] at hrest
  · rintro ⟨hnumerals, k, hk, n, hparse, hne, hall⟩
    have hkm : k ≠ m.repr := by
      rintro rfl
      rw [parseUnsigned_repr hm] at hparse
      cases hparse
      exact hne rfl
    refine ⟨fun k' hk' => hnumerals k' (mem_keys_erase.mp hk').2, k,
      mem_keys_erase.mpr ⟨hkm, hk⟩, n, hparse, hne, ?_⟩
    intro m' hm' hmem
    obtain ⟨he, hmem⟩ := hother.mp hmem
    rw [encodedAt_erase he]
    exact hall m' hm' hmem

theorem plain_erase_iff {m : ℕ} (hm : m < 2 ^ 64) (hencoded : (encodedAt crates txns m).isSome) :
    PlainTxns crates (txns.erase m.repr) ↔ PlainTxns crates txns := by
  constructor
  · intro h k hk
    by_cases he : k = m.repr
    · rw [he]
      exact ⟨⟨m, hm, rfl⟩, hencoded⟩
    · have hrest := h k (mem_keys_erase.mpr ⟨he, hk⟩)
      rwa [lookup_erase_ne he] at hrest
  · intro h k hk
    obtain ⟨he, hk⟩ := mem_keys_erase.mp hk
    rw [lookup_erase_ne he]
    exact h k hk

/-- The loop ends in one of three ways, and the reply says which. -/
theorem appendTxns_cases {rounds : ℕ} {txns : Txns} {merkle : MerkleTree} {leaves : List Bytes}
    (hrounds : txns.keys.length = rounds) (hmerkle : Holds crates.sha256 merkle leaves) :
    (Jams crates txns ∧ appendTxns crates rounds txns merkle = .panic) ∨
      (¬ Jams crates txns ∧ ¬ PlainTxns crates txns ∧
        ∃ e, appendTxns crates rounds txns merkle = .err e) ∨
      (PlainTxns crates txns ∧ ∃ tree encoded,
        appendTxns crates rounds txns merkle = .ok (tree, encoded) ∧
          tree.count = leaves.length + rounds) := by
  induction rounds generalizing txns merkle leaves with
  | zero =>
    have hnil := List.length_eq_zero_iff.mp hrounds
    refine .inr (.inr ⟨?_, merkle, [], rfl, hmerkle.count⟩)
    intro k hk
    rw [hnil] at hk
    exact absurd hk List.not_mem_nil
  | succ rounds ih =>
    have hne : txns.keys ≠ [] := List.length_pos_iff.mp (by omega)
    rw [appendTxns]
    rcases minTx_cases hne with ⟨m, hmin⟩ | ⟨⟨k, hk, hnone⟩, e, hmin⟩
    · obtain ⟨⟨k, hk, hparse⟩, hleast⟩ := minTx_ok hmin
      have hm : m < 2 ^ 64 := lt_of_parseUnsigned hparse
      rw [hmin, ok_bind]
      cases htxn : txns.lookup m.repr with
      | none =>
        have hmem : m.repr ∉ txns.keys := by
          rw [← mem_keys, ← lookup_eq_none]
          exact htxn
        refine .inl ⟨⟨fun k' hk' => (hleast k' hk').imp (fun n hn => hn.1), k, hk, m, hparse, ?_,
          ?_⟩, rfl⟩
        · rintro rfl
          exact hmem hk
        · intro m' hm' hmem'
          obtain ⟨n, hn, hle⟩ := hleast _ hmem'
          rw [parseUnsigned_repr (lt_of_le_of_lt hm' hm)] at hn
          cases hn
          rw [le_antisymm hm' hle] at hmem'
          exact absurd hmem' hmem
      | some txn =>
        have hmem : m.repr ∈ txns.keys := by
          rw [← mem_keys, ← lookup_isSome, htxn]
          rfl
        rw [unwrap_some, ok_bind]
        cases hbytes : crates.toVecNamed txn with
        | none =>
          have hencoded : encodedAt crates txns m = none := by
            rw [encodedAt, htxn, bind_some, hbytes]
          refine .inr (.inl ⟨?_, ?_, _, rfl⟩)
          · rintro ⟨-, k', hk', n, hn, -, hall⟩
            obtain ⟨n', hn', hle⟩ := hleast k' hk'
            rw [hn] at hn'
            cases hn'
            have hsome := hall m hle hmem
            rw [hencoded] at hsome
            cases hsome
          · intro hplain
            have hsome := (hplain m.repr hmem).2
            rw [htxn, bind_some, hbytes] at hsome
            cases hsome
        | some bytes =>
          have hencoded : (encodedAt crates txns m).isSome := by
            rw [encodedAt, htxn, bind_some, hbytes]
            rfl
          have hlen : (txns.erase m.repr).keys.length = rounds := by
            rw [keys_erase, List.length_erase_of_mem hmem, hrounds, Nat.add_sub_cancel]
          obtain ⟨next, hnext, hholds⟩ := append_holds hmerkle bytes
          rw [ofOption_some, ok_bind, hnext, ok_bind]
          rw [← jams_erase_iff hm hencoded, ← plain_erase_iff hm hencoded]
          rcases ih hlen hholds with ⟨hjams, h⟩ | ⟨hjams, hplain, e, h⟩ |
            ⟨hplain, tree, encoded, h, hcount⟩
          · exact .inl ⟨hjams, by rw [h]; rfl⟩
          · exact .inr (.inl ⟨hjams, hplain, e, by rw [h]; rfl⟩)
          · refine .inr (.inr ⟨hplain, tree, bytes :: encoded, by rw [h]; rfl, ?_⟩)
            rw [hcount, List.length_append, List.length_singleton]
            omega
    · rw [hmin]
      refine .inr (.inl ⟨?_, ?_, e, rfl⟩)
      · intro hjams
        obtain ⟨n, hn⟩ := hjams.numerals k hk
        rw [hnone] at hn
        cases hn
      · intro hplain
        obtain ⟨⟨n, hn, rfl⟩, -⟩ := hplain k hk
        rw [parseUnsigned_repr hn] at hnone
        cases hnone

theorem consistencyProof_eq_panic_iff {sha256 : Ledger.Sha256} {t : MerkleTree}
    {newRootHash : Bytes} {newSize : ℕ} {proof : List Bytes} :
    consistencyProof sha256 t newRootHash newSize proof = .panic ↔ newSize < t.count := by
  rw [consistencyProof]
  by_cases hzero : t.count = 0
  · rw [if_pos hzero, hzero]
    exact iff_of_false (ok_ne_panic true) (Nat.not_lt_zero _)
  · rw [if_neg hzero]
    by_cases hsame : t.count = newSize ∧ t.rootHash = newRootHash
    · rw [if_pos hsame, hsame.1]
      exact iff_of_false (ok_ne_panic true) (lt_irrefl _)
    · rw [if_neg hsame]
      by_cases hlt : newSize < t.count
      · rw [if_pos hlt]
        exact iff_of_true rfl hlt
      · rw [if_neg hlt]
        refine iff_of_false ?_ hlt
        cases MerkleTree.rebuiltHashes sha256 t newSize proof with
        | none => exact ok_ne_panic false
        | some hashes => exact ok_ne_panic _

theorem mapM_ofOption_cases {α β : Type} (f : α → Option β) (e : IndyError) (l : List α) :
    ((∀ x ∈ l, (f x).isSome) ∧ ∃ r, l.mapM (fun x => Outcome.ofOption e (f x)) = .ok r) ∨
      (¬ (∀ x ∈ l, (f x).isSome) ∧ l.mapM (fun x => Outcome.ofOption e (f x)) = .err e) := by
  induction l with
  | nil => exact .inl ⟨fun x hx => absurd hx List.not_mem_nil, [], rfl⟩
  | cons x l ih =>
    rw [List.mapM_cons, List.forall_mem_cons]
    cases hx : f x with
    | none => exact .inr ⟨fun h => Bool.false_ne_true h.1, rfl⟩
    | some b =>
      rw [ofOption_some, ok_bind]
      rcases ih with ⟨hall, r, hr⟩ | ⟨hall, hr⟩
      · exact .inl ⟨⟨rfl, hall⟩, b :: r, by rw [hr]; rfl⟩
      · exact .inr ⟨fun h => hall h.2, by rw [hr]; rfl⟩

theorem checkConsProofs_eq_panic_iff {tree : MerkleTree} {consProofs : List String}
    {targetMtRoot : Bytes} {targetMtSize : ℕ} :
    checkConsProofs crates tree consProofs targetMtRoot targetMtSize = .panic ↔
      (∀ proof ∈ consProofs, (crates.fromBase58 proof).isSome) ∧ targetMtSize < tree.count := by
  rw [checkConsProofs]
  rcases mapM_ofOption_cases crates.fromBase58
      (errMsg .invalidStructure "Can't decode node consistency proof") consProofs with
    ⟨hall, proofs, hproofs⟩ | ⟨hall, hproofs⟩
  · rw [hproofs, ok_bind, and_iff_right hall,
      ← @consistencyProof_eq_panic_iff crates.sha256 tree targetMtRoot targetMtSize proofs]
    cases consistencyProof crates.sha256 tree targetMtRoot targetMtSize proofs with
    | ok accepted => cases accepted <;> exact iff_of_false (by simp) (ok_ne_panic _)
    | err e => exact iff_of_false (err_ne_panic e) (err_ne_panic e)
    | panic => exact iff_of_true rfl rfl
  · rw [hproofs]
    exact iff_of_false (err_ne_panic _) (fun h => hall h.1)

/-- The transactions are applied, the proof decodes, and the tree is larger than the target. -/
def Overshoots (crates : Crates) (rep : CatchupRep) (size targetMtSize : ℕ) : Prop :=
  PlainTxns crates rep.txns ∧ (∀ proof ∈ rep.consProof, (crates.fromBase58 proof).isSome) ∧
    targetMtSize < size + rep.txns.keys.length

theorem processCatchupReply_eq_panic_iff {rep : CatchupRep} {merkle : MerkleTree}
    {leaves : List Bytes} {targetMtRoot : Bytes} {targetMtSize : ℕ} {poolName : String}
    (hmerkle : Holds crates.sha256 merkle leaves)
    (hdump : ∀ txns, world.dumpNewTxns poolName txns ≠ .panic) :
    processCatchupReply crates world rep merkle targetMtRoot targetMtSize poolName = .panic ↔
      Jams crates rep.txns ∨ Overshoots crates rep leaves.length targetMtSize := by
  rw [processCatchupReply, Overshoots]
  rcases @appendTxns_cases crates _ rep.txns merkle leaves rfl hmerkle with
    ⟨hjams, h⟩ | ⟨hjams, hplain, e, h⟩ | ⟨hplain, tree, encoded, h, hcount⟩
  · rw [h]
    exact iff_of_true rfl (.inl hjams)
  · rw [h]
    exact iff_of_false (err_ne_panic e) (not_or_intro hjams (fun h => hplain h.1))
  · rw [h, ok_bind, or_iff_right hplain.not_jams, and_iff_right hplain, ← hcount,
      ← @checkConsProofs_eq_panic_iff crates tree rep.consProof targetMtRoot targetMtSize]
    simp only
    cases checkConsProofs crates tree rep.consProof targetMtRoot targetMtSize with
    | ok _ =>
      rw [ok_bind]
      refine iff_of_false (bind_ne_panic (hdump encoded) (fun _ => ?_))
        (ok_ne_panic ())
      exact ok_ne_panic tree
    | err e => exact iff_of_false (err_ne_panic e) (err_ne_panic e)
    | panic => exact iff_of_true rfl rfl

/-- A reply is accepted, or it is rejected with an error and leaves the request, with its tree, as
it was. -/
def RequestSM.ToleratesReply (crates : Crates) (world : World) (sm : RequestSM)
    (state : CatchupSingleState) (rep : CatchupRep) : Prop :=
  (∃ tree, processCatchupReply crates world rep state.merkleTree state.targetMtRoot
    state.targetMtSize sm.poolName = .ok tree) ∨
  ((∃ e, processCatchupReply crates world rep state.merkleTree state.targetMtRoot
      state.targetMtSize sm.poolName = .err e) ∧
    ∀ nodeAlias, ∃ output, sm.catchupSingleStep crates world state (.catchupRep rep nodeAlias) =
      .ok (.catchupSingle state, output))

/-- The replies that are dealt with are those that neither jam the loop nor overshoot the target. -/
theorem catchupReply_tolerated_iff {sm : RequestSM} {state : CatchupSingleState} {rep : CatchupRep}
    {leaves : List Bytes} (hmerkle : Holds crates.sha256 state.merkleTree leaves)
    (hdump : ∀ txns, world.dumpNewTxns sm.poolName txns ≠ .panic) :
    sm.ToleratesReply crates world state rep ↔
      ¬ Jams crates rep.txns ∧ ¬ Overshoots crates rep leaves.length state.targetMtSize := by
  rw [← not_or, ← processCatchupReply_eq_panic_iff hmerkle hdump, RequestSM.ToleratesReply]
  simp only [RequestSM.catchupSingleStep]
  cases processCatchupReply crates world rep state.merkleTree state.targetMtRoot
      state.targetMtSize sm.poolName with
  | ok tree => exact iff_of_true (.inl ⟨tree, rfl⟩) (ok_ne_panic tree)
  | err e => exact iff_of_true (.inr ⟨⟨e, rfl⟩, fun _ => ⟨_, rfl⟩⟩) (err_ne_panic e)
  | panic =>
    refine iff_of_false ?_ (fun h => h rfl)
    rintro (⟨tree, h⟩ | ⟨⟨e, h⟩, -⟩)
    · cases h
    · cases h

/-- A pool of one node that waits for the second transaction of a ledger. -/
def catchingUp : RequestSM where
  f := 0
  cmdIds := []
  nodes := AList.insert "Node1" none ∅
  generator := []
  poolName := "pool"
  timeout := 20
  extendedTimeout := 60
  state := .start

def awaitingSecond : CatchupSingleState where
  targetMtRoot := []
  targetMtSize := 2
  merkleTree := ⟨Ledger.Tree.newLeaf (fun _ => []) [1], 0, 1, 0⟩
  reqId := "22"

theorem awaitingSecond_holds : Holds Crates.none.sha256 awaitingSecond.merkleTree [[1]] :=
  ⟨(Ledger.Tree.ofLeaves_singleton [1]).symm, rfl⟩

theorem catchupReply_tolerated_unnumbered :
    catchingUp.ToleratesReply Crates.none (World.at 0) awaitingSecond
      ⟨0, [], AList.insert "second" .null ∅⟩ := by
  refine (catchupReply_tolerated_iff awaitingSecond_holds (fun _ => ok_ne_panic ())).mpr
    ⟨fun hjams => ?_, fun hover => ?_⟩
  · have hnone : parseUnsigned 64 "second" = none := by decide +kernel
    obtain ⟨n, hn⟩ := hjams.numerals "second" (by decide +kernel)
    rw [hnone] at hn
    cases hn
  · exact absurd (hover.1 "second" (by decide +kernel)).2 (by decide +kernel)

/-- A zero before the number of the transaction. -/
theorem zeroPadded_key_panics :
    ¬ catchingUp.ToleratesReply Crates.none (World.at 0) awaitingSecond
        ⟨0, [], AList.insert "02" .null ∅⟩ ∧
      processCatchupReply Crates.none (World.at 0) ⟨0, [], AList.insert "02" .null ∅⟩
        awaitingSecond.merkleTree [] 2 "pool" = .panic := by
  have hpanic : processCatchupReply Crates.none (World.at 0)
      ⟨0, [], AList.insert "02" .null ∅⟩ awaitingSecond.merkleTree [] 2 "pool" = .panic := rfl
  refine ⟨?_, hpanic⟩
  rintro (⟨tree, h⟩ | ⟨⟨e, h⟩, -⟩)
  · cases hpanic.symm.trans h
  · cases hpanic.symm.trans h

end IndySdk.Pool
