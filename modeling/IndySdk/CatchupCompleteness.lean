import IndySdk.CatchupReply
import IndySdk.RequestSteps

/-!
# Completeness of a catch-up

A catch-up request starts from a tree and a target that the nodes voted for. The tree it ends with
is the target exactly when the reply it accepts carries the missing sequence numbers; nothing in the
request asks for that.
-/

namespace IndySdk.Pool

open RequestSM
open Ledger (MerkleTree)
open Ledger.MerkleTree (Holds)

section

variable (crates : Crates) (leaves : List Bytes) (targetMtRoot : Bytes) (targetMtSize : ℕ)

/-- A tree that a step raises as synced is the target, reached with the transactions of the
reply. -/
def SyncsComplete (s : Option RequestSM) (input : World × RequestEvent) : Prop :=
  ∀ output tree, ((requestMachine crates).step input s).1 = some output →
    output.poolEvent = some (.synced tree) → ∃ rep nodeAlias,
      input.2 = .catchupRep rep nodeAlias ∧
        Complete crates rep leaves targetMtRoot targetMtSize tree

/-- A reply that reaches the catch-up carries exactly the missing numbers or is not accepted. -/
def ExactOrRefused (s : Option RequestSM) (input : World × RequestEvent) : Prop :=
  ∀ sm state rep nodeAlias, s = some sm → sm.state = .catchupSingle state →
    input.2 = .catchupRep rep nodeAlias →
      ExactNumbers rep.txns leaves.length targetMtSize ∨
        ¬ Acceptable crates input.1 rep leaves targetMtRoot targetMtSize sm.poolName

/-- A catch-up goes on from the tree and the target it was started with. -/
def CatchesUp (s : Option RequestSM) : Prop :=
  ∀ sm, s = some sm → sm.state = .finish ∨ ∃ state, sm.state = .catchupSingle state ∧
    state.targetMtRoot = targetMtRoot ∧ state.targetMtSize = targetMtSize ∧
    Holds crates.sha256 state.merkleTree leaves

end

variable {crates : Crates} {leaves : List Bytes} {targetMtRoot : Bytes} {targetMtSize : ℕ}

theorem catchupSingleStep_ok {world : World} {sm : RequestSM} {state : CatchupSingleState}
    {event : RequestEvent} {next : RequestState} {output : Output}
    (h : sm.catchupSingleStep crates world state event = .ok (next, output)) :
    (output.poolEvent = none ∧ (next = .catchupSingle state ∨ next = .finish)) ∨
      ∃ rep nodeAlias tree, event = .catchupRep rep nodeAlias ∧ next = .finish ∧
        output.poolEvent = some (.synced tree) ∧
        processCatchupReply crates world rep state.merkleTree state.targetMtRoot
          state.targetMtSize sm.poolName = .ok tree := by
  cases event with
  | catchupRep rep nodeAlias =>
    rw [catchupSingleStep] at h
    cases hp : processCatchupReply crates world rep state.merkleTree state.targetMtRoot
      state.targetMtSize sm.poolName with
    | ok tree =>
      rw [hp] at h
      cases h
      exact .inr ⟨rep, nodeAlias, tree, rfl, rfl, rfl, hp⟩
    | err e =>
      rw [hp] at h
      cases h
      exact .inl ⟨rfl, .inl rfl⟩
    | panic =>
      rw [hp] at h
      cases h
  | terminate =>
    cases h
    exact .inl ⟨rfl, .inr rfl⟩
  | _ =>
    cases h
    exact .inl ⟨rfl, .inl rfl⟩

theorem CatchesUp.step {s : Option RequestSM} {input : World × RequestEvent}
    (h : CatchesUp crates leaves targetMtRoot targetMtSize s) :
    CatchesUp crates leaves targetMtRoot targetMtSize ((requestMachine crates).step input s).2 := by
  rcases @requestMachine_step_cases crates s input with ⟨output, hout⟩ | hnone
  · obtain ⟨sm, next, rfl, hstep, hnext⟩ := requestMachine_step_some hout
    rw [hnext]
    intro sm' hsm'
    cases hsm'
    rw [stateStep] at hstep
    rcases h sm rfl with hfinish | ⟨state, hstate, hroot, hsize, hholds⟩
    · rw [hfinish] at hstep
      cases hstep
      exact .inl rfl
    · rw [hstate] at hstep
      rcases catchupSingleStep_ok hstep with ⟨-, rfl | rfl⟩ | ⟨-, -, -, -, rfl, -, -⟩
      · exact .inr ⟨state, rfl, hroot, hsize, hholds⟩
      · exact .inl rfl
      · exact .inl rfl
  · rw [hnone]
    intro sm hsm
    cases hsm

/-- One step of a catch-up: a tree it raises is complete exactly when the reply is exact. -/
theorem syncsComplete_iff {s : Option RequestSM} {input : World × RequestEvent}
    (hlt : leaves.length < targetMtSize) (hsize : targetMtSize < 2 ^ 64)
    (h : CatchesUp crates leaves targetMtRoot targetMtSize s) :
    SyncsComplete crates leaves targetMtRoot targetMtSize s input ↔
      ExactOrRefused crates leaves targetMtRoot targetMtSize s input := by
  constructor
  · rintro hsync sm state rep nodeAlias rfl hstate hevent
    rcases h sm rfl with hfinish | ⟨state', hstate', hroot, hsz, hholds⟩
    · rw [hstate] at hfinish
      cases hfinish
    · rw [hstate] at hstate'
      cases hstate'
      by_cases hacc : Acceptable crates input.1 rep leaves targetMtRoot targetMtSize sm.poolName
      · left
        obtain ⟨tree, hp⟩ := (exists_processCatchupReply_iff hholds).mpr hacc
        have hraised : ((requestMachine crates).step input (some sm)).1 =
            some { networker := [.cleanTimeout state.reqId none],
                   poolEvent := some (.synced tree) } := by
          simp [requestMachine, handleEvent, stateStep, hstate, hevent,
            catchupSingleStep, hroot, hsz, hp]
        obtain ⟨rep', alias', hevent', hcomplete⟩ := hsync _ tree hraised rfl
        rw [hevent] at hevent'
        cases hevent'
        exact hcomplete.exactNumbers
      · exact .inr hacc
  · intro hexact output tree hout hraised
    obtain ⟨sm, next, rfl, hstep, -⟩ := requestMachine_step_some hout
    rw [stateStep] at hstep
    rcases h sm rfl with hfinish | ⟨state, hstate, hroot, hsz, hholds⟩
    · rw [hfinish] at hstep
      cases hstep
      cases hraised
    · rw [hstate] at hstep
      rcases catchupSingleStep_ok hstep with ⟨hnone, -⟩ | ⟨rep, nodeAlias, t, hevent, -, ht, hp⟩
      · rw [hnone] at hraised
        cases hraised
      · rw [ht] at hraised
        cases hraised
        rw [hroot, hsz] at hp
        refine ⟨rep, nodeAlias, hevent, (complete_iff_exactNumbers hholds hlt hsize hp).mpr ?_⟩
        rcases hexact sm state rep nodeAlias rfl hstate hevent with he | hrefused
        · exact he
        · exact absurd ((exists_processCatchupReply_iff hholds).mp ⟨tree, hp⟩) hrefused

theorem start_catchup {sm : RequestSM} {merkle : MerkleTree} {world : World}
    (hstart : sm.state = .start) (hholds : Holds crates.sha256 merkle leaves)
    (hlt : leaves.length < targetMtSize) :
    ∃ networker reqId, (requestMachine crates).step
        (world, .catchupReq merkle targetMtSize targetMtRoot) (some sm) =
      (some { networker := networker },
        some { sm with state := .catchupSingle ⟨targetMtRoot, targetMtSize, merkle, reqId⟩ }) := by
  have hcount := hholds.count
  have hreq : ∃ reqId reqJson, buildCatchupReq crates world merkle targetMtSize =
      .ok (some (reqId, reqJson)) := by
    rw [buildCatchupReq, Outcome.wordSub_of_le (by omega), Outcome.ok_bind, if_neg (by omega)]
    exact ⟨_, _, rfl⟩
  obtain ⟨reqId, reqJson, hreq⟩ := hreq
  refine ⟨[.sendOneRequest reqJson reqId sm.timeout], reqId, ?_⟩
  simp [requestMachine, handleEvent, stateStep, hstart, startStep,
    hreq]

theorem catchesUp_started {sm : RequestSM} {merkle : MerkleTree} {reqId : String}
    (hholds : Holds crates.sha256 merkle leaves) :
    CatchesUp crates leaves targetMtRoot targetMtSize
      (some { sm with state := .catchupSingle ⟨targetMtRoot, targetMtSize, merkle, reqId⟩ }) := by
  intro sm' hsm'
  cases hsm'
  exact .inr ⟨_, rfl, rfl, rfl, hholds⟩

/-- Runs of a catch-up: every tree raised as synced is the target exactly when every reply that
reaches the request carries the missing numbers or is not accepted. -/
theorem catchup_complete_iff {sm : RequestSM} {merkle : MerkleTree} (hstart : sm.state = .start)
    (hholds : Holds crates.sha256 merkle leaves) (hlt : leaves.length < targetMtSize)
    (hsize : targetMtSize < 2 ^ 64) (world : World) (inputs : List (World × RequestEvent)) :
    (requestMachine crates).Along (SyncsComplete crates leaves targetMtRoot targetMtSize) (some sm)
        ((world, .catchupReq merkle targetMtSize targetMtRoot) :: inputs) ↔
      (requestMachine crates).Along (ExactOrRefused crates leaves targetMtRoot targetMtSize)
        (some sm) ((world, .catchupReq merkle targetMtSize targetMtRoot) :: inputs) := by
  obtain ⟨networker, reqId, hstep⟩ :=
    @start_catchup crates leaves targetMtRoot targetMtSize sm merkle world hstart hholds hlt
  have hrun := @Machine.along_iff_along _ _ _ (requestMachine crates) _ _ _
    (fun s i hs => @syncsComplete_iff crates leaves targetMtRoot targetMtSize s i hlt hsize hs)
    (fun s i hs => CatchesUp.step hs) _ inputs (@catchesUp_started _ _ _ _ sm _ reqId hholds)
  rw [Machine.Along, Machine.Along, hstep, hrun]
  refine and_congr_left (fun _ => iff_of_true ?_ ?_)
  · intro output tree hout hraised
    rw [hstep] at hout
    cases hout
    cases hraised
  · rintro sm'' state rep nodeAlias hsm - hevent
    cases hevent

/-- Three transactions, with their hashes and encodings as the libraries give them. -/
def exampleTxn (n : ℕ) : Json := .obj [("txn", .int n)]

def exampleBytes (n : UInt8) : Bytes := [0x81, 0xa3, 0x74, 0x78, 0x6e, n]

def exampleHash : UInt8 → Bytes
  | 1 => Bytes.ofHex "402bb705b5ae057d071d64e89b518ca5477f372b528e32688793c44124260d43"
  | 2 => Bytes.ofHex "056fa7a4a4557034d73846e7e34c45a63a4097c9f79d3315774f200c33aed10c"
  | _ => Bytes.ofHex "b0cdd4b2004a82fb618b84e957d5118be48c3d90ef44b2c29679e788a2d0a53e"

def exampleHash₁₂ : Bytes :=
  Bytes.ofHex "1757a3045a7d11cfd54cdebfce2e32c411a3f2bc8c2bc8370955126c201d59e2"

def exampleRoot : Bytes :=
  Bytes.ofHex "1fc958aa99b4631028ad219c8ab4c91ce8688a48ed979fde827a1bbda4133bd6"

def exampleSha256 (input : Bytes) : Bytes :=
  (List.lookup input [(0x00 :: exampleBytes 1, exampleHash 1),
    (0x00 :: exampleBytes 2, exampleHash 2), (0x00 :: exampleBytes 3, exampleHash 3),
    (0x01 :: (exampleHash 1 ++ exampleHash 2), exampleHash₁₂),
    (0x01 :: (exampleHash₁₂ ++ exampleHash 3), exampleRoot)]).getD []

def exampleCrates : Crates :=
  { Crates.none with
    sha256 := exampleSha256
    fromBase58 := fun s =>
      if s = "CuAnyTbziuGpWKb8gunofz6MEVjPFBrkvKiMs3y4Mfzm" then some (exampleHash 3) else none
    toVecNamed := fun j => List.lookup j [(exampleTxn 1, exampleBytes 1),
      (exampleTxn 2, exampleBytes 2), (exampleTxn 3, exampleBytes 3)] }

def exampleTree : MerkleTree := ⟨.leaf (exampleHash 1) (exampleBytes 1), 0, 1, 0⟩

def exampleRequest : RequestSM := ⟨0, [], ∅, [], "pool", 20, 100, .start⟩

/-- A reply with the transaction 2 alone, and a proof that it and the first begin the target. -/
def shortReply : CatchupRep :=
  ⟨0, ["CuAnyTbziuGpWKb8gunofz6MEVjPFBrkvKiMs3y4Mfzm"], AList.singleton "2" (exampleTxn 2)⟩

/-- A reply with both transactions that the tree lacks; sizes that agree need no proof. -/
def fullReply : CatchupRep :=
  ⟨0, [], (AList.singleton "2" (exampleTxn 2)).insert "3" (exampleTxn 3)⟩

theorem exampleTree_holds : Holds exampleCrates.sha256 exampleTree [exampleBytes 1] := by
  refine ⟨?_, rfl⟩
  rw [Ledger.Tree.ofLeaves_singleton]
  rfl

theorem fullReply_exact : ExactNumbers fullReply.txns 1 3 := by
  intro k
  have hkeys : k ∈ fullReply.txns ↔ k = "3" ∨ k = "2" := by
    rw [fullReply, AList.mem_insert, AList.mem_keys, AList.keys_singleton, List.mem_singleton]
  rw [hkeys]
  constructor
  · rintro (rfl | rfl)
    · exact ⟨3, by decide, by decide, by decide⟩
    · exact ⟨2, by decide, by decide, by decide⟩
  · rintro ⟨n, hlt, hle, rfl⟩
    have hn : n = 3 ∨ n = 2 := by omega
    rcases hn with rfl | rfl
    · exact .inl (by decide)
    · exact .inr (by decide)

theorem catchup_complete_fullReply :
    (requestMachine exampleCrates).Along
      (SyncsComplete exampleCrates [exampleBytes 1] exampleRoot 3) (some exampleRequest)
      [(World.at 0, .catchupReq exampleTree 3 exampleRoot),
        (World.at 0, .catchupRep fullReply "Node1")] := by
  refine (catchup_complete_iff rfl exampleTree_holds (by decide) (by decide) (World.at 0)
    [(World.at 0, .catchupRep fullReply "Node1")]).mpr ⟨?_, ?_, trivial⟩
  · rintro sm state rep nodeAlias - - hevent
    cases hevent
  · rintro sm state rep nodeAlias - - hevent
    cases hevent
    exact .inl fullReply_exact

theorem shortReply_keys (k : String) : k ∈ shortReply.txns ↔ k = "2" := by
  rw [shortReply, AList.mem_keys, AList.keys_singleton, List.mem_singleton]

theorem exampleRoot_eq {tree : MerkleTree}
    (h : Holds exampleSha256 tree [exampleBytes 1, exampleBytes 2]) :
    tree.rootHash = exampleHash₁₂ := by
  have hroot := @Ledger.Tree.ofLeaves_append exampleSha256 [exampleBytes 1] [exampleBytes 2] 0 rfl
    Nat.one_pos le_rfl
  rw [Ledger.Tree.ofLeaves_singleton, Ledger.Tree.ofLeaves_singleton] at hroot
  rw [Ledger.MerkleTree.rootHash, h.root]
  exact (congrArg Ledger.Tree.hash hroot).trans (by decide +kernel)

theorem shortReply_checks {tree : MerkleTree}
    (h : Holds exampleSha256 tree [exampleBytes 1, exampleBytes 2]) :
    checkConsProofs exampleCrates tree shortReply.consProof exampleRoot 3 = .ok () := by
  have hcount : tree.count = 2 := h.count
  have hroot := exampleRoot_eq h
  have hrebuilt : Ledger.MerkleTree.rebuiltHashes exampleSha256 tree 3 [exampleHash 3] =
      some (exampleHash₁₂, exampleRoot) := by
    have hskip : Ledger.MerkleTree.skipRight 1 2 = (0, 1) := by
      unfold Ledger.MerkleTree.skipRight
      rw [dif_pos (by decide)]
      unfold Ledger.MerkleTree.skipRight
      rw [dif_neg (by decide)]
    have hold : Ledger.MerkleTree.climbOld exampleSha256 0 1 exampleHash₁₂ exampleHash₁₂
        [exampleHash 3] = some (1, exampleHash₁₂, exampleHash₁₂, [exampleHash 3]) := by
      unfold Ledger.MerkleTree.climbOld
      rw [dif_neg (by decide)]
    have hnew : Ledger.MerkleTree.climbNew exampleSha256 1 exampleHash₁₂ [exampleHash 3] =
        some exampleRoot := by
      have hlast : Ledger.MerkleTree.climbNew exampleSha256 0
          (Ledger.Hash.hashNodes exampleSha256 exampleHash₁₂ (exampleHash 3)) [] =
          some exampleRoot := by
        unfold Ledger.MerkleTree.climbNew
        rw [dif_neg (by decide)]
        rfl
      unfold Ledger.MerkleTree.climbNew
      rw [dif_pos (by decide)]
      exact hlast
    simp [Ledger.MerkleTree.rebuiltHashes, hcount, hskip, Ledger.MerkleTree.startHash, hroot, hold,
      hnew]
  have hproof : shortReply.consProof.mapM (fun consProof => (Outcome.ofOption
      (errMsg .invalidStructure "Can't decode node consistency proof")
      (exampleCrates.fromBase58 consProof) : IndyResult Bytes)) = .ok [exampleHash 3] := by
    rfl
  have haccepted : tree.consistencyProof exampleSha256 exampleRoot 3 [exampleHash 3] =
      .ok true := by
    rw [Ledger.MerkleTree.consistencyProof, hcount, if_neg (by decide),
      if_neg (fun he => absurd he.1 (by decide)), if_neg (by decide), hrebuilt, hroot]
    simp
  rw [checkConsProofs, hproof, Outcome.ok_bind]
  exact congrArg (fun x : IndyResult Bool => x >>= _) haccepted

theorem shortReply_acceptable : Acceptable exampleCrates (World.at 0) shortReply [exampleBytes 1]
    exampleRoot 3 "pool" := by
  obtain ⟨tree, -, htree⟩ := @Ledger.MerkleTree.fromVec_holds exampleSha256
    [exampleBytes 1, exampleBytes 2]
  refine ⟨[2], [exampleBytes 2], tree, ⟨List.pairwise_singleton _ _, by decide, ?_⟩, ?_, htree,
    shortReply_checks htree, rfl⟩
  · intro k
    rw [shortReply_keys]
    constructor
    · rintro rfl
      exact ⟨2, List.mem_singleton_self 2, by decide⟩
    · rintro ⟨n, hn, rfl⟩
      rw [List.mem_singleton.mp hn]
      decide
  · rfl

/-- The request accepts the short reply, and ends one transaction below its target. -/
theorem shortReply_not_complete : ¬ (requestMachine exampleCrates).Along
    (SyncsComplete exampleCrates [exampleBytes 1] exampleRoot 3) (some exampleRequest)
    [(World.at 0, .catchupReq exampleTree 3 exampleRoot),
      (World.at 0, .catchupRep shortReply "Node1")] := by
  obtain ⟨networker, reqId, hstep⟩ := @start_catchup exampleCrates [exampleBytes 1] exampleRoot 3
    exampleRequest exampleTree (World.at 0) rfl exampleTree_holds (by decide)
  rintro ⟨-, hsync, -⟩
  rw [hstep] at hsync
  have hexact := (syncsComplete_iff (by decide) (by decide)
    (catchesUp_started exampleTree_holds)).mp hsync _ _ shortReply "Node1" rfl rfl rfl
  rcases hexact with hexact | hrefused
  · have hthree := (hexact "3").mpr ⟨3, by decide, by decide, by decide⟩
    rw [shortReply_keys] at hthree
    exact absurd hthree (by decide)
  · exact hrefused shortReply_acceptable

end IndySdk.Pool
