import IndySdk.ConsistencyProof
import IndySdk.Numerals
import IndySdk.PoolCrates

/-!
# Catching up with the pool ledger

The votes of the nodes decide whether the local ledger is current, is to be caught up or is to be
read anew. A reply with transactions is applied in the order of its sequence numbers, and the tree
that results is accepted by the consistency proof of the reply.
-/

namespace IndySdk.Pool

open Ledger (MerkleTree)

variable (crates : Crates) (world : World)

/-- The transactions of a reply under their sequence numbers. -/
abbrev Txns := AssocMap String Json

/-- One round of the search for the smallest key. -/
def minTxStep (min : Option ℕ) (k : String) : IndyResult (Option ℕ) := do
  let val ← Outcome.ofOption (errMsg .invalidStructure "Invalid key in catchup reply")
    (Numerals.parseUnsigned 64 k)
  match min with
  | none => pure (some val)
  | some m => if val < m then pure (some val) else pure (some m)

def minTx (txns : Txns) : IndyResult ℕ := do
  let min ← txns.keys.foldlM minTxStep none
  Outcome.ofOption (errMsg .invalidStructure "Empty map") min

def checkConsProofs (mt : MerkleTree) (consProofs : List String) (targetMtRoot : Bytes)
    (targetMtSize : ℕ) : IndyResult Unit := do
  let bytesProofs ← consProofs.mapM (fun consProof => Outcome.ofOption
    (errMsg .invalidStructure "Can't decode node consistency proof") (crates.fromBase58 consProof))
  if ← mt.consistencyProof crates.sha256 targetMtRoot targetMtSize bytesProofs then pure ()
  else .err (errMsg .invalidState "Consistency proof verification failed")

/-- The loop over the transactions of a reply, one round for each of them. -/
def appendTxns : ℕ → Txns → MerkleTree → IndyResult (MerkleTree × List Bytes)
  | 0, _, merkle => .ok (merkle, [])
  | rounds + 1, txns, merkle => do
    let key ← minTx txns
    let txn ← Outcome.unwrap (txns.lookup key.repr)
    let txn ← Outcome.ofOption
      (errMsg .invalidStructure "Invalid transaction -- can not transform to bytes")
      (crates.toVecNamed txn)
    let merkle ← merkle.append crates.sha256 txn
    let (merkle, txnsToDrop) ← appendTxns rounds (txns.erase key.repr) merkle
    pure (merkle, txn :: txnsToDrop)

def processCatchupReply (rep : CatchupRep) (merkle : MerkleTree) (targetMtRoot : Bytes)
    (targetMtSize : ℕ) (poolName : String) : IndyResult MerkleTree := do
  let (merkle, txnsToDrop) ← appendTxns crates rep.txns.keys.length rep.txns merkle
  checkConsProofs crates merkle rep.consProof targetMtRoot targetMtSize
  world.dumpNewTxns poolName txnsToDrop
  pure merkle

/-- The request for the missing transactions, with the id it is sent under. -/
def buildCatchupReq (merkle : MerkleTree) (targetMtSize : ℕ) :
    IndyResult (Option (String × String)) := do
  let txnsCnt ← Outcome.wordSub 64 world.overflowChecks targetMtSize merkle.count
  if txnsCnt = 0 then pure none
  else
    let seqNoStart := merkle.count + 1
    let seqNoEnd := targetMtSize
    let cr : CatchupReq := ⟨0, seqNoStart, seqNoEnd, targetMtSize⟩
    let reqId := seqNoStart.repr ++ seqNoEnd.repr
    let reqJson := crates.toStr (.obj [("op", .str "CATCHUP_REQ"), ("ledgerId", .int cr.ledgerId),
      ("seqNoStart", .int cr.seqNoStart), ("seqNoEnd", .int cr.seqNoEnd),
      ("catchupTill", .int cr.catchupTill)])
    pure (some (reqId, reqJson))

inductive CatchupProgress where
  | shouldBeStarted (targetMtRoot : Bytes) (targetMtSize : ℕ) (merkle : MerkleTree)
  | notNeeded (merkle : MerkleTree)
  | restart (merkle : MerkleTree)
  | inProgress

/-- What a node says about the ledger: its root, its size and a consistency proof. -/
abbrev LedgerVote := String × ℕ × Option (List String)

abbrev LedgerVotes := AssocMap LedgerVote (Finset String)

def tryToRestartCatchUp (poolName : String) (err : IndyError) : IndyResult CatchupProgress :=
  match world.dropCache poolName with
  | .ok _ => do
    let merkleTree ← world.createAfterDrop poolName
    pure (.restart merkleTree)
  | .err _ => .err err
  | .panic => .panic

def ifConsensusReachable (nodesVotes : LedgerVotes) (nodeCnt votesCnt f : ℕ) (poolName : String) :
    IndyResult CatchupProgress := do
  let repsCnt := (nodesVotes.values.map Finset.card).sum
  let missing ← Outcome.wordSub 64 world.overflowChecks nodeCnt repsCnt
  let positiveVotesCnt ← Outcome.wordAdd 64 world.overflowChecks votesCnt missing
  let needed ← Outcome.wordSub 64 world.overflowChecks nodeCnt f
  if positiveVotesCnt < needed then
    tryToRestartCatchUp world poolName (errMsg .poolTimeout "No consensus possible")
  else pure .inProgress

def tryToCatchUp (ledgerStatus : LedgerVote) (merkleTree : MerkleTree) :
    IndyResult CatchupProgress :=
  let (targetMtRoot, targetMtSize, hashes) := ledgerStatus
  let curMtHash := crates.toBase58 merkleTree.rootHash
  if targetMtSize = merkleTree.count then
    if curMtHash = targetMtRoot then .ok (.notNeeded merkleTree)
    else .err (errMsg .invalidState "Ledger merkle tree is not acceptable for current tree.")
  else if merkleTree.count < targetMtSize then do
    let targetMtRoot ← Outcome.ofOption
      (errMsg .invalidStructure "Can't parse target MerkleTree hash from nodes responses")
      (crates.fromBase58 targetMtRoot)
    match hashes with
    | none => pure ()
    | some hashes => checkConsProofs crates merkleTree hashes targetMtRoot targetMtSize
    pure (.shouldBeStarted targetMtRoot targetMtSize merkleTree)
  else .err (errMsg .invalidState "Local merkle tree greater than mt from ledger")

/-- The attempt for the most popular vote, made again on the tree read after its cache is gone. -/
def catchUpOrReload (vote : LedgerVote) (merkleTree : MerkleTree) (poolName : String) :
    IndyResult CatchupProgress :=
  match tryToCatchUp crates vote merkleTree with
  | .ok progress => .ok progress
  | .panic => .panic
  | .err err =>
    match world.dropCache poolName with
    | .ok _ => do
      let merkleTree ← world.createAfterDrop poolName
      tryToCatchUp crates vote merkleTree
    | .err _ => .err err
    | .panic => .panic

def checkNodesResponsesOnStatus (nodesVotes : LedgerVotes) (merkleTree : MerkleTree)
    (nodeCnt f : ℕ) (poolName : String) : IndyResult CatchupProgress :=
  let counts := nodesVotes.toPairs.map (fun entry => (entry.1, entry.2.card))
  let votes := world.order.order (counts.filter (fun entry => entry.1.1 ≠ "timeout"))
  let timeoutVotes := world.order.order (counts.filter (fun entry => entry.1.1 = "timeout"))
  match maxByKey Prod.snd votes with
  | some (vote, votesCnt) =>
    if votesCnt = f + 1 then catchUpOrReload crates world vote merkleTree poolName
    else ifConsensusReachable world nodesVotes nodeCnt votesCnt f poolName
  | none =>
    match timeoutVotes.getLast? with
    | some (_, votesCnt) => do
      let needed ← Outcome.wordSub 64 world.overflowChecks nodeCnt f
      if votesCnt = needed then
        tryToRestartCatchUp world poolName (errMsg .poolTimeout "Pool timeout")
      else ifConsensusReachable world nodesVotes nodeCnt votesCnt f poolName
    | none => pure .inProgress

end IndySdk.Pool
