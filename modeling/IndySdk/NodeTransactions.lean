import IndySdk.CryptoService
import IndySdk.PoolCrates

/-!
# The nodes of a pool

The pool ledger is a list of node transactions. A transaction for a node that is there already
updates it field by field. The nodes are found by their `dest` while the transactions are read, and
by their alias in what the pool works with.
-/

namespace IndySdk.Pool

open Crypto (Base58 buildFullVerkey)
open Ledger (MerkleTree)

structure NodeData where
  alias_ : String
  clientIp : Option String
  clientPort : Option ℕ
  nodeIp : Option String
  nodePort : Option ℕ
  services : Option (List String)
  blskey : Option String
  blskeyPop : Option String
  deriving DecidableEq

structure TxnData where
  data : NodeData
  dest : String
  verkey : Option String
  deriving DecidableEq

structure TxnMetadata where
  reqId : Option ℤ
  from_ : String
  deriving DecidableEq

structure Txn where
  txnType : String
  protocolVersion : Option ℤ
  data : TxnData
  metadata : TxnMetadata
  deriving DecidableEq

structure NodeTransactionMetadata where
  creationTime : Option ℕ
  seqNo : Option ℤ
  txnId : Option String
  deriving DecidableEq

structure ReqSignatureValue where
  from_ : Option String
  value : Option String
  deriving DecidableEq

structure ReqSignature where
  type_ : Option String
  values : Option (List ReqSignatureValue)
  deriving DecidableEq

structure NodeTransactionV1 where
  txn : Txn
  txnMetadata : NodeTransactionMetadata
  reqSignature : ReqSignature
  ver : String
  deriving DecidableEq

structure NodeTransactionV0 where
  data : NodeData
  dest : String
  identifier : String
  txnId : Option String
  verkey : Option String
  txnType : String
  deriving DecidableEq

inductive NodeTransaction where
  | nodeTransactionV0 (txn : NodeTransactionV0)
  | nodeTransactionV1 (txn : NodeTransactionV1)
  deriving DecidableEq

def NodeTransactionV0.version : String := "1.3"

def NodeTransactionV1.version : String := "1.4"

/-- The libraries that decode transactions and keys. -/
structure NodeCrates where
  base58 : Base58
  fromSlice : Bytes → Option NodeTransaction
  vkToCurve25519 : Bytes → Bytes
  verKeyFromBytes : Bytes → Option VerKey

def NodeTransactionV1.ofV0 (nodeTxn : NodeTransactionV0) : NodeTransactionV1 where
  txn := {
    txnType := nodeTxn.txnType
    protocolVersion := none
    data := ⟨nodeTxn.data, nodeTxn.dest, nodeTxn.verkey⟩
    metadata := ⟨none, nodeTxn.identifier⟩ }
  txnMetadata := ⟨none, none, nodeTxn.txnId⟩
  reqSignature := ⟨none, none⟩
  ver := "1"

namespace NodeTransactionV1

def dest (t : NodeTransactionV1) : String := t.txn.data.dest

def nodeData (t : NodeTransactionV1) : NodeData := t.txn.data.data

def verkey (t : NodeTransactionV1) : Option String := t.txn.data.verkey

/-- Fields that the later transaction leaves out stay. -/
def mergeData (data other : NodeData) : NodeData where
  alias_ := data.alias_
  clientIp := other.clientIp.or data.clientIp
  clientPort := other.clientPort.or data.clientPort
  nodeIp := other.nodeIp.or data.nodeIp
  nodePort := other.nodePort.or data.nodePort
  services := other.services.or data.services
  blskey := other.blskey.or data.blskey
  blskeyPop := other.blskeyPop.or data.blskeyPop

/-- The two assertions abort the thread. -/
def update (base58 : Base58) (self other : NodeTransactionV1) : IndyResult NodeTransactionV1 :=
  if self.dest ≠ other.dest then .panic
  else if self.nodeData.alias_ ≠ other.nodeData.alias_ then .panic
  else do
    let verkey ← (match other.verkey with
      | some _ => some <$> buildFullVerkey base58 self.dest other.verkey
      | none => .ok self.verkey : IndyResult (Option String))
    .ok { self with
      txn := { self.txn with
        data := ⟨mergeData self.nodeData other.nodeData, self.dest, verkey⟩ } }

end NodeTransactionV1

variable (crates : NodeCrates) (protocolVersion : ℕ)

def protocolVersionMsg (needed : ℕ) : String :=
  "Libindy PROTOCOL_VERSION is _ but Pool Genesis Transactions are of version _." ++
    "Call indy_set_protocol_version(" ++ toString needed ++ ") to set correct PROTOCOL_VERSION"

def ofVersion (version : String) (needed : ℕ) (txn : NodeTransactionV1) :
    IndyResult NodeTransactionV1 :=
  if protocolVersion ≠ needed then
    .err (errMsg .poolIncompatibleProtocolVersion (protocolVersionMsg needed)
      [toString protocolVersion, version])
  else .ok txn

def genTxnOf (item : Bytes) : IndyResult NodeTransactionV1 := do
  let genTxn ← Outcome.ofOption (errMsg .invalidState "MerkleTree contains invalid item")
    (crates.fromSlice item)
  match genTxn with
  | .nodeTransactionV0 txn =>
    ofVersion protocolVersion NodeTransactionV0.version 1 (NodeTransactionV1.ofV0 txn)
  | .nodeTransactionV1 txn => ofVersion protocolVersion NodeTransactionV1.version 2 txn

/-- One round of the loop over the ledger. -/
def addGenTxn (genTxns : AssocMap String NodeTransactionV1) (item : Bytes) :
    IndyResult (AssocMap String NodeTransactionV1) := do
  let genTxn ← genTxnOf crates protocolVersion item
  match genTxns.lookup genTxn.dest with
  | some node => do
    let node ← node.update crates.base58 genTxn
    .ok (genTxns.insert genTxn.dest node)
  | none => .ok (genTxns.insert genTxn.dest genTxn)

/-- The items come in the order of the ledger (`LeavesIterator.new_yields`). -/
def buildNodeState (merkleTree : MerkleTree) : IndyResult (AssocMap String NodeTransactionV1) :=
  merkleTree.root.iter.foldlM (addGenTxn crates protocolVersion) ∅

def nodeVerkeyOf (dest : String) : IndyResult Bytes :=
  match crates.base58.fromBase58 dest with
  | .ok nodeVerkey =>
    if nodeVerkey.length = 32 then .ok (crates.vkToCurve25519 nodeVerkey)
    else .err (errMsg .invalidStructure "Invalid field dest in genesis transaction")
  | .error _ => .err (errMsg .invalidStructure "Invalid field dest in genesis transaction")

def blsVerkeyOf (blskey : Option String) : IndyResult (Option VerKey) :=
  match blskey with
  | some blskey =>
    match crates.base58.fromBase58 blskey with
    | .ok key =>
      some <$> Outcome.ofOption
        (errMsg .invalidStructure "Invalid field blskey in genesis transaction")
        (crates.verKeyFromBytes key)
    | .error _ => .err (errMsg .invalidStructure "Invalid field blskey in genesis transaction")
  | none => .ok none

def addressOf (data : NodeData) : IndyResult String :=
  match data.clientIp, data.clientPort with
  | some clientIp, some clientPort => .ok ("tcp://" ++ clientIp ++ ":" ++ toString clientPort)
  | _, _ => .err (errMsg .invalidState "Client address not found")

/-- The entry of a node in the map of nodes, and its remote. -/
def nodeAndRemote (txn : NodeTransactionV1) :
    IndyResult ((String × Option VerKey) × RemoteNode) := do
  let nodeAlias := txn.nodeData.alias_
  let nodeVerkey ← nodeVerkeyOf crates txn.dest
  if "VALIDATOR" ∉ txn.nodeData.services.getD [] then
    .err (errMsg .invalidState "Node is not a validator")
  else do
    let address ← addressOf txn.nodeData
    let verkey ← blsVerkeyOf crates txn.nodeData.blskey
    .ok ((nodeAlias, verkey), ⟨nodeAlias, nodeVerkey, address, false⟩)

/-- A node that cannot be used is logged and left out. -/
def takeNode (taken : Nodes × List RemoteNode)
    (res : IndyResult ((String × Option VerKey) × RemoteNode)) : Nodes × List RemoteNode :=
  match res with
  | .ok ((nodeAlias, verkey), remote) => (taken.1.insert nodeAlias verkey, taken.2 ++ [remote])
  | _ => taken

def getNodesAndRemotes (order : IterationOrder) (merkle : MerkleTree) :
    IndyResult (Nodes × List RemoteNode) := do
  let nodes ← buildNodeState crates protocolVersion merkle
  .ok (((order.order nodes.values).map (nodeAndRemote crates)).foldl takeNode (∅, []))

end IndySdk.Pool
