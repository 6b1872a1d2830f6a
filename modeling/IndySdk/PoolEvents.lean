import IndySdk.AssocMap
import IndySdk.Json
import IndySdk.MerkleTree

/-!
# Messages and events of a pool

The messages that nodes send, the events they become for the pool and for one request, what a
request asks of the networker and what is acknowledged to the command executor.
-/

namespace IndySdk.Pool

open Ledger (MerkleTree)

/-- A key of a signature scheme, kept as the bytes it was read from. -/
abbrev VerKey := Bytes

abbrev Generator := Bytes

/-- The nodes of a pool with their signature keys. -/
abbrev Nodes := AssocMap String (Option VerKey)

structure LedgerStatus where
  txnSeqNo : ℕ
  merkleRoot : String
  ledgerId : ℕ
  ppSeqNo : Option ℕ
  viewNo : Option ℕ
  protocolVersion : Option ℕ

structure ConsistencyProof where
  seqNoEnd : ℕ
  seqNoStart : ℕ
  ledgerId : ℕ
  hashes : List String
  oldMerkleRoot : String
  newMerkleRoot : String

structure CatchupReq where
  ledgerId : ℕ
  seqNoStart : ℕ
  seqNoEnd : ℕ
  catchupTill : ℕ

structure CatchupRep where
  ledgerId : ℕ
  consProof : List String
  txns : AssocMap String Json

structure ResponseMetadata where
  reqId : ℕ

inductive Reply where
  | replyV0 (result : ResponseMetadata)
  | replyV1 (metadata : ResponseMetadata)

def Reply.reqId : Reply → ℕ
  | .replyV0 result => result.reqId
  | .replyV1 metadata => metadata.reqId

inductive Response where
  | responseV0 (reqId : ℕ)
  | responseV1 (metadata : ResponseMetadata)

def Response.reqId : Response → ℕ
  | .responseV0 reqId => reqId
  | .responseV1 metadata => metadata.reqId

inductive Message where
  | consistencyProof (proof : ConsistencyProof)
  | ledgerStatus (status : LedgerStatus)
  | catchupReq (req : CatchupReq)
  | catchupRep (rep : CatchupRep)
  | reqACK (rep : Response)
  | reqNACK (rep : Response)
  | reply (rep : Reply)
  | reject (rep : Response)
  | poolLedgerTxns
  | ping
  | pong

structure RemoteNode where
  name : String
  publicKey : Bytes
  zaddr : String
  isBlacklisted : Bool
  deriving DecidableEq

inductive NetworkerEvent where
  | sendOneRequest (msg reqId : String) (timeout : ℤ)
  | sendAllRequest (msg reqId : String) (timeout : ℤ) (nodes : Option (List String))
  | resend (reqId : String) (timeout : ℤ)
  | nodesStateUpdated (nodes : List RemoteNode)
  | extendTimeout (reqId nodeAlias : String) (timeout : ℤ)
  | cleanTimeout (reqId : String) (nodeAlias : Option String)
  | timeout
  deriving DecidableEq

inductive PoolEvent where
  | checkCache (cmdId : ℤ)
  | nodeReply (reply nodeAlias : String)
  | close (cmdId : ℤ)
  | refresh (cmdId : ℤ)
  | catchupTargetFound (targetMtRoot : Bytes) (targetMtSize : ℕ) (merkle : MerkleTree)
  | catchupRestart (merkle : MerkleTree)
  | catchupTargetNotFound (err : IndyError)
  | poolOutdated
  | synced (merkle : MerkleTree)
  | nodesBlacklisted
  | sendRequest (cmdId : ℤ) (request : String) (timeout : Option ℤ) (nodes : Option String)
  | timeout (reqId nodeAlias : String)
  deriving DecidableEq

inductive RequestEvent where
  | ledgerStatus (status : LedgerStatus) (nodeAlias : Option String) (merkle : Option MerkleTree)
  | catchupReq (merkle : MerkleTree) (targetMtSize : ℕ) (targetMtRoot : Bytes)
  | timeout (reqId nodeAlias : String)
  | catchupRep (rep : CatchupRep) (nodeAlias : String)
  | customSingleRequest (msg reqId : String)
  | customConsensusRequest (msg reqId : String)
  | customFullRequest (msg reqId : String) (timeout : Option ℤ) (nodes : Option String)
  | consistencyProof (proof : ConsistencyProof) (nodeAlias : String)
  | reply (rep : Reply) (rawMsg nodeAlias reqId : String)
  | reqACK (rep : Response) (rawMsg nodeAlias reqId : String)
  | reqNACK (rep : Response) (rawMsg nodeAlias reqId : String)
  | reject (rep : Response) (rawMsg nodeAlias reqId : String)
  | poolLedgerTxns
  | ping
  | pong
  | terminate

def RequestEvent.getReqId : RequestEvent → String
  | .customSingleRequest _ id => id
  | .customConsensusRequest _ id => id
  | .customFullRequest _ id _ _ => id
  | .reply _ _ _ id => id
  | .reqACK _ _ _ id => id
  | .reqNACK _ _ _ id => id
  | .reject _ _ _ id => id
  | _ => ""

/-- What the pool thread sends to the command executor. -/
inductive Command where
  | submitAck (cmdId : ℤ) (result : Except IndyError String)
  | openAck (cmdId poolId : ℤ) (result : Except IndyError Unit)
  | refreshAck (cmdId : ℤ) (result : Except IndyError Unit)
  | closeAck (cmdId : ℤ) (result : Except IndyError Unit)
  deriving DecidableEq

namespace Constants

def getAttr : String := "104"

def getNym : String := "105"

def getSchema : String := "107"

def getCredDef : String := "108"

def getRevocRegDef : String := "115"

def getRevocReg : String := "116"

def getRevocRegDelta : String := "117"

def poolRestart : String := "118"

def getValidatorInfo : String := "119"

def getAuthRule : String := "121"

end Constants

open Constants

def requestsForStateProofs : List String :=
  [getNym, getSchema, getCredDef, getAttr, getRevocReg, getRevocRegDef, getRevocRegDelta,
    getAuthRule]

def requestForFull : List String := [poolRestart, getValidatorInfo]

end IndySdk.Pool
