import IndySdk.PoolCrates

/-!
# Metadata of ledger responses

A response is read a second time for its metadata, as an enum tagged by `op` whose replies come in
two layouts. A derived reader takes an object in which each of its fields stands once, or an array
of the fields; a field that stands twice is an error, where the value of the same text keeps the
last one.
-/

namespace IndySdk.Domain

/-- The value of a member that stands once. -/
def uniqueMember (key : String) (members : List (String × Json)) : Option Json :=
  match members.filter (fun m => m.1 = key) with
  | [m] => some m.2
  | _ => none

/-- The only field of a struct. -/
def onlyField (key : String) : Json → Option Json
  | .obj members => uniqueMember key members
  | .arr [value] => some value
  | _ => none

structure Response where
  reqId : ℕ
  reason : String
  deriving DecidableEq

structure ReplyV0 where
  result : Json

structure ReplyDataV1 where
  result : List ReplyV0

structure ReplyV1 where
  data : ReplyDataV1

inductive Reply where
  | replyV0 (reply : ReplyV0)
  | replyV1 (reply : ReplyV1)

inductive Message where
  | reqNACK (response : Response)
  | reply (reply : Reply)
  | reject (response : Response)

def Response.decode : Json → Option Response
  | .obj members => do
    let reqId ← (uniqueMember "reqId" members).bind Json.asU64
    let reason ← (uniqueMember "reason" members).bind Json.asStr
    some ⟨reqId, reason⟩
  | .arr [reqId, reason] => do
    let reqId ← reqId.asU64
    let reason ← reason.asStr
    some ⟨reqId, reason⟩
  | _ => none

def ReplyV0.decode (j : Json) : Option ReplyV0 :=
  (onlyField "result" j).map (fun result => ⟨result.toValue⟩)

def ReplyDataV1.decode (j : Json) : Option ReplyDataV1 := do
  let result ← onlyField "result" j
  let elements ← result.asArray
  let result ← elements.mapM ReplyV0.decode
  some ⟨result⟩

def ReplyV1.decode (j : Json) : Option ReplyV1 := do
  let data ← onlyField "data" j
  let data ← ReplyDataV1.decode data
  some ⟨data⟩

/-- The layouts are tried in turn. -/
def Reply.decode (j : Json) : Option Reply :=
  (ReplyV0.decode j).map .replyV0 <|> (ReplyV1.decode j).map .replyV1

/-- The tag of an enum and what is left without it. -/
def splitTag (key : String) : Json → Option (String × Json)
  | .obj members => do
    let tag ← (uniqueMember key members).bind Json.asStr
    some (tag, .obj (members.filter (fun m => m.1 ≠ key)))
  | .arr (tag :: rest) => tag.asStr.map (fun tag => (tag, .arr rest))
  | _ => none

def Message.decode (j : Json) : Option Message := do
  let (op, rest) ← splitTag "op" j
  if op = "REQNACK" then (Response.decode rest).map .reqNACK
  else if op = "REPLY" then (Reply.decode rest).map .reply
  else if op = "REJECT" then (Response.decode rest).map .reject
  else none

/-- The result of a reply; the second layout must carry one. -/
def Reply.result : Reply → IndyResult Json
  | .replyV0 reply => .ok reply.result
  | .replyV1 reply => (fun reply => reply.result) <$> Outcome.unwrap reply.data.result.head?

structure ResponseMetadata where
  seqNo : Option ℕ
  txnTime : Option ℕ
  lastTxnTime : Option ℕ
  lastSeqNo : Option ℕ
  deriving DecidableEq

end IndySdk.Domain

namespace IndySdk.Pool

def handleResponseMessageType : Domain.Message → IndyResult Domain.Reply
  | .reject response | .reqNACK response =>
    .err (errMsg .invalidTransaction "Transaction has been failed: _" [response.reason])
  | .reply reply => .ok reply

/-- The timestamp of the signed value that comes with the state proof of a result. -/
def signedTimestamp (result : Json) : Option ℕ :=
  ((((result.get "state_proof").get "multi_signature").get "value").get "timestamp").asU64

def parseTransactionMetadataV0 (message : Json) : Domain.ResponseMetadata where
  seqNo := (message.get "seqNo").asU64
  txnTime := (message.get "txnTime").asU64
  lastTxnTime := signedTimestamp message
  lastSeqNo := none

def parseTransactionMetadataV1 (message : Json) : Domain.ResponseMetadata where
  seqNo := ((message.get "txnMetadata").get "seqNo").asU64
  txnTime := ((message.get "txnMetadata").get "txnTime").asU64
  lastTxnTime := ((((message.get "multiSignature").get "signedState").get "stateMetadata").get
    "timestamp").asU64
  lastSeqNo := none

variable (crates : Crates)

def parseResponseMetadata (response : String) : IndyResult Domain.ResponseMetadata := do
  let message ← Outcome.ofOption
    (errMsg .invalidTransaction "Cannot deserialize transaction Response")
    ((crates.fromStr response).bind Domain.Message.decode)
  let responseObject ← handleResponseMessageType message
  let responseResult ← responseObject.result
  match (responseResult.get "ver").asStr with
  | none => pure (parseTransactionMetadataV0 responseResult)
  | some ver =>
    if ver = "1" then pure (parseTransactionMetadataV1 responseResult)
    else .err (errMsg .invalidTransaction "Unsupported transaction response version: _" [ver])

def getLastSignedTime (response : String) : MayPanic (Option ℕ) :=
  ((fun metadata => metadata.lastTxnTime) <$> parseResponseMetadata crates response).unwrapOr none

end IndySdk.Pool
