import IndySdk.CryptoService
import IndySdk.ResponseMetadata

/-!
# Ledger replies about a DID

Replies to GET_NYM and GET_ATTRIB come in two versions, which a derived reader tries in turn. Every
field of a version 0 GET_NYM result is optional, so that reader also takes a version 1 result, as
one without data.
-/

open Outcome

namespace IndySdk.Domain

inductive TypedReply (α : Type) where
  | replyV0 (result : α)
  | replyV1 (results : List α)

/-- The results listed in the second layout of a reply. -/
def listedResults (j : Json) : Option (List Json) := do
  let data ← onlyField "data" j
  let result ← onlyField "result" data
  result.asArray

def TypedReply.decode {α : Type} (decodeResult : Json → Option α) (j : Json) :
    Option (TypedReply α) :=
  match (onlyField "result" j).bind decodeResult with
  | some result => some (.replyV0 result)
  | none =>
    (listedResults j).bind fun elements =>
      (elements.mapM (fun element => (onlyField "result" element).bind decodeResult)).map .replyV1

/-- The result of a reply; the first of several, where an empty list aborts the thread. -/
def TypedReply.result {α : Type} : TypedReply α → IndyResult α
  | .replyV0 result => .ok result
  | .replyV1 results => unwrap results.head?

def optionalStr : Json → Option (Option String)
  | .null => some none
  | .str s => some (some s)
  | _ => none

/-- A field that may be missing, but not stand twice. -/
def optionalMember (key : String) (members : List (String × Json)) : Option (Option String) :=
  match members.filter (fun m => m.1 = key) with
  | [] => some none
  | [m] => optionalStr m.2
  | _ => none

def strMember (key : String) (members : List (String × Json)) : Option String :=
  (uniqueMember key members).bind Json.asStr

structure GetReplyResultV0 where
  data : Option String
  deriving DecidableEq

def GetReplyResultV0.decode : Json → Option GetReplyResultV0
  | .obj members => (optionalMember "data" members).map (fun data => ⟨data⟩)
  | .arr [data] => (optionalStr data).map (fun data => ⟨data⟩)
  | _ => none

structure TxnMetadata where
  seqNo : ℕ
  creationTime : ℕ
  deriving DecidableEq

def TxnMetadata.ofFields (seqNo creationTime : Json) : Option TxnMetadata := do
  let seqNo ← seqNo.asU64
  let creationTime ← creationTime.asU64
  if seqNo < 2 ^ 32 then some ⟨seqNo, creationTime⟩ else none

def TxnMetadata.decode : Json → Option TxnMetadata
  | .obj members => do
    let seqNo ← uniqueMember "seqNo" members
    let creationTime ← uniqueMember "creationTime" members
    ofFields seqNo creationTime
  | .arr [seqNo, creationTime] => ofFields seqNo creationTime
  | _ => none

structure GetReplyResultV1 (α : Type) where
  txnData : α
  txnMetadata : TxnMetadata

def GetReplyResultV1.ofFields {α : Type} (decodeData : Json → Option α) (txn txnMetadata : Json) :
    Option (GetReplyResultV1 α) := do
  let data ← (onlyField "data" txn).bind decodeData
  let txnMetadata ← TxnMetadata.decode txnMetadata
  some ⟨data, txnMetadata⟩

def GetReplyResultV1.decode {α : Type} (decodeData : Json → Option α) :
    Json → Option (GetReplyResultV1 α)
  | .obj members => do
    let txn ← uniqueMember "txn" members
    let txnMetadata ← uniqueMember "txnMetadata" members
    ofFields decodeData txn txnMetadata
  | .arr [txn, txnMetadata] => ofFields decodeData txn txnMetadata
  | _ => none

structure GetNymResultDataV0 where
  identifier : Option String
  dest : String
  role : Option String
  verkey : Option String
  deriving DecidableEq

def GetNymResultDataV0.decode : Json → Option GetNymResultDataV0
  | .obj members => do
    let identifier ← optionalMember "identifier" members
    let dest ← strMember "dest" members
    let role ← optionalMember "role" members
    let verkey ← optionalMember "verkey" members
    some ⟨identifier, dest, role, verkey⟩
  | .arr [identifier, dest, role, verkey] => do
    let identifier ← optionalStr identifier
    let dest ← dest.asStr
    let role ← optionalStr role
    let verkey ← optionalStr verkey
    some ⟨identifier, dest, role, verkey⟩
  | _ => none

structure GetNymResultDataV1 where
  ver : String
  id : String
  did : String
  verkey : Option String
  role : Option String
  deriving DecidableEq

def GetNymResultDataV1.decode : Json → Option GetNymResultDataV1
  | .obj members => do
    let ver ← strMember "ver" members
    let id ← strMember "id" members
    let did ← strMember "did" members
    let verkey ← optionalMember "verkey" members
    let role ← optionalMember "role" members
    some ⟨ver, id, did, verkey, role⟩
  | .arr [ver, id, did, verkey, role] => do
    let ver ← ver.asStr
    let id ← id.asStr
    let did ← did.asStr
    let verkey ← optionalStr verkey
    let role ← optionalStr role
    some ⟨ver, id, did, verkey, role⟩
  | _ => none

inductive GetNymReplyResult where
  | getNymReplyResultV0 (result : GetReplyResultV0)
  | getNymReplyResultV1 (result : GetReplyResultV1 GetNymResultDataV1)

def GetNymReplyResult.decode (j : Json) : Option GetNymReplyResult :=
  (GetReplyResultV0.decode j).map .getNymReplyResultV0 <|>
    (GetReplyResultV1.decode GetNymResultDataV1.decode j).map .getNymReplyResultV1

/-- A result as the ledger means it: without data it is of version 1 if it can be. -/
def GetNymReplyResult.meant (j : Json) : Option GetNymReplyResult :=
  match GetReplyResultV0.decode j with
  | some ⟨none⟩ =>
    (GetReplyResultV1.decode GetNymResultDataV1.decode j).map .getNymReplyResultV1 <|>
      some (.getNymReplyResultV0 ⟨none⟩)
  | _ => GetNymReplyResult.decode j

structure GetAttResultV0 where
  identifier : String
  data : String
  dest : String
  raw : String
  deriving DecidableEq

def GetAttResultV0.decode : Json → Option GetAttResultV0
  | .obj members => do
    let identifier ← strMember "identifier" members
    let data ← strMember "data" members
    let dest ← strMember "dest" members
    let raw ← strMember "raw" members
    some ⟨identifier, data, dest, raw⟩
  | .arr [identifier, data, dest, raw] => do
    let identifier ← identifier.asStr
    let data ← data.asStr
    let dest ← dest.asStr
    let raw ← raw.asStr
    some ⟨identifier, data, dest, raw⟩
  | _ => none

structure GetAttResultDataV1 where
  ver : String
  id : String
  did : String
  raw : String
  deriving DecidableEq

def GetAttResultDataV1.decode : Json → Option GetAttResultDataV1
  | .obj members => do
    let ver ← strMember "ver" members
    let id ← strMember "id" members
    let did ← strMember "did" members
    let raw ← strMember "raw" members
    some ⟨ver, id, did, raw⟩
  | .arr [ver, id, did, raw] => do
    let ver ← ver.asStr
    let id ← id.asStr
    let did ← did.asStr
    let raw ← raw.asStr
    some ⟨ver, id, did, raw⟩
  | _ => none

inductive GetAttrReplyResult where
  | getAttrReplyResultV0 (result : GetAttResultV0)
  | getAttrReplyResultV1 (result : GetReplyResultV1 GetAttResultDataV1)

def GetAttrReplyResult.decode (j : Json) : Option GetAttrReplyResult :=
  (GetAttResultV0.decode j).map .getAttrReplyResultV0 <|>
    (GetReplyResultV1.decode GetAttResultDataV1.decode j).map .getAttrReplyResultV1

structure Endpoint where
  ha : String
  verkey : Option String
  deriving DecidableEq

def Endpoint.decode : Json → Option Endpoint
  | .obj members => do
    let ha ← strMember "ha" members
    let verkey ← optionalMember "verkey" members
    some ⟨ha, verkey⟩
  | .arr [ha, verkey] => do
    let ha ← ha.asStr
    let verkey ← optionalStr verkey
    some ⟨ha, verkey⟩
  | _ => none

structure AttribData where
  endpoint : Endpoint
  deriving DecidableEq

def AttribData.decode (j : Json) : Option AttribData :=
  ((onlyField "endpoint" j).bind Endpoint.decode).map (fun endpoint => ⟨endpoint⟩)

end IndySdk.Domain

namespace IndySdk.DidResolution

open Domain

/-- The libraries that the DID commands call. -/
structure DidCrates where
  base58 : Crypto.Base58
  /-- A text as a tree whose members stand in the order of the text, repeated names included. -/
  fromStr : String → Option Json

variable (crates : DidCrates)

def notOnLedger : IndyError := errMsg .walletItemNotFound "Their DID isn't found on the ledger"

def theirDidInfo : GetNymReplyResult → IndyResult Crypto.TheirDidInfo
  | .getNymReplyResultV0 res =>
    match res.data with
    | some data => do
      let data ← ofOption (errMsg .invalidState "Invalid GetNymResultData json")
        ((crates.fromStr data).bind GetNymResultDataV0.decode)
      .ok ⟨data.dest, data.verkey⟩
    | none => .err notOnLedger
  | .getNymReplyResultV1 res => .ok ⟨res.txnData.did, res.txnData.verkey⟩

/-- The DID and key of a reply, for a reader of its results. -/
def readNymReply (decodeResult : Json → Option GetNymReplyResult) (getNymReply : String) :
    IndyResult Crypto.TheirDidInfo := do
  let getNymResponse ← ofOption (errMsg .invalidState "Invalid GetNymReplyResult json")
    ((crates.fromStr getNymReply).bind (TypedReply.decode decodeResult))
  let result ← getNymResponse.result
  theirDidInfo crates result

def parseNymReply (getNymReply : String) : IndyResult Crypto.TheirDidInfo :=
  readNymReply crates GetNymReplyResult.decode getNymReply

/-- What the ledger says in a reply, whichever version the reply has. -/
def meantNymReply (getNymReply : String) : IndyResult Crypto.TheirDidInfo :=
  readNymReply crates GetNymReplyResult.meant getNymReply

/-- The record that a reply to GET_NYM stands for. -/
def theirDidOfReply (getNymReply : String) : IndyResult Crypto.TheirDid := do
  let info ← parseNymReply crates getNymReply
  Crypto.createTheirDid crates.base58 info

/-- The DID of a reply to GET_ATTRIB, with the text of the attribute. -/
def readAttribReply (getAttribReply : String) : IndyResult (String × String) := do
  let getAttribReply ← ofOption (errMsg .invalidState "Invalid GetAttrReplyResult json")
    ((crates.fromStr getAttribReply).bind (TypedReply.decode GetAttrReplyResult.decode))
  let result ← getAttribReply.result
  match result with
  | .getAttrReplyResultV0 res => .ok (res.dest, res.data)
  | .getAttrReplyResultV1 res => .ok (res.txnData.did, res.txnData.raw)

def endpointOfReply (getAttribReply : String) : IndyResult (String × Endpoint) := do
  let (did, raw) ← readAttribReply crates getAttribReply
  let attribData ← ofOption (errMsg .invalidState "Invalid GetAttReply json")
    ((crates.fromStr raw).bind AttribData.decode)
  .ok (did, attribData.endpoint)

end IndySdk.DidResolution
