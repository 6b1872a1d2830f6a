import IndySdk.AssocMap
import IndySdk.Lockstep
import IndySdk.Outcome

/-!
# Requesting and sending a credential

The holder of a credential offer pays for it and sends a request; the issuer that has received the
request issues a credential and sends it. Both calls change the object step by step and return at
the first step that fails. What ledger, wallet and agency answer during one call is a world; a
message that is sent may be delivered although the call fails.
-/

namespace IndySdk.Vcx

open Outcome

/-- `other` stands for the kinds that only callees report. -/
inductive VcxErrorKind where
  | notReady | invalidDid | invalidCredential | invalidCredentialHandle | invalidCredentialRequest
  | createCredentialRequest | noPaymentInformation | invalidPaymentAddress
  | insufficientTokenAmount | invalidRevocationDetails | invalidRevocationEntry | createCredDef
  | credDefAlreadyCreated | other (code : ℕ)
  deriving DecidableEq

structure VcxError where
  kind : VcxErrorKind
  msg : String := ""
  args : List String := []
  deriving DecidableEq

abbrev VcxResult (α : Type) := Outcome VcxError α

inductive VcxStateType where
  | none | initialized | offerSent | requestReceived | accepted | unfulfilled | expired | revoked
  deriving DecidableEq

def VcxStateType.code : VcxStateType → ℕ
  | .none => 0
  | .initialized => 1
  | .offerSent => 2
  | .requestReceived => 3
  | .accepted => 4
  | .unfulfilled => 5
  | .expired => 6
  | .revoked => 7

structure Thread where
  thid : Option String := none
  pthid : Option String := none
  senderOrder : ℕ := 0
  receivedOrders : AssocMap String ℕ := ∅

structure Output where
  recipient : String
  amount : ℕ
  extra : Option String
  deriving DecidableEq

structure PaymentTxn where
  amount : ℕ
  credit : Bool
  inputs : List String
  outputs : List Output
  deriving DecidableEq

structure PaymentInfo where
  paymentRequired : String
  paymentAddr : String
  price : ℕ
  deriving DecidableEq

structure CredentialOffer where
  libindyOffer : String
  credDefId : String
  msgRefId : Option String
  deriving DecidableEq

structure CredentialRequest where
  libindyCredReq : String
  libindyCredReqMeta : String
  credDefId : String
  tid : String := ""
  toDid : String
  fromDid : String
  version : String := "0.1"
  mid : String := ""
  msgRefId : Option String := none
  deriving DecidableEq

/-- A message that does not arrive, one that arrives although its sender is told otherwise, and one
that the agency confirms with a uid. -/
inductive Sending where
  | lost (error : VcxError)
  | unacknowledged (error : VcxError)
  | acknowledged (uid : String)

def Sending.delivered : Sending → Bool
  | .lost _ => false
  | .unacknowledged _ | .acknowledged _ => true

def Sending.result : Sending → VcxResult String
  | .lost e | .unacknowledged e => .err e
  | .acknowledged uid => .ok uid

/-- A payment that is not made, one that is made although the call fails, one that is confirmed, and
one that the ledger rejects in a reply that is not looked at. -/
inductive Payment where
  | refused (error : VcxError)
  | unacknowledged (error : VcxError)
  | confirmed (txn : PaymentTxn)
  | rejected (txn : PaymentTxn)

def Payment.paid : Payment → Bool
  | .unacknowledged _ | .confirmed _ => true
  | .refused _ | .rejected _ => false

def Payment.result : Payment → VcxResult PaymentTxn
  | .refused e | .unacknowledged e => .err e
  | .confirmed txn | .rejected txn => .ok txn

/-! ### The holder -/

inductive ConnectionField where
  | pwDid | pwVerkey | agentDid | agentVerkey | theirPwDid | theirPwVerkey
  deriving DecidableEq

structure Credential where
  sourceId : String
  state : VcxStateType
  credentialRequest : Option CredentialRequest := none
  credentialOffer : Option CredentialOffer := none
  msgUid : Option String := none
  connection : ConnectionField → Option String := fun _ => none
  paymentInfo : Option PaymentInfo := none
  paymentTxn : Option PaymentTxn := none
  thread : Option Thread := some {}

structure HolderWorld where
  connection : ConnectionField → VcxResult String
  getCredDefJson : String → VcxResult (String × String)
  createCredentialReq : String → String → String → VcxResult (String × String)
  serializeRequest : CredentialRequest → VcxResult String
  payAPayee : ℕ → String → Payment
  encrypt : String → String → String → Option Thread → VcxResult String
  sendSecure : String → String → Sending

def notReady (what sourceId : String) (state : VcxStateType) : VcxError :=
  ⟨.notReady, "credential _ has invalid state _ for sending " ++ what,
    [sourceId, toString state.code]⟩

namespace Credential

variable (world : HolderWorld) (c : Credential)

/-- Take the fields of the connection over, one after the other. -/
def takeConnection : List ConnectionField → Credential → VcxResult Unit × Credential
  | [], c => (.ok (), c)
  | field :: fields, c =>
    match world.connection field with
    | .ok value =>
      takeConnection fields { c with connection := Function.update c.connection field (some value) }
    | .err e => (.err e, c)
    | .panic => (.panic, c)

def buildRequest (myDid theirDid : String) : VcxResult CredentialRequest := do
  if c.state ≠ .requestReceived then .err (notReady "credential request" c.sourceId c.state)
  else
    let proverDid ← ofOption ⟨.invalidDid, "", []⟩ (c.connection .pwDid)
    let credentialOffer ← ofOption ⟨.invalidCredential, "", []⟩ c.credentialOffer
    let (credDefId, credDefJson) ← world.getCredDefJson credentialOffer.credDefId
    let (req, reqMeta) ←
      world.createCredentialReq proverDid credentialOffer.libindyOffer credDefJson
    pure {
      libindyCredReq := req, libindyCredReqMeta := reqMeta, credDefId, toDid := theirDid
      fromDid := myDid }

/-- What a request is sent with. -/
structure Prepared where
  myVk : String
  theirVk : String
  credReqJson : String
  offerMsgId : String

def localField (field : ConnectionField) : VcxResult String :=
  ofOption ⟨.invalidCredentialHandle, "", []⟩ (c.connection field)

def buildJson : VcxResult (CredentialRequest × String × String × String) := do
  let theirDid ← c.localField .theirPwDid
  let theirVk ← c.localField .theirPwVerkey
  let _ ← c.localField .agentDid
  let _ ← c.localField .agentVerkey
  let myDid ← c.localField .pwDid
  let myVk ← c.localField .pwVerkey
  let credReq ← c.buildRequest world myDid theirDid
  let json ← world.serializeRequest credReq
  pure (credReq, json, myVk, theirVk)

/-- The steps before the payment. -/
def prepare : VcxResult Prepared × Credential :=
  match takeConnection world
      [.pwDid, .pwVerkey, .agentDid, .agentVerkey, .theirPwDid, .theirPwVerkey] c with
  | (.err e, c) => (.err e, c)
  | (.panic, c) => (.panic, c)
  | (.ok (), c) =>
    match c.buildJson world with
    | .err e => (.err e, c)
    | .panic => (.panic, c)
    | .ok (credReq, credReqJson, myVk, theirVk) =>
      let c := { c with credentialRequest := some credReq }
      match c.credentialOffer.bind CredentialOffer.msgRefId with
      | none => (.err ⟨.createCredentialRequest, "", []⟩, c)
      | some offerMsgId => (.ok ⟨myVk, theirVk, credReqJson, offerMsgId⟩, c)

def submitPayment : Payment :=
  match c.paymentInfo with
  | some paymentInfo => world.payAPayee paymentInfo.price paymentInfo.paymentAddr
  | none => .refused ⟨.noPaymentInformation, "", []⟩

/-- Sending encrypts the request with the thread as it is. -/
def send (prepared : Prepared) : Sending :=
  match world.encrypt prepared.myVk prepared.theirVk prepared.credReqJson c.thread with
  | .ok payload => world.sendSecure payload prepared.offerMsgId
  | .err e => .lost e
  | .panic => .lost ⟨.other 0, "", []⟩

end Credential

/-- What one call did outside the object. -/
structure HolderEffects where
  paid : Bool := false
  delivered : Bool := false

namespace Credential

variable (world : HolderWorld) (c : Credential)

def finishRequest (prepared : Prepared) (paid : Bool) :
    VcxResult Unit × Credential × HolderEffects :=
  let sending := c.send world prepared
  match sending.result with
  | .ok uid =>
    (.ok (), { c with msgUid := some uid, state := .offerSent }, ⟨paid, sending.delivered⟩)
  | .err e => (.err e, c, ⟨paid, sending.delivered⟩)
  | .panic => (.panic, c, ⟨paid, sending.delivered⟩)

def sendRequest : VcxResult Unit × Credential × HolderEffects :=
  match c.prepare world with
  | (.err e, c) => (.err e, c, {})
  | (.panic, c) => (.panic, c, {})
  | (.ok prepared, c) =>
    if c.paymentInfo.isSome then
      let payment := c.submitPayment world
      match payment.result with
      | .err e => (.err e, c, ⟨payment.paid, false⟩)
      | .panic => (.panic, c, ⟨payment.paid, false⟩)
      | .ok txn => { c with paymentTxn := some txn }.finishRequest world prepared payment.paid
    else c.finishRequest world prepared false

end Credential

/-! ### The issuer -/

structure CredentialMessage where
  libindyCred : String
  revRegDefJson : String
  credDefId : String
  msgType : String
  claimOfferId : String
  credRevocId : Option String
  revocRegDeltaJson : Option String
  version : String := "0.1"
  fromDid : String
  deriving DecidableEq

structure IssuerCredential where
  sourceId : String
  credentialAttributes : String
  msgUid : String := ""
  state : VcxStateType
  credentialRequest : Option CredentialRequest := none
  credentialOffer : Option CredentialOffer := none
  credDefId : String
  revRegId : Option String := none
  tailsFile : Option String := none
  revRegDefJson : Option String := none
  credRevId : Option String := none
  revCredPaymentTxn : Option PaymentTxn := none
  price : ℕ := 0
  paymentAddress : Option String := none
  issuedVk : String := ""
  remoteVk : String := ""
  thread : Option Thread := some {}

/-- A credential with its identifier in the registry and the delta of the registry. -/
abbrev Issued := String × Option String × Option String

structure IssuerWorld where
  connectionHandle : ℕ
  isValidHandle : Bool
  credKindName : String
  getAddressBalance : String → VcxResult ℕ
  getPwDid : VcxResult String
  encodeAttributes : String → VcxResult String
  createCredential : String → String → String → Option String → Option String → VcxResult Issued
  serializeCredential : CredentialMessage → VcxResult String
  encrypt : String → String → String → Option Thread → VcxResult String
  sendSecure : String → String → Sending

structure IssuerEffects where
  issued : Option Issued := none
  delivered : Option CredentialMessage := none

namespace IssuerCredential

variable (world : IssuerWorld) (c : IssuerCredential)

def verifyPayment : VcxResult Unit :=
  if 0 < c.price then do
    let invoiceAddress ← ofOption ⟨.invalidPaymentAddress, "", []⟩ c.paymentAddress
    let balance ← world.getAddressBalance invoiceAddress
    if balance < c.price then .err ⟨.insufficientTokenAmount, "", []⟩ else .ok ()
  else .ok ()

/-- The steps before the credential is generated. -/
def checkSend : VcxResult (String × String) :=
  if c.state ≠ .requestReceived then .err (notReady "credential" c.sourceId c.state)
  else if ¬ world.isValidHandle then
    .err ⟨.invalidCredentialHandle, "invalid connection handle (_) in send_credential_offer",
      [toString world.connectionHandle]⟩
  else do
    c.verifyPayment world
    let did ← world.getPwDid
    let attrs ← world.encodeAttributes c.credentialAttributes
    pure (did, attrs)

def issue (credentialData : String) : VcxResult Issued := do
  let offer ← ofOption
    ⟨.invalidCredential, "Invalid Credential: `credential_offer` field not found", []⟩
    c.credentialOffer
  let request ← ofOption
    ⟨.invalidCredentialRequest, "Invalid Credential: `credential_request` field not found", []⟩
    c.credentialRequest
  world.createCredential offer.libindyOffer request.libindyCredReq credentialData c.revRegId
    c.tailsFile

def credentialMessage (did : String) (issued : Issued) : CredentialMessage where
  msgType := world.credKindName
  libindyCred := issued.1
  revRegDefJson := c.revRegDefJson.getD ""
  credDefId := c.credDefId
  claimOfferId := c.msgUid
  credRevocId := issued.2.1
  revocRegDeltaJson := issued.2.2
  fromDid := did

/-- The message to send, for a credential that is issued, and the one it answers. -/
def prepareMessage (did : String) (issued : Issued) :
    VcxResult (CredentialMessage × String × String) := do
  let message := c.credentialMessage world did issued
  let data ← world.serializeCredential message
  let credReqMsgId ← ofOption ⟨.invalidCredentialRequest, "", []⟩
    (c.credentialRequest.bind CredentialRequest.msgRefId)
  pure (message, data, credReqMsgId)

def countMessage : IssuerCredential :=
  { c with thread := c.thread.map (fun t => { t with senderOrder := t.senderOrder + 1 }) }

def send (data credReqMsgId : String) : Sending :=
  match world.encrypt c.issuedVk c.remoteVk data c.thread with
  | .ok payload => world.sendSecure payload credReqMsgId
  | .err e => .lost e
  | .panic => .lost ⟨.other 0, "", []⟩

/-- The message counts before it is sent. -/
def finishSend (issued : Issued) (message : CredentialMessage) (data credReqMsgId : String) :
    VcxResult Unit × IssuerCredential × IssuerEffects :=
  let c := c.countMessage
  let sending := c.send world data credReqMsgId
  let effects : IssuerEffects := ⟨some issued, if sending.delivered then some message else none⟩
  match sending.result with
  | .ok uid => (.ok (), { c with msgUid := uid, state := .accepted }, effects)
  | .err e => (.err e, c, effects)
  | .panic => (.panic, c, effects)

def sendCredential : VcxResult Unit × IssuerCredential × IssuerEffects :=
  match c.checkSend world with
  | .err e => (.err e, c, {})
  | .panic => (.panic, c, {})
  | .ok (did, attrs) =>
    match c.issue world attrs with
    | .err e => (.err e, c, {})
    | .panic => (.panic, c, {})
    | .ok issued =>
      let c := { c with credRevId := issued.2.1 }
      match c.prepareMessage world did issued with
      | .err e => (.err e, c, ⟨some issued, none⟩)
      | .panic => (.panic, c, ⟨some issued, none⟩)
      | .ok (message, data, credReqMsgId) => c.finishSend world issued message data credReqMsgId

end IssuerCredential

end IndySdk.Vcx
