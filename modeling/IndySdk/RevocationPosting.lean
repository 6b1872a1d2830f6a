import IndySdk.ChangeLog
import IndySdk.CredentialExchange
import IndySdk.RevocationRegistry

/-!
# Posting revocations

Revoking takes two steps: the wallet's registry changes first, and the delta is then posted in a
ledger transaction that may cost a fee. Creating a credential definition with revocation likewise
stores the registry before it posts the initial entry. What the calls have posted is the ledger.
-/

namespace IndySdk.Vcx

open Anoncreds (RevRegRecords CryptoIssuer)

/-- Kinds without a name of their own are given by their codes. -/
def mapRustIndySdkError (error : IndyError) : VcxError where
  kind :=
    match error.kind with
    | .invalidParam _ => .other 1067
    | .invalidStructure => .other 1080
    | .ioError => .other 1074
    | .invalidWalletHandle => .other 1057
    | .walletAlreadyExists => .other 1051
    | .walletNotFound => .other 1079
    | .walletAlreadyOpened => .other 1052
    | .walletItemNotFound => .other 1073
    | .walletItemAlreadyExists => .other 1072
    | .poolConfigAlreadyExists => .other 1026
    | .masterSecretDuplicateName => .other 1084
    | .credDefAlreadyExists => .credDefAlreadyCreated
    | .didAlreadyExists => .other 1083
    | .paymentInsufficientFunds => .insufficientTokenAmount
    | _ => .other 1035
  msg := error.msg
  args := error.args

def mapIndyResult {α : Type} : IndyResult α → VcxResult α
  | .ok a => .ok a
  | .err e => .err (mapRustIndySdkError e)
  | .panic => .panic

/-! ### Transactions -/

/-- A request that does not arrive, one that is written although its sender is told otherwise, one
that is answered with a reply, and one that is answered with a rejection. -/
inductive Submission where
  | lost (error : VcxError)
  | unacknowledged (error : VcxError)
  | reply (response : String)
  | rejected (response : String)

def Submission.written : Submission → Bool
  | .unacknowledged _ | .reply _ => true
  | .lost _ | .rejected _ => false

def Submission.result : Submission → VcxResult String
  | .lost e | .unacknowledged e => .err e
  | .reply response | .rejected response => .ok response

/-- What one transaction meets on its way to the ledger. -/
structure LedgerWorld where
  buildRequest : VcxResult String
  getTxnPrice : VcxResult ℕ
  institutionDid : VcxResult String
  inputs : ℕ → VcxResult (ℕ × List String × String)
  outputs : ℕ → String → VcxResult (List Output)
  serializeInputsAndOutputs : List String → List Output → VcxResult (String × String)
  signRequest : String → String → VcxResult String
  addRequestFees : String → String → String → String → VcxResult (String × String)
  submit : String → Submission
  parseResponseWithFees : String → String → VcxResult String

namespace LedgerWorld

variable (world : LedgerWorld) (req : String)

/-- A transaction that is ready to be submitted: its text, and the payment and the payment method
when it costs a fee. -/
structure Ready where
  request : String
  payment : Option PaymentTxn
  paymentMethod : Option String

def prepareTxn : VcxResult Ready := do
  let txnPrice ← world.getTxnPrice
  if txnPrice = 0 then do
    let did ← world.institutionDid
    let req ← world.signRequest did req
    pure ⟨req, none, none⟩
  else do
    let (refund, inputs, refundAddress) ← world.inputs txnPrice
    let outputs ← world.outputs refund refundAddress
    let did ← world.institutionDid
    let (inputsJson, outputsJson) ← world.serializeInputsAndOutputs inputs outputs
    let req ← world.signRequest did req
    let (req, paymentMethod) ← world.addRequestFees did req inputsJson outputsJson
    pure ⟨req, some ⟨txnPrice, false, inputs, outputs⟩, some paymentMethod⟩

/-- Only the response to a transaction with a fee is looked into. -/
def acceptResponse (ready : Ready) (response : String) : VcxResult (Option PaymentTxn × String) :=
  match ready.paymentMethod with
  | none => .ok (ready.payment, response)
  | some paymentMethod => do
    let _ ← world.parseResponseWithFees paymentMethod response
    pure (ready.payment, response)

/-- Pay for a transaction and submit it; the second answer says whether the ledger has written
it. -/
def payForTxn : VcxResult (Option PaymentTxn × String) × Bool :=
  match world.prepareTxn req with
  | .err e => (.err e, false)
  | .panic => (.panic, false)
  | .ok ready =>
    let submission := world.submit ready.request
    match submission.result with
    | .err e => (.err e, submission.written)
    | .panic => (.panic, submission.written)
    | .ok response => (world.acceptResponse ready response, submission.written)

def buildAndPay : VcxResult (Option PaymentTxn × String) × Bool :=
  match world.buildRequest with
  | .err e => (.err e, false)
  | .panic => (.panic, false)
  | .ok req => world.payForTxn req

end LedgerWorld

/-! ### Registries -/

/-- An entry for a registry: the accumulator it replaces, the new one, and the identifiers it
revokes. -/
abbrev RegistryEntry (G : Type) := Change G (Finset ℕ)

structure CredentialDef where
  sourceId : String
  id : String
  issuerDid : Option String
  tag : String
  name : String
  credDefPaymentTxn : Option PaymentTxn := none
  revRegDefPaymentTxn : Option PaymentTxn := none
  revRegDeltaPaymentTxn : Option PaymentTxn := none
  revRegId : Option String := none
  revRegDef : Option String := none
  tailsFile : Option String := none
  deriving DecidableEq

/-- The records of a registry in the wallet: all of them, or only the first ones. -/
inductive WalletRegistry (G : Type) where
  | incomplete
  | complete (records : RevRegRecords G)
  deriving DecidableEq

/-- The wallet, the ledger and the objects. A handle is a position in the list of its objects. -/
structure Revocations (G : Type) where
  walletCredDefs : Finset String := ∅
  wallet : String → Option (WalletRegistry G) := fun _ => none
  ledger : String → List (RegistryEntry G) := fun _ => []
  credentialDefs : List CredentialDef := []
  credentials : List IssuerCredential := []

namespace Revocations

variable {G : Type} [DecidableEq G] (crypto : CryptoIssuer G) (s : Revocations G)

/-- What the entries of a registry on the ledger amount to: its accumulator and the revoked
identifiers. -/
def accumulated (revRegId : String) : Option (G × Finset ℕ) :=
  Change.accumulate (· ∪ ·) (s.ledger revRegId)

def post (revRegId : String) (entry : RegistryEntry G) (written : Bool) : Revocations G :=
  if written then
    { s with ledger := Function.update s.ledger revRegId (s.ledger revRegId ++ [entry]) }
  else s

/-- The objects that are added to the wallet for a registry, in this order. -/
inductive RegistryObject where
  | definition | registry | definitionPrivate | info
  deriving DecidableEq

structure RevocationDetails where
  supportRevocation : Option Bool
  tailsFile : Option String
  maxCreds : Option ℕ

structure CredDefWorld where
  deserializeDetails : Option RevocationDetails
  getSchemaJson : VcxResult String
  /-- The identifier that the issuer, the schema and the tag make up. -/
  credDefId : String
  newCredDef : IndyResult Unit
  addCredDef : IndyResult Unit
  addCredDefKeys : IndyResult Unit
  credDefTxn : LedgerWorld
  openWriter : VcxResult Unit
  revRegId : String
  revRegDefJson : String
  getCredDef : IndyResult Unit
  storeTails : IndyResult Unit
  addObject : RegistryObject → IndyResult Unit
  revRegDefTxn : LedgerWorld
  entryTxn : LedgerWorld

/-- Create the credential definition in the wallet. Once the first record is added its identifier is
taken, also when the wallet then fails. -/
def createAndStoreCredentialDef (world : CredDefWorld) : VcxResult Unit × Revocations G :=
  if world.credDefId ∈ s.walletCredDefs then
    (.err (mapRustIndySdkError (errMsg .credDefAlreadyExists
      "CredentialDefinition for cred_def_id: _ already exists" [world.credDefId])), s)
  else
    let added := do
      world.newCredDef
      world.addCredDef
    match added with
    | .ok () =>
      (mapIndyResult world.addCredDefKeys,
        { s with walletCredDefs := insert world.credDefId s.walletCredDefs })
    | failed => (mapIndyResult failed, s)

def createCredDef (world : CredDefWorld) : VcxResult (Option PaymentTxn) × Revocations G :=
  match s.createAndStoreCredentialDef world with
  | (.err e, s) => (.err e, s)
  | (.panic, s) => (.panic, s)
  | (.ok (), s) => (Prod.fst <$> world.credDefTxn.buildAndPay.1, s)

def setWallet (revRegId : String) (registry : WalletRegistry G) : Revocations G :=
  { s with wallet := Function.update s.wallet revRegId (some registry) }

/-- The first object is refused when the identifier is taken; once it is stored the registry is
incomplete until the last one is. -/
def addRegistry (world : CredDefWorld) (records : RevRegRecords G) :
    IndyResult (RevRegRecords G) × Revocations G :=
  if (s.wallet world.revRegId).isSome then
    (.err (errMsg .walletItemAlreadyExists "Wallet item already exists"), s)
  else
    match world.addObject .definition with
    | .err e => (.err e, s)
    | .panic => (.panic, s)
    | .ok () =>
      let added := do
        world.addObject .registry
        world.addObject .definitionPrivate
        world.addObject .info
      match added with
      | .err e => (.err e, s.setWallet world.revRegId .incomplete)
      | .panic => (.panic, s.setWallet world.revRegId .incomplete)
      | .ok () => (.ok records, s.setWallet world.revRegId (.complete records))

/-- Registries issue by default. -/
def newRegistry (world : CredDefWorld) (maxCreds : ℕ) : IndyResult (RevRegRecords G) := do
  world.getCredDef
  let records ← Anoncreds.createRevocationRegistry crypto ⟨some .issuanceByDefault, some maxCreds⟩
  world.storeTails
  pure records

def createAndStoreRevocReg (world : CredDefWorld) (maxCreds : ℕ) :
    VcxResult (RevRegRecords G) × Revocations G :=
  match world.openWriter with
  | .err e => (.err e, s)
  | .panic => (.panic, s)
  | .ok () =>
    match newRegistry crypto world maxCreds with
    | .err e => (.err (mapRustIndySdkError e), s)
    | .panic => (.panic, s)
    | .ok records =>
      (mapIndyResult (s.addRegistry world records).1, (s.addRegistry world records).2)

def createRevRegDef (world : CredDefWorld) (maxCreds : ℕ) :
    VcxResult (RevRegRecords G × Option PaymentTxn) × Revocations G :=
  match s.createAndStoreRevocReg crypto world maxCreds with
  | (.err e, s) => (.err e, s)
  | (.panic, s) => (.panic, s)
  | (.ok records, s) => ((fun paid => (records, paid.1)) <$> world.revRegDefTxn.buildAndPay.1, s)

def renameError {α : Type} (rename : VcxError → VcxError) : VcxResult α → VcxResult α
  | .ok a => .ok a
  | .err e => .err (rename e)
  | .panic => .panic

/-- Create the registry and post its initial entry. -/
def createRegistry (world : CredDefWorld) (details : RevocationDetails) :
    VcxResult (Option PaymentTxn × Option PaymentTxn) × Revocations G :=
  match details.tailsFile, details.maxCreds with
  | none, _ =>
    (.err ⟨.invalidRevocationDetails, "Invalid RevocationDetails: `tails_file` field not found",
      []⟩, s)
  | some _, none =>
    (.err ⟨.invalidRevocationDetails, "Invalid RevocationDetails: `max_creds` field not found",
      []⟩, s)
  | some _, some maxCreds =>
    match s.createRevRegDef crypto world maxCreds with
    | (.err _, s) => (.err ⟨.createCredDef, "Cannot create CredentialDefinition", []⟩, s)
    | (.panic, s) => (.panic, s)
    | (.ok (records, revDefPayment), s) =>
      let (paid, written) := world.entryTxn.buildAndPay
      (renameError (fun _ => ⟨.invalidRevocationEntry, "Cannot post RevocationEntry", []⟩)
          ((fun paid => (revDefPayment, paid.1)) <$> paid),
        s.post world.revRegId ⟨none, records.revReg, ∅⟩ written)

structure CredDefArgs where
  sourceId : String
  name : String
  issuerDid : String
  tag : String

def createCredDefError (error : VcxError) : VcxError :=
  if error.kind = .credDefAlreadyCreated then error
  else ⟨.createCredDef, error.msg, error.args⟩

def addCredentialDef (credentialDef : CredentialDef) : VcxResult ℕ × Revocations G :=
  (.ok s.credentialDefs.length, { s with credentialDefs := s.credentialDefs ++ [credentialDef] })

def createNewCredentialDef (args : CredDefArgs) (world : CredDefWorld) :
    VcxResult ℕ × Revocations G :=
  match world.deserializeDetails, world.getSchemaJson with
  | none, _ =>
    (.err ⟨.invalidRevocationDetails, "Cannot deserialize RevocationDeltas", []⟩, s)
  | some _, .err e => (.err e, s)
  | some _, .panic => (.panic, s)
  | some details, .ok _ =>
    match s.createCredDef world with
    | (.err e, s) => (.err (createCredDefError e), s)
    | (.panic, s) => (.panic, s)
    | (.ok credDefPayment, s) =>
      let credentialDef : CredentialDef := {
        sourceId := args.sourceId, id := world.credDefId, issuerDid := some args.issuerDid
        tag := args.tag, name := args.name, credDefPaymentTxn := credDefPayment
        tailsFile := details.tailsFile }
      if details.supportRevocation = some true then
        match s.createRegistry crypto world details with
        | (.err e, s) => (.err e, s)
        | (.panic, s) => (.panic, s)
        | (.ok (revDefPayment, revDeltaPayment), s) =>
          s.addCredentialDef { credentialDef with
            revRegId := some world.revRegId, revRegDef := some world.revRegDefJson
            revRegDefPaymentTxn := revDefPayment, revRegDeltaPaymentTxn := revDeltaPayment }
      else s.addCredentialDef credentialDef

/-! ### Credentials -/

structure RevokeWorld where
  institutionDid : VcxResult String
  openReader : VcxResult ℤ
  wallet : Anoncreds.IssuerWorld
  deltaTxn : LedgerWorld

def walletItemNotFound : VcxError :=
  mapRustIndySdkError (errMsg .walletItemNotFound "Wallet item not found")

/-- The delta names the accumulator before the revocation. -/
def libindyIssuerRevokeCredential (world : RevokeWorld) (revRegId credRevId : String) :
    VcxResult (RegistryEntry G) × Revocations G :=
  match world.openReader, Anoncreds.parseCredRevId credRevId with
  | .err e, _ => (.err e, s)
  | .panic, _ => (.panic, s)
  | .ok _, .err e => (.err (mapRustIndySdkError e), s)
  | .ok _, .panic => (.panic, s)
  | .ok _, .ok id =>
    match s.wallet revRegId with
    | some (.complete records) =>
      let (result, records') := Anoncreds.revokeCredential crypto world.wallet records credRevId
      ((fun _ => ⟨some records.revReg, records'.revReg, {id}⟩) <$> mapIndyResult result,
        s.setWallet revRegId (.complete records'))
    | _ => (.err walletItemNotFound, s)

def revokeCredential (world : RevokeWorld) (revRegId credRevId : String) :
    VcxResult (Option PaymentTxn) × Revocations G :=
  match world.institutionDid with
  | .err e => (.err e, s)
  | .panic => (.panic, s)
  | .ok _ =>
    match s.libindyIssuerRevokeCredential crypto world revRegId credRevId with
    | (.err e, s) => (.err e, s)
    | (.panic, s) => (.panic, s)
    | (.ok delta, s) =>
      let (paid, written) := world.deltaTxn.buildAndPay
      (Prod.fst <$> paid, s.post revRegId delta written)

def missingInfo (msg : String) : VcxError := ⟨.invalidRevocationDetails, msg, []⟩

/-- The fields that a revocation needs, the registry and the identifier. -/
def revocationInfo (c : IssuerCredential) : VcxResult (String × String) := do
  let _ ← Outcome.ofOption (missingInfo "Invalid RevocationInfo: `tails_file` field not found")
    c.tailsFile
  let revRegId ← Outcome.ofOption
    (missingInfo "Invalid RevocationInfo: `rev_reg_id` field not found") c.revRegId
  let credRevId ← Outcome.ofOption
    (missingInfo "Invalid RevocationInfo: `cred_rev_id` field not found") c.credRevId
  pure (revRegId, credRevId)

def objectNotFound (handle : ℕ) : VcxError :=
  ⟨.other 1048, "Object not found for handle: _", [handle.repr]⟩

def setCredential (handle : ℕ) (c : IssuerCredential) : Revocations G :=
  { s with credentials := s.credentials.set handle c }

def revokeCred (handle : ℕ) (world : RevokeWorld) : VcxResult (String × String) × Revocations G :=
  match s.credentials[handle]? with
  | none => (.err (objectNotFound handle), s)
  | some c =>
    match revocationInfo c with
    | .err e => (.err e, s)
    | .panic => (.panic, s)
    | .ok (revRegId, credRevId) =>
      match s.revokeCredential crypto world revRegId credRevId with
      | (.err e, s) => (.err e, s)
      | (.panic, s) => (.panic, s)
      | (.ok payment, s) =>
        (.ok (revRegId, credRevId), s.setCredential handle { c with revCredPaymentTxn := payment })

structure CredentialArgs where
  sourceId : String
  credentialData : String
  price : ℕ

def issuerCredentialCreate (credDefHandle : ℕ) (args : CredentialArgs) :
    VcxResult ℕ × Revocations G :=
  match s.credentialDefs[credDefHandle]? with
  | none => (.err (objectNotFound credDefHandle), s)
  | some d =>
    (.ok s.credentials.length, { s with
      credentials := s.credentials ++ [{
        sourceId := args.sourceId, credentialAttributes := args.credentialData
        state := .initialized, credDefId := d.id, revRegId := d.revRegId, tailsFile := d.tailsFile
        revRegDefJson := d.revRegDef, price := args.price }] })

/-- An offer is sent and its request arrives. -/
def receiveRequest (handle : ℕ) (offer : CredentialOffer) (request : CredentialRequest) :
    Revocations G :=
  match s.credentials[handle]? with
  | none => s
  | some c =>
    if c.state = .initialized then
      s.setCredential handle { c with
        state := .requestReceived, credentialOffer := some offer
        credentialRequest := some request }
    else s

structure IssueWorld where
  openReader : String → VcxResult ℤ
  wallet : Anoncreds.IssuerWorld
  libindyCred : String
  withoutRegistry : VcxResult String

/-- What libindy issues, and the wallet after it. -/
def libindyIssuerCreateCredential (issue : IssueWorld) (revRegId tailsFile : Option String) :
    VcxResult Issued × Revocations G :=
  let reader :=
    match tailsFile with
    | some dir => some <$> issue.openReader dir
    | none => .ok none
  match reader, revRegId with
  | .err e, _ => (.err e, s)
  | .panic, _ => (.panic, s)
  | .ok _, none => ((fun cred => (cred, none, none)) <$> issue.withoutRegistry, s)
  | .ok reader, some revRegId =>
    match s.wallet revRegId with
    | some (.complete records) =>
      let (result, records') := Anoncreds.newCredential crypto issue.wallet records reader
      ((fun id => (issue.libindyCred, id, none)) <$> mapIndyResult result,
        s.setWallet revRegId (.complete records'))
    | _ => (.err walletItemNotFound, s)

/-- A call gets as far as issuing. -/
def reachesIssue (world : IssuerWorld) (c : IssuerCredential) : Bool :=
  match c.checkSend world with
  | .ok _ => c.credentialOffer.isSome && c.credentialRequest.isSome
  | _ => false

def sendCredential (handle : ℕ) (world : IssuerWorld) (issue : IssueWorld) :
    VcxResult Unit × Revocations G :=
  match s.credentials[handle]? with
  | none => (.err (objectNotFound handle), s)
  | some c =>
    let issued := s.libindyIssuerCreateCredential crypto issue c.revRegId c.tailsFile
    let (result, c', _) :=
      c.sendCredential { world with createCredential := fun _ _ _ _ _ => issued.1 }
    (result, (if reachesIssue world c then issued.2 else s).setCredential handle c')

end Revocations

/-! ### Runs -/

inductive VcxCall where
  | createNewCredentialDef (args : Revocations.CredDefArgs) (world : Revocations.CredDefWorld)
  | issuerCredentialCreate (credDefHandle : ℕ) (args : Revocations.CredentialArgs)
  | receiveRequest (handle : ℕ) (offer : CredentialOffer) (request : CredentialRequest)
  | sendCredential (handle : ℕ) (world : IssuerWorld) (issue : Revocations.IssueWorld)
  | revokeCred (handle : ℕ) (world : Revocations.RevokeWorld)

/-- Beside the state a run keeps the revocations that were reported as done. -/
structure PostingRun (G : Type) where
  state : Revocations G := {}
  reported : List (String × String) := []

def postingMachine {G : Type} [DecidableEq G] (crypto : CryptoIssuer G) :
    Machine (PostingRun G) VcxCall (VcxResult Unit) where
  step call s :=
    match call with
    | .createNewCredentialDef args world =>
      let (result, state) := s.state.createNewCredentialDef crypto args world
      ((fun _ => ()) <$> result, { s with state })
    | .issuerCredentialCreate credDefHandle args =>
      let (result, state) := s.state.issuerCredentialCreate credDefHandle args
      ((fun _ => ()) <$> result, { s with state })
    | .receiveRequest handle offer request =>
      (.ok (), { s with state := s.state.receiveRequest handle offer request })
    | .sendCredential handle world issue =>
      let (result, state) := s.state.sendCredential crypto handle world issue
      (result, { s with state })
    | .revokeCred handle world =>
      match s.state.revokeCred crypto handle world with
      | (.ok revocation, state) => (.ok (), ⟨state, s.reported ++ [revocation]⟩)
      | (.err e, state) => (.err e, { s with state })
      | (.panic, state) => (.panic, { s with state })

end IndySdk.Vcx
