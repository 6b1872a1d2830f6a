import IndySdk.Json
import IndySdk.Lockstep
import IndySdk.PaymentsService
import IndySdk.SqliteStorage

/-!
# The executor of payment commands

One thread takes commands from a queue. A command that asks a plugin leaves the callback of its user
under a fresh handle when the entry point has returned; the plugin replies on any thread, and the
closure kept for that handle queues an acknowledgement, which calls the user back.
-/

namespace IndySdk.Payments

open Wallet (RecordOptions StorageRecord EncryptedValue WalletCrypto decryptStorageRecord)

/-- The requests that a plugin answers. -/
inductive PluginRequest where
  | createAddress (walletHandle : ℤ) (type_ config : CText)
  | addRequestFees (walletHandle : ℤ) (submitterDid : Option CText) (req inputs outputs : CText)
      (extra : Option CText)
  | parseResponseWithFees (type_ response : CText)
  | buildGetPaymentSourcesRequest (walletHandle : ℤ) (submitterDid : Option CText)
      (paymentAddress : CText)
  | parseGetPaymentSourcesResponse (type_ response : CText)
  | buildPaymentReq (walletHandle : ℤ) (submitterDid : Option CText) (inputs outputs : CText)
      (extra : Option CText)
  | parsePaymentResponse (type_ response : CText)
  | buildMintReq (walletHandle : ℤ) (submitterDid : Option CText) (outputs : CText)
      (extra : Option CText)
  | buildSetTxnFeesReq (walletHandle : ℤ) (submitterDid : Option CText) (type_ fees : CText)
  | buildGetTxnFeesReq (walletHandle : ℤ) (submitterDid : Option CText) (type_ : CText)
  | parseGetTxnFeesResponse (type_ response : CText)
  | buildVerifyPaymentReq (walletHandle : ℤ) (submitterDid : Option CText) (receipt : CText)
  | parseVerifyPaymentResponse (type_ respJson : CText)

inductive PaymentsRequest where
  | registerMethod (type_ : CText) (methodCbs : PaymentsMethod)
  | listAddresses (walletHandle : ℤ)
  | plugin (request : PluginRequest)

/-- A command of a user, with the number of the user's callback. -/
structure UserCommand where
  request : PaymentsRequest
  cb : ℕ

inductive Answer where
  | done
  | text (s : String)
  | pair (s type_ : String)
  deriving DecidableEq

/-- A user's callback, and the method that is paired with its answer. -/
structure PendingCallback where
  cb : ℕ
  type_ : Option String
  deriving DecidableEq

def PendingCallback.answer (callback : PendingCallback) :
    Except IndyError String → Except IndyError Answer
  | .error err => .error err
  | .ok s =>
    match callback.type_ with
    | some type_ => .ok (.pair s type_)
    | none => .ok (.text s)

/-- An acknowledgement on its way to the executor. -/
structure Ack where
  builder : AckBuilder
  cmdHandle : ℤ
  result : Except IndyError String

inductive PaymentsCommand where
  | user (cmd : UserCommand)
  | ack (ack : Ack)

inductive Effect where
  | callback (cb : ℕ) (answer : Except IndyError Answer)
  | callPlugin (call : PluginCall)
  | addRecord (walletHandle : ℤ) (type_ name value : String)
  | callbackNotFound (name : String) (cmdHandle : ℤ) (result : Except IndyError String)

/-- The executor inside an entry point, with the callback of the command that it executes. -/
structure Entered where
  call : PluginCall
  callback : PendingCallback
  deriving DecidableEq

structure PaymentsExecutor where
  methods : PaymentsMethods
  pendingCallbacks : AssocMap ℤ PendingCallback
  callbacks : AssocMap ℤ AckBuilder
  queue : List PaymentsCommand
  calling : Option Entered
  panicked : Bool

abbrev Executed := List Effect × PaymentsExecutor

namespace PaymentsExecutor

def panic (s : PaymentsExecutor) : Executed := ([], { s with panicked := true })

def call (s : PaymentsExecutor) (cb : ℕ) (answer : Except IndyError Answer) : Executed :=
  ([.callback cb answer], s)

def send (s : PaymentsExecutor) (cmd : PaymentsCommand) : PaymentsExecutor :=
  { s with queue := s.queue ++ [cmd] }

end PaymentsExecutor

/-! ### Wallets -/

/-- A record of a storage, as far as searches return it. -/
structure StoredRow where
  type_ : Bytes
  name : Bytes
  value : EncryptedValue
  tags : List Wallet.Tag

def StoredRow.retrieve (options : RecordOptions) (row : StoredRow) : StorageRecord where
  id := row.name
  value := if options.retrieveValue then some row.value else none
  type := if options.retrieveType then some row.type_ else none
  tags := if options.retrieveTags then some row.tags else none

def idValue : RecordOptions := ⟨false, true, false⟩

/-- What an open wallet says to the calls made here; a search may break off at any record. -/
structure OpenWallet where
  keys : Wallet.Keys
  addRecord : Except IndyError Unit
  search : Except IndyError (List (Except IndyError StoredRow))

abbrev Wallets := ℤ → Option OpenWallet

def unknownHandle : IndyError := errMsg .invalidWalletHandle "Unknown wallet handle"

def check (wallets : Wallets) (walletHandle : ℤ) : IndyResult Unit :=
  match wallets walletHandle with
  | some _ => .ok ()
  | none => .err unknownHandle

def addRecord (wallets : Wallets) (walletHandle : ℤ) : Except IndyError Unit :=
  match wallets walletHandle with
  | some wallet => wallet.addRecord
  | none => .error unknownHandle

def addPrefix (type_ : String) : String := "Indy::" ++ type_

section

variable (crates : PaymentsCrates) (wc : WalletCrypto) (wallets : Wallets) (nextId : ℤ)

/-! ### Commands -/

/-- What goes on to the plugin: the method to pair the answer with, and the call for a handle. -/
structure Asking where
  type_ : Option String
  method : ℤ → IndyResult PluginCall

def validateSubmitter (submitterDid : Option CText) : IndyResult Unit :=
  match submitterDid with
  | some did => Crypto.validateDid crates.base58 did.text
  | none => .ok ()

def mergeParseResult (methodFromInputs methodFromOutputs : IndyResult String) :
    IndyResult String := do
  let mth1 ← methodFromInputs
  let mth2 ← methodFromOutputs
  if mth1 ≠ mth2 then
    .err (errMsg .incompatiblePaymentMethods "Different payment method in inputs and outputs")
  else .ok mth1

variable (methods : PaymentsMethods)

def createAddress (walletHandle : ℤ) (type_ config : CText) : IndyResult Asking := do
  check wallets walletHandle
  pure ⟨none, fun i =>
    PaymentsService.createAddress methods i walletHandle type_.text config.text⟩

def addRequestFees (walletHandle : ℤ) (submitterDid : Option CText)
    (req inputs outputs : CText) (extra : Option CText) : IndyResult Asking := do
  validateSubmitter crates submitterDid
  check wallets walletHandle
  let methodFromInputs := parseMethodFromInputs crates inputs.text
  let method :=
    if outputs.text = "[]" then methodFromInputs
    else mergeParseResult methodFromInputs (parseMethodFromOutputs crates outputs.text)
  let type_ ← method
  pure ⟨some type_, fun i =>
    PaymentsService.addRequestFees methods i type_ walletHandle (submitterDid.map CText.text)
      req.text inputs.text outputs.text (extra.map CText.text)⟩

def parseResponseWithFees (type_ response : CText) : IndyResult Asking :=
  .ok ⟨none, fun i => PaymentsService.parseResponseWithFees methods i type_.text response.text⟩

def buildGetPaymentSourcesRequest (walletHandle : ℤ) (submitterDid : Option CText)
    (paymentAddress : CText) : IndyResult Asking := do
  validateSubmitter crates submitterDid
  check wallets walletHandle
  let method ← parseMethodFromPaymentAddress paymentAddress.text
  pure ⟨some method, fun i =>
    PaymentsService.buildGetPaymentSourcesRequest methods i method walletHandle
      (submitterDid.map CText.text) paymentAddress.text⟩

def parseGetPaymentSourcesResponse (type_ response : CText) : IndyResult Asking :=
  .ok ⟨none, fun i =>
    PaymentsService.parseGetPaymentSourcesResponse methods i type_.text response.text⟩

def buildPaymentReq (walletHandle : ℤ) (submitterDid : Option CText) (inputs outputs : CText)
    (extra : Option CText) : IndyResult Asking := do
  validateSubmitter crates submitterDid
  check wallets walletHandle
  let type_ ← mergeParseResult (parseMethodFromInputs crates inputs.text)
    (parseMethodFromOutputs crates outputs.text)
  pure ⟨some type_, fun i =>
    PaymentsService.buildPaymentReq methods i type_ walletHandle (submitterDid.map CText.text)
      inputs.text outputs.text (extra.map CText.text)⟩

def parsePaymentResponse (paymentMethod response : CText) : IndyResult Asking :=
  .ok ⟨none, fun i =>
    PaymentsService.parsePaymentResponse methods i paymentMethod.text response.text⟩

def buildMintReq (walletHandle : ℤ) (submitterDid : Option CText) (outputs : CText)
    (extra : Option CText) : IndyResult Asking := do
  validateSubmitter crates submitterDid
  check wallets walletHandle
  let type_ ← parseMethodFromOutputs crates outputs.text
  pure ⟨some type_, fun i =>
    PaymentsService.buildMintReq methods i type_ walletHandle (submitterDid.map CText.text)
      outputs.text (extra.map CText.text)⟩

def buildSetTxnFeesReq (walletHandle : ℤ) (submitterDid : Option CText) (type_ fees : CText) :
    IndyResult Asking := do
  validateSubmitter crates submitterDid
  check wallets walletHandle
  let _ ← Outcome.ofOption (errMsg .invalidStructure "Cannot deserialize Fees")
    (crates.readFees fees.text)
  pure ⟨none, fun i =>
    PaymentsService.buildSetTxnFeesReq methods i type_.text walletHandle
      (submitterDid.map CText.text) fees.text⟩

def buildGetTxnFeesReq (walletHandle : ℤ) (submitterDid : Option CText) (type_ : CText) :
    IndyResult Asking := do
  validateSubmitter crates submitterDid
  check wallets walletHandle
  pure ⟨none, fun i =>
    PaymentsService.buildGetTxnFeesReq methods i type_.text walletHandle
      (submitterDid.map CText.text)⟩

def parseGetTxnFeesResponse (type_ response : CText) : IndyResult Asking :=
  .ok ⟨none, fun i => PaymentsService.parseGetTxnFeesResponse methods i type_.text response.text⟩

def buildVerifyPaymentRequest (walletHandle : ℤ) (submitterDid : Option CText)
    (receipt : CText) : IndyResult Asking := do
  validateSubmitter crates submitterDid
  check wallets walletHandle
  let method ← parseMethodFromPaymentAddress receipt.text
  pure ⟨some method, fun i =>
    PaymentsService.buildVerifyPaymentReq methods i method walletHandle
      (submitterDid.map CText.text) receipt.text⟩

def parseVerifyPaymentResponse (type_ respJson : CText) : IndyResult Asking :=
  .ok ⟨none, fun i =>
    PaymentsService.parseVerifyPaymentResponse methods i type_.text respJson.text⟩

def ask : PluginRequest → IndyResult Asking
  | .createAddress walletHandle type_ config =>
    createAddress wallets methods walletHandle type_ config
  | .addRequestFees walletHandle submitterDid req inputs outputs extra =>
    addRequestFees crates wallets methods walletHandle submitterDid req inputs outputs extra
  | .parseResponseWithFees type_ response => parseResponseWithFees methods type_ response
  | .buildGetPaymentSourcesRequest walletHandle submitterDid paymentAddress =>
    buildGetPaymentSourcesRequest crates wallets methods walletHandle submitterDid paymentAddress
  | .parseGetPaymentSourcesResponse type_ response =>
    parseGetPaymentSourcesResponse methods type_ response
  | .buildPaymentReq walletHandle submitterDid inputs outputs extra =>
    buildPaymentReq crates wallets methods walletHandle submitterDid inputs outputs extra
  | .parsePaymentResponse type_ response => parsePaymentResponse methods type_ response
  | .buildMintReq walletHandle submitterDid outputs extra =>
    buildMintReq crates wallets methods walletHandle submitterDid outputs extra
  | .buildSetTxnFeesReq walletHandle submitterDid type_ fees =>
    buildSetTxnFeesReq crates wallets methods walletHandle submitterDid type_ fees
  | .buildGetTxnFeesReq walletHandle submitterDid type_ =>
    buildGetTxnFeesReq crates wallets methods walletHandle submitterDid type_
  | .parseGetTxnFeesResponse type_ response => parseGetTxnFeesResponse methods type_ response
  | .buildVerifyPaymentReq walletHandle submitterDid receipt =>
    buildVerifyPaymentRequest crates wallets methods walletHandle submitterDid receipt
  | .parseVerifyPaymentResponse type_ respJson => parseVerifyPaymentResponse methods type_ respJson

/-- The closure is stored before the entry point is called; the executor is then inside it. -/
def processMethod (s : PaymentsExecutor) (callback : PendingCallback)
    (method : ℤ → IndyResult PluginCall) : Executed :=
  match method nextId with
  | .ok call =>
    ([.callPlugin call], { s with
      callbacks := s.callbacks.insert nextId call.builder
      calling := some ⟨call, callback⟩ })
  | .err err => s.call callback.cb (.error err)
  | .panic => s.panic

/-- The rest of `processMethod`, when the entry point returns. -/
def returned (s : PaymentsExecutor) (entered : Entered) (err : ErrorCode) : Executed :=
  let s := { s with calling := none }
  match err.toResult () with
  | .ok _ =>
    ([], { s with
      pendingCallbacks := s.pendingCallbacks.insert entered.call.cmdHandle entered.callback })
  | .error err => s.call entered.callback.cb (.error err)

/-- Read what a search yields until it ends or fails. -/
def fetchAddresses (keys : Wallet.Keys) (cb : ℕ) :
    List (Except IndyError StoredRow) → List String → IndyResult (List Effect × List String)
  | [], addresses => .ok ([], addresses)
  | .error _ :: _, addresses => .ok ([], addresses)
  | .ok row :: rest, addresses =>
    match decryptStorageRecord wc keys (row.retrieve idValue) with
    | .panic => .panic
    | .err _ => .ok ([], addresses)
    | .ok record =>
      match record.value with
      | some value => fetchAddresses keys cb rest (addresses ++ [value])
      | none => do
        let (effects, addresses) ← fetchAddresses keys cb rest addresses
        pure (.callback cb (.error (errMsg .invalidState "Record value not found")) :: effects,
          addresses)

def listAddresses (s : PaymentsExecutor) (walletHandle : ℤ) (cb : ℕ) : Executed :=
  match wallets walletHandle with
  | none => s.call cb (.error unknownHandle)
  | some wallet =>
    match wallet.search with
    | .error err => s.call cb (.error err)
    | .ok rows =>
      match fetchAddresses wc wallet.keys cb rows [] with
      | .panic => s.panic
      | .err err => s.call cb (.error err)
      | .ok (effects, addresses) =>
        (effects ++ [.callback cb (.ok (.text (Json.arr (addresses.map .str)).text))], s)

def execute (s : PaymentsExecutor) (cmd : UserCommand) : Executed :=
  match cmd.request with
  | .registerMethod type_ methodCbs =>
    PaymentsExecutor.call
      { s with methods := registerPaymentMethod s.methods type_.text methodCbs } cmd.cb (.ok .done)
  | .listAddresses walletHandle => listAddresses wc wallets s walletHandle cmd.cb
  | .plugin request =>
    match ask crates wallets s.methods request with
    | .panic => s.panic
    | .err err => s.call cmd.cb (.error err)
    | .ok asking => processMethod nextId s ⟨cmd.cb, asking.type_⟩ asking.method

/-! ### Acknowledgements -/

def EntryPoint.ackName : EntryPoint → String
  | .createAddress => "CreateAddressAck"
  | .addRequestFees => "AddRequestFeesAck"
  | .parseResponseWithFees => "ParseResponseWithFeesFeesAck"
  | .buildGetPaymentSourcesRequest => "BuildGetSourcesRequestAck"
  | .parseGetPaymentSourcesResponse => "ParseGetSourcesResponseAck"
  | .buildPaymentReq => "BuildPaymentReqAck"
  | .parsePaymentResponse => "ParsePaymentResponseAck"
  | .buildMintReq => "BuildMintReqAck"
  | .buildSetTxnFeesReq => "BuildSetTxnFeesReq"
  | .buildGetTxnFeesReq => "BuildGetTxnFeesReqAck"
  | .parseGetTxnFeesResponse => "ParseGetTxnFeesResponseAck"
  | .buildVerifyPaymentReq => "BuildVerifyPaymentReqAck"
  | .parseVerifyPaymentResponse => "ParseVerifyPaymentResponseAck"

def commonAck (s : PaymentsExecutor) (cmdHandle : ℤ) (result : Except IndyError String)
    (name : String) : Executed :=
  match s.pendingCallbacks.lookup cmdHandle with
  | some callback =>
    PaymentsExecutor.call { s with pendingCallbacks := s.pendingCallbacks.erase cmdHandle }
      callback.cb (callback.answer result)
  | none => ([.callbackNotFound name cmdHandle result], s)

/-- The address of a plugin that the wallet could store. -/
def storedAddress (walletHandle : ℤ) (address : String) : Except IndyError String :=
  match check wallets walletHandle, addRecord wallets walletHandle with
  | .err err, _ => .error err
  | _, .error err => .error err
  | _, .ok _ => .ok address

def createAddressAck (s : PaymentsExecutor) (cmdHandle walletHandle : ℤ) :
    Except IndyError String → Executed
  | .ok res =>
    let executed := commonAck s cmdHandle (storedAddress wallets walletHandle res)
      (EntryPoint.ackName .createAddress)
    (.addRecord walletHandle (addPrefix "PaymentAddress") res res :: executed.1, executed.2)
  | .error err => commonAck s cmdHandle (.error err) (EntryPoint.ackName .createAddress)

def executeAck (s : PaymentsExecutor) (ack : Ack) : Executed :=
  match ack.builder with
  | .createAddressAck walletHandle =>
    createAddressAck wallets s ack.cmdHandle walletHandle ack.result
  | .ack entry => commonAck s ack.cmdHandle ack.result entry.ackName

end

/-! ### Replies -/

/-- The text behind a pointer, which must be there and in UTF-8. -/
def readReply (cStr : Option Bytes) : Option String := cStr.bind Bytes.toText

/-- A plugin calls the callback that it was given. -/
def callback (s : PaymentsExecutor) (cmdHandle : ℤ) (err : ErrorCode) (cStr : Option Bytes) :
    Executed :=
  match s.callbacks.lookup cmdHandle with
  | none => s.panic
  | some builder =>
    let s := { s with callbacks := s.callbacks.erase cmdHandle }
    match readReply cStr with
    | none => s.panic
    | some metadata => ([], s.send (.ack ⟨builder, cmdHandle, err.toResult metadata⟩))

/-! ### Runs -/

inductive PaymentsEvent where
  | submit (cmd : UserCommand)
  | execute
  | reply (cmdHandle : ℤ) (err : ErrorCode) (cStr : Option Bytes)
  | returned (err : ErrorCode)

/-- An event, with the next number of the library and what the wallets say at that moment. -/
structure PaymentsInput where
  event : PaymentsEvent
  nextId : ℤ
  wallets : Wallets

def PaymentsExecutor.step (crates : PaymentsCrates) (wc : WalletCrypto) (input : PaymentsInput)
    (s : PaymentsExecutor) : Executed :=
  match input.event with
  | .submit cmd => ([], s.send (.user cmd))
  | .execute =>
    match s.calling, s.queue with
    | none, .user cmd :: queue =>
      Payments.execute crates wc input.wallets input.nextId { s with queue := queue } cmd
    | none, .ack ack :: queue => executeAck input.wallets { s with queue := queue } ack
    | _, _ => ([], s)
  | .reply cmdHandle err cStr => callback s cmdHandle err cStr
  | .returned err =>
    match s.calling with
    | some entered => Payments.returned s entered err
    | none => ([], s)

/-- A call of a plugin that is not acknowledged yet, and what the plugin replied. -/
structure Request where
  entered : Entered
  reply : Option (Except IndyError String)

/-- The executor, and the calls that plugins have accepted or are still busy with. -/
structure PaymentsSystem where
  executor : PaymentsExecutor
  requests : AssocMap ℤ Request

/-- Keep account of the calls: opened by a command, replied to, closed by the acknowledgement or by
an error of the entry point. -/
def requestsAfter (event : PaymentsEvent) (s : PaymentsSystem) (after : PaymentsExecutor) :
    AssocMap ℤ Request :=
  match event with
  | .submit _ => s.requests
  | .execute =>
    match s.executor.calling, s.executor.queue with
    | none, .user _ :: _ =>
      match after.calling with
      | some entered => s.requests.insert entered.call.cmdHandle ⟨entered, none⟩
      | none => s.requests
    | none, .ack ack :: _ => s.requests.erase ack.cmdHandle
    | _, _ => s.requests
  | .reply cmdHandle err cStr =>
    match s.requests.lookup cmdHandle, readReply cStr with
    | some request, some metadata =>
      s.requests.insert cmdHandle ⟨request.entered, some (err.toResult metadata)⟩
    | _, _ => s.requests
  | .returned err =>
    match s.executor.calling with
    | some entered =>
      if err = .success then s.requests else s.requests.erase entered.call.cmdHandle
    | none => s.requests

def paymentsMachine (crates : PaymentsCrates) (wc : WalletCrypto) :
    Machine PaymentsSystem PaymentsInput (List Effect) where
  step input s :=
    if s.executor.panicked then ([], s)
    else
      let executed := s.executor.step crates wc input
      (executed.1, ⟨executed.2, requestsAfter input.event s executed.2⟩)

end IndySdk.Payments
