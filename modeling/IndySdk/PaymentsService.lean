import IndySdk.AssocMap
import IndySdk.CryptoService
import Mathlib.Data.List.SplitOn

/-!
# Payment methods and their entry points

A payment method is a table of functions of a plugin. Each request looks up one of them, turns its
texts into C strings, leaves a closure for the reply under the handle of the command and calls the
function.
-/

namespace IndySdk.Payments

open Outcome

/-- A text that came in as a C string. -/
structure CText where
  text : String
  noNull : Char.ofNat 0 ∉ text.toList

structure Output where
  recipient : String
  amount : ℕ
  extra : Option String

/-- The libraries that read base58 and JSON. -/
structure PaymentsCrates where
  base58 : Crypto.Base58
  readInputs : String → Option (List String)
  readOutputs : String → Option (List Output)
  readFees : String → Option (AssocMap String ℤ)

/-! ### Codes of plugins -/

abbrev ErrorCode := ℕ

def ErrorCode.success : ErrorCode := 0

def errorKinds : List (ErrorCode × IndyErrorKind) :=
  [(112, .invalidState), (113, .invalidStructure), (114, .ioError),
    (404, .masterSecretDuplicateName), (405, .proofRejected), (400, .revocationRegistryFull),
    (401, .invalidUserRevocId), (406, .credentialRevoked), (407, .credDefAlreadyExists),
    (303, .noConsensus), (304, .invalidTransaction), (309, .ledgerItemNotFound),
    (300, .poolNotCreated), (301, .invalidPoolHandle), (302, .poolTerminated), (307, .poolTimeout),
    (306, .poolConfigAlreadyExists), (308, .poolIncompatibleProtocolVersion),
    (500, .unknownCrypto), (200, .invalidWalletHandle), (201, .unknownWalletStorageType),
    (202, .walletStorageTypeAlreadyRegistered), (203, .walletAlreadyExists),
    (204, .walletNotFound), (206, .walletAlreadyOpened), (207, .walletAccessFailed),
    (209, .walletEncodingError), (210, .walletStorageError), (211, .walletEncryptionError),
    (212, .walletItemNotFound), (213, .walletItemAlreadyExists), (214, .walletQueryError),
    (600, .didAlreadyExists), (700, .unknownPaymentMethodType),
    (701, .incompatiblePaymentMethods), (702, .paymentInsufficientFunds),
    (703, .paymentSourceDoesNotExist), (704, .paymentOperationNotSupported),
    (705, .paymentExtraFunds)]

def ErrorCode.kind (err : ErrorCode) : IndyErrorKind :=
  if 100 ≤ err ∧ err ≤ 111 then .invalidParam (err - 99)
  else if 115 ≤ err ∧ err ≤ 129 then .invalidParam (err - 102)
  else (errorKinds.lookup err).getD .invalidState

def ErrorCode.toError (err : ErrorCode) : IndyError := errMsg err.kind "Plugin returned error"

def ErrorCode.toResult {α : Type} (value : α) (err : ErrorCode) : Except IndyError α :=
  if err = .success then .ok value else .error err.toError

/-! ### Calls -/

inductive EntryPoint where
  | createAddress
  | addRequestFees
  | parseResponseWithFees
  | buildGetPaymentSourcesRequest
  | parseGetPaymentSourcesResponse
  | buildPaymentReq
  | parsePaymentResponse
  | buildMintReq
  | buildSetTxnFeesReq
  | buildGetTxnFeesReq
  | parseGetTxnFeesResponse
  | buildVerifyPaymentReq
  | parseVerifyPaymentResponse
  deriving DecidableEq

/-- The functions of a plugin, by their addresses. -/
structure PaymentsMethod where
  address : EntryPoint → ℕ

abbrev PaymentsMethods := AssocMap String PaymentsMethod

def registerPaymentMethod (methods : PaymentsMethods) (methodType : String)
    (methodCbs : PaymentsMethod) : PaymentsMethods :=
  AList.insert methodType methodCbs methods

/-- The command that a closure for a reply sends to the executor. -/
inductive AckBuilder where
  | createAddressAck (walletHandle : ℤ)
  | ack (entry : EntryPoint)
  deriving DecidableEq

/-- A call of a plugin, with the closure that is stored for its reply. -/
structure PluginCall where
  address : ℕ
  cmdHandle : ℤ
  walletHandle : Option ℤ
  arguments : List (Option String)
  builder : AckBuilder
  deriving DecidableEq

inductive Argument where
  | str (s : String)
  | optional (s : Option String)

def hasNull (s : String) : Bool := Char.ofNat 0 ∈ s.toList

/-- A text as a pointer, null where there is none; only texts that must be there fail softly. -/
def Argument.toPointer : Argument → IndyResult (Option String)
  | .str s =>
    if hasNull s then .err (errMsg .invalidState "Null symbols in payments strings") else .ok s
  | .optional none => .ok none
  | .optional (some s) => if hasNull s then .panic else .ok s

def prepareCall (methods : PaymentsMethods) (type_ : String) (entry : EntryPoint) (cmdHandle : ℤ)
    (walletHandle : Option ℤ) (arguments : List Argument) (builder : AckBuilder) :
    IndyResult PluginCall := do
  let method ← ofOption (errMsg .unknownPaymentMethodType "Unknown payment method _"
    [type_]) (methods.lookup type_)
  let pointers ← arguments.mapM Argument.toPointer
  pure ⟨method.address entry, cmdHandle, walletHandle, pointers, builder⟩

namespace PaymentsService

variable (methods : PaymentsMethods) (cmdHandle : ℤ)

def createAddress (walletHandle : ℤ) (methodType config : String) : IndyResult PluginCall :=
  prepareCall methods methodType .createAddress cmdHandle (some walletHandle) [.str config]
    (.createAddressAck walletHandle)

def addRequestFees (methodType : String) (walletHandle : ℤ) (submitterDid : Option String)
    (req inputs outputs : String) (extra : Option String) : IndyResult PluginCall :=
  prepareCall methods methodType .addRequestFees cmdHandle (some walletHandle)
    [.optional submitterDid, .str req, .str inputs, .str outputs, .optional extra]
    (.ack .addRequestFees)

def parseResponseWithFees (type_ response : String) : IndyResult PluginCall :=
  prepareCall methods type_ .parseResponseWithFees cmdHandle none [.str response]
    (.ack .parseResponseWithFees)

def buildGetPaymentSourcesRequest (type_ : String) (walletHandle : ℤ)
    (submitterDid : Option String) (address : String) : IndyResult PluginCall :=
  prepareCall methods type_ .buildGetPaymentSourcesRequest cmdHandle (some walletHandle)
    [.optional submitterDid, .str address] (.ack .buildGetPaymentSourcesRequest)

def parseGetPaymentSourcesResponse (type_ response : String) : IndyResult PluginCall :=
  prepareCall methods type_ .parseGetPaymentSourcesResponse cmdHandle none [.str response]
    (.ack .parseGetPaymentSourcesResponse)

def buildPaymentReq (type_ : String) (walletHandle : ℤ) (submitterDid : Option String)
    (inputs outputs : String) (extra : Option String) : IndyResult PluginCall :=
  prepareCall methods type_ .buildPaymentReq cmdHandle (some walletHandle)
    [.optional submitterDid, .str inputs, .str outputs, .optional extra] (.ack .buildPaymentReq)

def parsePaymentResponse (type_ response : String) : IndyResult PluginCall :=
  prepareCall methods type_ .parsePaymentResponse cmdHandle none [.str response]
    (.ack .parsePaymentResponse)

def buildMintReq (type_ : String) (walletHandle : ℤ) (submitterDid : Option String)
    (outputs : String) (extra : Option String) : IndyResult PluginCall :=
  prepareCall methods type_ .buildMintReq cmdHandle (some walletHandle)
    [.optional submitterDid, .str outputs, .optional extra] (.ack .buildMintReq)

def buildSetTxnFeesReq (type_ : String) (walletHandle : ℤ) (submitterDid : Option String)
    (fees : String) : IndyResult PluginCall :=
  prepareCall methods type_ .buildSetTxnFeesReq cmdHandle (some walletHandle)
    [.optional submitterDid, .str fees] (.ack .buildSetTxnFeesReq)

def buildGetTxnFeesReq (type_ : String) (walletHandle : ℤ) (submitterDid : Option String) :
    IndyResult PluginCall :=
  prepareCall methods type_ .buildGetTxnFeesReq cmdHandle (some walletHandle)
    [.optional submitterDid] (.ack .buildGetTxnFeesReq)

def parseGetTxnFeesResponse (type_ response : String) : IndyResult PluginCall :=
  prepareCall methods type_ .parseGetTxnFeesResponse cmdHandle none [.str response]
    (.ack .parseGetTxnFeesResponse)

def buildVerifyPaymentReq (type_ : String) (walletHandle : ℤ) (submitterDid : Option String)
    (receipt : String) : IndyResult PluginCall :=
  prepareCall methods type_ .buildVerifyPaymentReq cmdHandle (some walletHandle)
    [.optional submitterDid, .str receipt] (.ack .buildVerifyPaymentReq)

def parseVerifyPaymentResponse (type_ respJson : String) : IndyResult PluginCall :=
  prepareCall methods type_ .parseVerifyPaymentResponse cmdHandle none [.str respJson]
    (.ack .parseVerifyPaymentResponse)

end PaymentsService

/-! ### The payment method of addresses -/

/-- The method of an address, which stands between two colons. -/
def methodOfAddress (address : String) : Option String :=
  match address.toList.splitOn ':' with
  | [_, method, _] => some (String.ofList method)
  | _ => none

def parseMethodFromPaymentAddress (address : String) : IndyResult String :=
  ofOption (errMsg .incompatiblePaymentMethods
    "Wrong payment address -- no payment method found") (methodOfAddress address)

/-- The one method of several different addresses. -/
def commonMethod (noneMsg equalMsg mixedMsg : String) (addresses : List String) :
    IndyResult String :=
  if addresses = [] then .err (errMsg .invalidStructure noneMsg)
  else if ¬addresses.Nodup then .err (errMsg .invalidStructure equalMsg)
  else
    match addresses.mapM methodOfAddress with
    | none => .err (errMsg .invalidStructure "Some payment addresses are incorrectly formed")
    | some methods =>
      match methods.dedup with
      | [method] => .ok method
      | _ => .err (errMsg .incompatiblePaymentMethods mixedMsg)

variable (crates : PaymentsCrates)

def parseMethodFromInputs (inputs : String) : IndyResult String := do
  let inputs ← ofOption (errMsg .invalidStructure "Unable to parse inputs")
    (crates.readInputs inputs)
  commonMethod "No inputs for transaction" "Several equal inputs"
    "Unable to identify payment method from inputs" inputs

def parseMethodFromOutputs (outputs : String) : IndyResult String := do
  let outputs ← ofOption (errMsg .invalidStructure "Unable to parse outputs")
    (crates.readOutputs outputs)
  commonMethod "No outputs for transaction" "Several equal payment addresses"
    "Unable to identify payment method from outputs" (outputs.map Output.recipient)

/-! ### Totality -/

variable {methods : PaymentsMethods} {cmdHandle : ℤ}

theorem CText.hasNull_eq_false (t : CText) : hasNull t.text = false :=
  decide_eq_false t.noNull

theorem commonMethod_ne_panic (noneMsg equalMsg mixedMsg : String) (addresses : List String) :
    commonMethod noneMsg equalMsg mixedMsg addresses ≠ .panic := by
  unfold commonMethod
  split
  · exact err_ne_panic _
  · split
    · exact err_ne_panic _
    · split
      · exact err_ne_panic _
      · split
        · exact ok_ne_panic _
        · exact err_ne_panic _

variable {crates}

theorem parseMethodFromInputs_ne_panic (inputs : String) :
    parseMethodFromInputs crates inputs ≠ .panic := by
  apply bind_ne_panic (ofOption_ne_panic _ _)
  intro addresses
  exact commonMethod_ne_panic _ _ _ addresses

theorem parseMethodFromOutputs_ne_panic (outputs : String) :
    parseMethodFromOutputs crates outputs ≠ .panic := by
  apply bind_ne_panic (ofOption_ne_panic _ _)
  intro outputs
  exact commonMethod_ne_panic _ _ _ (outputs.map Output.recipient)

/-- An argument whose conversion cannot abort the thread. -/
def Argument.Safe (argument : Argument) : Prop := argument.toPointer ≠ .panic

@[simp] theorem Argument.safe_str (s : String) : (Argument.str s).Safe := by
  rw [Safe, toPointer]
  split
  · exact err_ne_panic _
  · exact ok_ne_panic _

@[simp] theorem Argument.safe_optional (t : Option CText) :
    (Argument.optional (t.map CText.text)).Safe := by
  cases t with
  | none => exact ok_ne_panic _
  | some t =>
    rw [Option.map_some, Safe, toPointer, t.hasNull_eq_false]
    exact ok_ne_panic _

theorem prepareCall_ne_panic {type_ : String} {entry : EntryPoint} {walletHandle : Option ℤ}
    {arguments : List Argument} {builder : AckBuilder}
    (h : ∀ argument ∈ arguments, argument.Safe) :
    prepareCall methods type_ entry cmdHandle walletHandle arguments builder ≠ .panic := by
  apply bind_ne_panic (ofOption_ne_panic _ _)
  intro method
  refine bind_ne_panic ?_ (fun _ => ok_ne_panic _)
  intro hpanic
  obtain ⟨before, argument, after, hl, _, hpanic⟩ := mapM_eq_panic_iff.mp hpanic
  apply h argument ?_ hpanic
  rw [hl]
  exact List.mem_append_right _ List.mem_cons_self

theorem prepareCall_ok {type_ : String} {entry : EntryPoint} {walletHandle : Option ℤ}
    {arguments : List Argument} {builder : AckBuilder} {call : PluginCall}
    (h : prepareCall methods type_ entry cmdHandle walletHandle arguments builder = .ok call) :
    call.cmdHandle = cmdHandle := by
  obtain ⟨method, _, h⟩ := bind_eq_ok_iff.mp h
  obtain ⟨pointers, _, h⟩ := bind_eq_ok_iff.mp h
  cases h
  rfl

end IndySdk.Payments
