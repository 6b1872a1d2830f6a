import IndySdk.Json
import IndySdk.Lockstep
import IndySdk.Outcome
import IndySdk.PaymentSources

/-!
# The null payment method

A call of the payment method checks what it can and leaves the rest to a completion, which the
library runs later. Completions run one at a time, but in any order, and the caches may have changed
since the checks.
-/

namespace IndySdk.NullPay

inductive ErrorCode where
  | success
  | commonInvalidState
  | commonInvalidStructure
  | paymentSourceDoesNotExistError
  | other (code : ℕ)
  deriving DecidableEq

structure Output where
  recipient : String
  amount : UInt64
  deriving DecidableEq

structure Txn where
  inputs : List String
  outputs : List Output
  extra : Option String
  deriving DecidableEq

structure ReceiptInfo where
  receipt : String
  recipient : String
  amount : UInt64
  extra : Option String
  deriving DecidableEq

/-- A call that waits for its completion, with what it has found out so far. -/
inductive Pending where
  | mint (outputs : List Output) (extra : Option String)
  | listForPayment (inputs : List String) (outputs : List Output) (extra : Option String)
  | payment (inputs : List String) (outputs : List Output) (ecExistance : ErrorCode)
      (totalBalance totalPayments : UInt64) (seqNo : ℤ)
  | fees (inputs : List String) (outputs : List Output) (seqNo : ℤ)
  | refusal
  deriving DecidableEq

/-- The caches and ledgers of the library; `minted` and `spent` only record what has happened. -/
structure PayState where
  cache : SourceCache
  txns : AssocMap ℤ Txn
  idsCounter : ℕ
  feesByCode : AssocMap String UInt64
  pending : List Pending
  panicked : Bool
  minted : ℕ
  spent : List String

inductive PayCall where
  | buildMintReq (outputs : List Output) (extra : Option String)
  | buildPaymentReq (inputs : List String) (outputs : List Output) (extra : Option String)
  | addRequestFees (reqJson : String) (inputs : List String) (outputs : List Output)
      (extra : Option String)
  /-- The completion of a call, with the payment addresses of the wallet where it lists them. -/
  | complete (i : ℕ) (ec : ErrorCode) (paymentAddresses : List String)

/-- What a step has done to the tokens. -/
inductive Report where
  | nothing
  | called (ec : ErrorCode)
  | minted (outputs : List Output)
  | paid (inputs : List String) (outputs : List Output)
  | panicked
  deriving DecidableEq

structure PayWorld where
  fromStr : String → Option Json
  overflowChecks : Bool

/-! ### Requests and fees -/

def valToObj (val : Json) : Except ErrorCode (List (String × Json)) :=
  match val.asObject with
  | some obj => .ok obj
  | none => .error .commonInvalidStructure

def getValFromObj (obj : List (String × Json)) (key : String) : Except ErrorCode Json :=
  match Json.member? key obj with
  | some val => .ok val
  | none => .error .commonInvalidStructure

def strToVal (world : PayWorld) (str : String) : Except ErrorCode Json :=
  match world.fromStr str with
  | some val => .ok val.toValue
  | none => .error .commonInvalidStructure

def parseOperationFromRequest (world : PayWorld) (req : String) : Except ErrorCode String := do
  let val ← strToVal world req
  let obj ← valToObj val
  let oper ← getValFromObj obj "operation"
  let operObj ← valToObj oper
  let typeVal ← getValFromObj operObj "type"
  match typeVal.asStr with
  | some str => .ok str
  | none => .error .commonInvalidStructure

def parseReqIdFromRequest (world : PayWorld) (request : String) : Except ErrorCode ℕ := do
  let val ← strToVal world request
  let object ← valToObj val
  let reqId ← getValFromObj object "reqId"
  match reqId.asU64 with
  | some i => .ok i
  | none => .error .commonInvalidStructure

def txnNameToCode (txn : String) : String :=
  if txn = "NYM" then "1"
  else if txn = "ATTRIB" then "100"
  else if txn = "SCHEMA" then "101"
  else if txn = "CRED_DEF" then "102"
  else txn

def getFee (s : PayState) (txnName : String) : Option UInt64 :=
  s.feesByCode.lookup (txnNameToCode txnName)

/-! ### Checks -/

def checkInputs (inputs paymentAddresses : List String) : Bool :=
  inputs.all fun source =>
    match fromSource source with
    | some (_, paymentAddress) => paymentAddresses.contains paymentAddress
    | none => false

def checkInputsExistance (cache : SourceCache) (inputs : List String) : ErrorCode :=
  if inputs.all (fun input => (getBalanceOfSource cache input).isSome) then .success
  else .paymentSourceDoesNotExistError

def addU64 (overflowChecks : Bool) (a b : UInt64) : Outcome Empty UInt64 :=
  if overflowChecks ∧ 2 ^ 64 ≤ a.toNat + b.toNat then .panic else .ok (a + b)

def countTotalInputs (overflowChecks : Bool) (cache : SourceCache) (inputs : List String) :
    Outcome Empty UInt64 :=
  (inputs.filterMap (getBalanceOfSource cache)).foldlM (addU64 overflowChecks) 0

def countTotalPayments (overflowChecks : Bool) (outputs : List Output) : Outcome Empty UInt64 :=
  outputs.foldlM (fun acc next => addU64 overflowChecks acc next.amount) 0

/-! ### Inputs and outputs -/

def getReceiptInfo (txns : AssocMap ℤ Txn) (source : String) : Option ReceiptInfo := do
  let (seqNo, recipient) ← fromSource source
  let txn ← txns.lookup seqNo
  let out ← txn.outputs.find? (fun out => out.recipient = recipient)
  some ⟨source, recipient, out.amount, txn.extra⟩

def processInputs (cache : SourceCache) (inputs : List String) : SourceCache :=
  inputs.foldl removeSource cache

/-- An output that cannot be processed aborts the thread; those before it stay. -/
def processOutputs (txns : AssocMap ℤ Txn) (seqNo : ℤ) :
    SourceCache → List Output → SourceCache × Option (List ReceiptInfo)
  | cache, [] => (cache, some [])
  | cache, out :: outputs =>
    match addSource cache out.recipient seqNo out.amount with
    | none => (cache, none)
    | some (source, cache) =>
      match getReceiptInfo txns source with
      | none => (cache, none)
      | some info =>
        let (cache, infos) := processOutputs txns seqNo cache outputs
        (cache, infos.map (fun infos => info :: infos))

/-- Minting leaves out the recipients that are no payment addresses. -/
def mintOutputs (seqNo : ℤ) (cache : SourceCache) (outputs : List Output) : SourceCache :=
  outputs.foldl (fun cache output =>
    match addSource cache output.recipient seqNo output.amount with
    | some (_, cache) => cache
    | none => cache) cache

def totalAmount (outputs : List Output) : ℕ :=
  (outputs.map (fun output => output.amount.toNat)).sum

/-! ### Steps -/

namespace PayState

/-- A counter as a signed word. -/
def asI32 (n : ℕ) : ℤ :=
  if n % 2 ^ 32 < 2 ^ 31 then (n % 2 ^ 32 : ℕ) else (n % 2 ^ 32 : ℕ) - 2 ^ 32

def addTxn (s : PayState) (inputs : List String) (outputs : List Output) (extra : Option String) :
    ℤ × PayState :=
  let nextSeqNo := asI32 (s.idsCounter + 1)
  (nextSeqNo,
    { s with
      idsCounter := s.idsCounter + 1
      txns := s.txns.insert nextSeqNo ⟨inputs, outputs, extra⟩ })

def wait (s : PayState) (pending : Pending) : PayState :=
  { s with pending := s.pending ++ [pending] }

def panic (s : PayState) : Report × PayState := (.panicked, { s with panicked := true })

def processPayment (s : PayState) (inputs : List String) (outputs : List Output) (seqNo : ℤ) :
    Report × PayState :=
  match processOutputs s.txns seqNo (processInputs s.cache inputs) outputs with
  | (cache, some _) => (.paid inputs outputs, { s with cache := cache, spent := s.spent ++ inputs })
  | (cache, none) => { s with cache := cache }.panic

def addRequestFees (world : PayWorld) (s : PayState) (reqJson : String) (inputs : List String)
    (outputs : List Output) (extra : Option String) : Report × PayState :=
  match parseOperationFromRequest world reqJson with
  | .error ec => (.called ec, s)
  | .ok txnType =>
    let fee := (getFee s txnType).getD 0
    if checkInputsExistance s.cache inputs ≠ .success then (.nothing, s.wait .refusal)
    else
      match (do
        let totalAmount ← countTotalInputs world.overflowChecks s.cache inputs
        let totalPayments ← countTotalPayments world.overflowChecks outputs
        let total ← addU64 world.overflowChecks totalPayments fee
        .ok (totalAmount, total) : Outcome Empty (UInt64 × UInt64)) with
      | .err e => e.elim
      | .panic => s.panic
      | .ok (totalAmount, total) =>
        if total ≤ totalAmount then
          match parseReqIdFromRequest world reqJson with
          | .error ec => (.called ec, s)
          | .ok _ =>
            let (seqNo, s) := s.addTxn inputs outputs extra
            (.nothing, s.wait (.fees inputs outputs seqNo))
        else (.nothing, s.wait .refusal)

def completeMint (s : PayState) (outputs : List Output) (extra : Option String) (ec : ErrorCode) :
    Report × PayState :=
  if ec = .success then
    let (seqNo, s) := s.addTxn [] outputs extra
    (.minted outputs,
      { s with
        cache := mintOutputs seqNo s.cache outputs
        minted := s.minted + totalAmount outputs })
  else (.called ec, s)

def completeListForPayment (world : PayWorld) (s : PayState) (inputs : List String)
    (outputs : List Output) (extra : Option String) (ec : ErrorCode)
    (paymentAddresses : List String) : Report × PayState :=
  if ec ≠ .success then (.called ec, s)
  else if ¬ checkInputs inputs paymentAddresses then (.called .commonInvalidState, s)
  else
    match (do
      let totalBalance ← countTotalInputs world.overflowChecks s.cache inputs
      let totalPayments ← countTotalPayments world.overflowChecks outputs
      .ok (totalBalance, totalPayments) : Outcome Empty (UInt64 × UInt64)) with
    | .err e => e.elim
    | .panic => s.panic
    | .ok (totalBalance, totalPayments) =>
      let ecExistance := checkInputsExistance s.cache inputs
      let (seqNo, s) := s.addTxn inputs outputs extra
      (.nothing, s.wait (.payment inputs outputs ecExistance totalBalance totalPayments seqNo))

def completePayment (s : PayState) (inputs : List String) (outputs : List Output)
    (ecExistance : ErrorCode) (totalBalance totalPayments : UInt64) (seqNo : ℤ) (ec : ErrorCode) :
    Report × PayState :=
  if ec = .success ∧ ecExistance = .success ∧ totalPayments ≤ totalBalance then
    s.processPayment inputs outputs seqNo
  else (.called ec, s)

def completeFees (s : PayState) (inputs : List String) (outputs : List Output) (seqNo : ℤ)
    (ec : ErrorCode) (paymentAddresses : List String) : Report × PayState :=
  if ec ≠ .success then (.called ec, s)
  else if ¬ checkInputs inputs paymentAddresses then (.called .commonInvalidState, s)
  else s.processPayment inputs outputs seqNo

def complete (world : PayWorld) (s : PayState) (ec : ErrorCode) (paymentAddresses : List String) :
    Pending → Report × PayState
  | .mint outputs extra => s.completeMint outputs extra ec
  | .listForPayment inputs outputs extra =>
    s.completeListForPayment world inputs outputs extra ec paymentAddresses
  | .payment inputs outputs ecExistance totalBalance totalPayments seqNo =>
    s.completePayment inputs outputs ecExistance totalBalance totalPayments seqNo ec
  | .fees inputs outputs seqNo => s.completeFees inputs outputs seqNo ec paymentAddresses
  | .refusal => (.called ec, s)

end PayState

def payMachine (world : PayWorld) : Machine PayState PayCall Report where
  step call s :=
    if s.panicked then (.nothing, s)
    else
      match call with
      | .buildMintReq outputs extra => (.nothing, s.wait (.mint outputs extra))
      | .buildPaymentReq inputs outputs extra =>
        (.nothing, s.wait (.listForPayment inputs outputs extra))
      | .addRequestFees reqJson inputs outputs extra =>
        s.addRequestFees world reqJson inputs outputs extra
      | .complete i ec paymentAddresses =>
        match s.pending[i]? with
        | none => (.nothing, s)
        | some pending =>
          { s with pending := s.pending.eraseIdx i }.complete world ec paymentAddresses pending

end IndySdk.NullPay
