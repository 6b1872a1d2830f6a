import IndySdk.CredentialExchange

/-!
# Choosing the coins of a payment

A payment lists the unspent outputs of every payment address of the wallet, takes them in order
until the cost is covered, and gives the rest back to the address that was looked at last. Amounts
are machine words. What the wallet and the ledger answer during one payment is a world; each
address stands with the answer to its own request.
-/

namespace IndySdk.Vcx

open Outcome

structure Utxo where
  source : Option String
  recipient : String
  amount : UInt64
  extra : Option String

structure AddressInfo where
  address : String
  balance : ℕ
  utxo : List Utxo

structure WalletInfo where
  balance : ℕ
  addresses : List AddressInfo

structure PaymentWorld where
  addresses : Except VcxError (List (String × Except VcxError (List Utxo)))
  paymentMethod : Except VcxError String
  fees : Except VcxError (AssocMap String UInt64)
  institutionDid : Except VcxError String
  signAndSubmitRequest : String → String → Except VcxError String
  submitFeesRequest : String → List String → List Output → Except VcxError String
  submitPaymentRequest : String → List String → List Output → Except VcxError String

def answered {α : Type} : Except VcxError α → VcxResult α
  | .ok a => .ok a
  | .error e => .err e

@[simp] theorem answered_ok {α : Type} (a : α) : answered (.ok a) = .ok a := rfl

@[simp] theorem answered_error {α : Type} (e : VcxError) :
    (answered (.error e) : VcxResult α) = .err e := rfl

@[simp] theorem answered_eq_ok {α : Type} {x : Except VcxError α} {a : α} :
    answered x = .ok a ↔ x = .ok a := by
  cases x <;> simp

theorem answered_ne_panic {α : Type} (x : Except VcxError α) : answered x ≠ .panic := by
  cases x with
  | ok a => exact ok_ne_panic a
  | error e => exact err_ne_panic e

def isValidAddress (address method : String) : Bool :=
  ("pay:" ++ method).toList.isPrefixOf address.toList

/-! ### The balance of the wallet -/

section Balance

variable (overflowChecks : Bool)

def addAmounts : ℕ → List Utxo → VcxResult ℕ
  | balance, [] => .ok balance
  | balance, utxo :: rest => do
    let balance ← wordAdd 64 overflowChecks balance utxo.amount.toNat
    addAmounts balance rest

def addressBalance (utxos : List Utxo) : VcxResult ℕ := addAmounts overflowChecks 0 utxos

def getAddressInfo (address : String) (sources : Except VcxError (List Utxo)) :
    VcxResult AddressInfo := do
  let utxo ← answered sources
  let balance ← addressBalance overflowChecks utxo
  pure ⟨address, balance, utxo⟩

def getAddressInfos (method : String) :
    ℕ → List (String × Except VcxError (List Utxo)) → VcxResult WalletInfo
  | balance, [] => .ok ⟨balance, []⟩
  | balance, (address, sources) :: rest =>
    if isValidAddress address method then do
      let info ← getAddressInfo overflowChecks address sources
      let balance ← addAmounts overflowChecks balance info.utxo
      let wallet ← getAddressInfos method balance rest
      pure { wallet with addresses := info :: wallet.addresses }
    else getAddressInfos method balance rest

def getWalletTokenInfo (world : PaymentWorld) : VcxResult WalletInfo := do
  let addresses ← answered world.addresses
  let method ← answered world.paymentMethod
  getAddressInfos overflowChecks method 0 addresses

/-! ### Inputs and outputs -/

structure Chosen where
  inputs : List String
  balance : ℕ

/-- The inner loop; the flag is set when it breaks the outer one. -/
def chooseUtxos (cost : ℕ) : Chosen → List Utxo → VcxResult (Chosen × Bool)
  | chosen, [] => .ok (chosen, false)
  | chosen, utxo :: rest =>
    if chosen.balance < cost then do
      let source ← ofOption ⟨.insufficientTokenAmount, "", []⟩ utxo.source
      let balance ← wordAdd 64 overflowChecks chosen.balance utxo.amount.toNat
      chooseUtxos cost ⟨chosen.inputs ++ [source], balance⟩ rest
    else .ok (chosen, true)

def chooseAddresses (cost : ℕ) :
    Chosen → String → List AddressInfo → VcxResult (Chosen × String)
  | chosen, refundAddress, [] => .ok (chosen, refundAddress)
  | chosen, _, info :: rest => do
    let (chosen, stop) ← chooseUtxos overflowChecks cost chosen info.utxo
    if stop then pure (chosen, info.address)
    else chooseAddresses cost chosen info.address rest

def inputs (world : PaymentWorld) (cost : ℕ) : VcxResult (ℕ × List String × String) := do
  let walletInfo ← getWalletTokenInfo overflowChecks world
  if walletInfo.balance < cost then
    .err ⟨.insufficientTokenAmount,
      "Not enough tokens in wallet to pay: balance: \x7b\x7d, cost: \x7b\x7d",
      [toString walletInfo.balance, toString cost]⟩
  else do
    let (chosen, refundAddress) ←
      chooseAddresses overflowChecks cost ⟨[], 0⟩ "" walletInfo.addresses
    let remainder ← wordSub 64 overflowChecks chosen.balance cost
    pure (remainder, chosen.inputs, refundAddress)

def outputs (remainder : ℕ) (refundAddress : String) (payeeAddress : Option String)
    (payeeAmount : Option ℕ) : List Output :=
  (if 0 < remainder then [⟨refundAddress, remainder, none⟩] else []) ++
    match payeeAddress with
    | some address => [⟨address, payeeAmount.getD 0, none⟩]
    | none => []

structure Coins where
  inputs : List String
  refundAddress : String
  outputs : List Output
  deriving DecidableEq

/-- The coins of a payment of a ledger fee alone, and of one that also pays a payee. -/
def coins (world : PaymentWorld) (payee : Option (String × UInt64)) (fee : UInt64) :
    VcxResult Coins := do
  let cost ← match payee with
    | some (_, price) => wordAdd 64 overflowChecks price.toNat fee.toNat
    | none => pure fee.toNat
  let (remainder, inputs, refundAddress) ← inputs overflowChecks world cost
  pure ⟨inputs, refundAddress, outputs remainder refundAddress (payee.map (·.1))
    (payee.map (·.2.toNat))⟩

/-! ### Payments -/

def getTxnPrice (world : PaymentWorld) (txnType : String) : VcxResult UInt64 := do
  let fees ← answered world.fees
  pure ((fees.lookup txnType).getD 0)

def payForTxn (world : PaymentWorld) (req txnType : String) :
    VcxResult (Option PaymentTxn × String) := do
  let txnPrice ← getTxnPrice world txnType
  if txnPrice = 0 then do
    let did ← answered world.institutionDid
    let txnResponse ← answered (world.signAndSubmitRequest did req)
    pure (none, txnResponse)
  else do
    let coins ← coins overflowChecks world none txnPrice
    let _did ← answered world.institutionDid
    let txnResponse ← answered (world.submitFeesRequest req coins.inputs coins.outputs)
    pure (some ⟨txnPrice.toNat, false, coins.inputs, coins.outputs⟩, txnResponse)

def transferTxnType : String := "10001"

def payAPayee (world : PaymentWorld) (price : UInt64) (address : String) :
    VcxResult (PaymentTxn × String) := do
  let ledgerCost ← getTxnPrice world transferTxnType
  let coins ← coins overflowChecks world (some (address, price)) ledgerCost
  let myDid ← answered world.institutionDid
  let result ← answered (world.submitPaymentRequest myDid coins.inputs coins.outputs)
  pure (⟨price.toNat, false, coins.inputs, coins.outputs⟩, result)

end Balance

end IndySdk.Vcx
