import IndySdk.Base58
import IndySdk.Lockstep
import Mathlib.Data.Finset.Insert

/-!
# Rotating the key of a DID

The command stores a temporary key in the wallet, asks the ledger for it and then puts it in the
place of the DID's key. It can be interrupted between any two of these steps, and resumed by
comparing the keys of the wallet with what is read from the ledger. A request may reach the ledger
although its reply is lost, also later; the ledger takes a request that is signed with the key it
has, and keeps the new key in full or abbreviated.
-/

namespace IndySdk.KeyRotation

open Crypto

/-- The records of one DID, and the verification keys of the stored key pairs. -/
structure DidWallet where
  verkey : PublicKey
  tempVerkey : Option PublicKey := none
  keys : Finset PublicKey

structure LedgerDid where
  key : PublicKey
  abbreviated : Bool := false

/-- A NYM operation, signed with a key. -/
structure Nym where
  dest : String
  verkey : Option String
  role : Option (Option String)
  signer : PublicKey

inductive Phase where
  | idle
  | addTemporaryDid (verkey : PublicKey)
  | submit (newVerkey : String)
  | apply (newVerkey : String) (updateLedger : Bool)
  | deleteTemporaryDid (newVerkey : String)
  | report (newVerkey : String)
  deriving DecidableEq

/-- Whether the current command has switched the wallet to the new key is kept for comparison. -/
structure Rotation where
  wallet : DidWallet
  ledger : LedgerDid
  inFlight : List Nym := []
  phase : Phase := .idle
  switched : Bool := false

/-- What becomes of a request: it is not taken, it is under way when the command gives up, or it
reaches the ledger, which keeps the key abbreviated or in full and whose reply may be lost. -/
inductive Submission where
  | refused
  | delayed
  | received (abbreviated replied : Bool)

/-- A command that begins has created its key, or read the ledger if it resumes. -/
inductive Event where
  | rotate (verkey : PublicKey) (stored : Bool)
  | resume (ledgerVerkey : Option (Option String))
  | proceed (stored : Bool) (submission : Submission)
  | kill
  | deliver (nym : ℕ) (abbreviated : Bool)

/-- Whether a command that ends reports success. -/
abbrev Report := Option Bool

variable (codec : LawfulBase58) (did : DidBytes)

def roleCode (role : String) : IndyResult (Option String) :=
  if role = "" then .ok none
  else if role = "STEWARD" then .ok (some "2")
  else if role = "TRUSTEE" then .ok (some "0")
  else if role = "TRUST_ANCHOR" then .ok (some "101")
  else if role = "NETWORK_MONITOR" then .ok (some "201")
  else .err (errMsg .invalidStructure "Invalid role: _" [role])

/-- The request with the key that signs it; aliases are not used here. -/
def buildNymRequest (dest : String) (verkey role : Option String) (signer : PublicKey) :
    IndyResult Nym :=
  match role with
  | none => .ok ⟨dest, verkey, none, signer⟩
  | some role => (fun code => ⟨dest, verkey, some code, signer⟩) <$> roleCode role

def LedgerDid.text (ledger : LedgerDid) : String :=
  if ledger.abbreviated then codec.shortText did ledger.key else codec.keyText ledger.key

/-- The ledger after a request, if it takes it. -/
def LedgerDid.receive (ledger : LedgerDid) (nym : Nym) (abbreviated : Bool) : Option LedgerDid :=
  if nym.signer = ledger.key then
    (nym.verkey.bind (codec.readVerkey did)).map (fun key => ⟨key, abbreviated⟩)
  else none

namespace Rotation

variable (s : Rotation)

def fail : Report × Rotation := (some false, { s with phase := .idle })

def goOn (phase : Phase) : Report × Rotation := (none, { s with phase })

/-! ### `replace_keys_start` -/

def replaceKeysStart (verkey : PublicKey) (stored : Bool) : Report × Rotation :=
  match validateDid codec.base58 (codec.didText did) with
  | .ok () =>
    if verkey ∈ s.wallet.keys ∨ ¬ stored then s.fail
    else
      { s with wallet := { s.wallet with keys := insert verkey s.wallet.keys } }.goOn
        (.addTemporaryDid verkey)
  | _ => s.fail

def addTemporaryDid (verkey : PublicKey) (stored : Bool) : Report × Rotation :=
  if s.wallet.tempVerkey.isSome ∨ ¬ stored then s.fail
  else
    { s with wallet := { s.wallet with tempVerkey := some verkey } }.goOn
      (.submit (codec.keyText verkey))

/-! ### The command -/

/-- A key of the wallet as it is compared with the text on the ledger. -/
def comparable (ledgerVerkey : String) (key : PublicKey) : IndyResult String :=
  if (abbreviated ledgerVerkey).isSome then
    abbreviateVerkey codec.base58 (codec.didText did) (codec.keyText key)
  else .ok (codec.keyText key)

def resume (ledgerVerkey : Option (Option String)) : Report × Rotation :=
  match s.wallet.tempVerkey, ledgerVerkey with
  | some tempVerkey, some (some ledgerVerkey) =>
    match comparable codec did ledgerVerkey tempVerkey,
      comparable codec did ledgerVerkey s.wallet.verkey with
    | .ok tempVerkey, .ok currVerkey =>
      if ledgerVerkey = tempVerkey then s.goOn (.apply tempVerkey false)
      else if ledgerVerkey = currVerkey then s.goOn (.submit tempVerkey)
      else s.fail
    | _, _ => s.fail
  | _, _ => s.fail

/-- The request is signed with the key that the wallet has for the DID. -/
def submit (newVerkey : String) (submission : Submission) : Report × Rotation :=
  match buildNymRequest (codec.didText did) (some newVerkey) none s.wallet.verkey, submission with
  | .ok _, .refused => s.fail
  | .ok nym, .delayed => { s with inFlight := s.inFlight ++ [nym] }.fail
  | .ok nym, .received abbreviated replied =>
    match s.ledger.receive codec did nym abbreviated with
    | none => s.fail
    | some ledger =>
      let s := { s with ledger }
      if replied then s.goOn (.apply newVerkey true) else s.fail
  | _, _ => s.fail

/-! ### `replace_keys_apply` -/

def updateDid (newVerkey : String) (stored : Bool) : Report × Rotation :=
  match validateDid codec.base58 (codec.didText did), s.wallet.tempVerkey with
  | .ok (), some tempVerkey =>
    if stored then
      { s with wallet := { s.wallet with verkey := tempVerkey }, switched := true }.goOn
        (.deleteTemporaryDid newVerkey)
    else s.fail
  | _, _ => s.fail

def deleteTemporaryDid (newVerkey : String) (stored : Bool) : Report × Rotation :=
  if stored then
    { s with wallet := { s.wallet with tempVerkey := none } }.goOn (.report newVerkey)
  else s.fail

/-- The new key is abbreviated once more for the message. -/
def report (newVerkey : String) : Report × Rotation :=
  match abbreviateVerkey codec.base58 (codec.didText did) newVerkey with
  | .ok _ => (some true, { s with phase := .idle })
  | _ => s.fail

def proceed (stored : Bool) (submission : Submission) : Report × Rotation :=
  match s.phase with
  | .idle => (none, s)
  | .addTemporaryDid verkey => s.addTemporaryDid codec verkey stored
  | .submit newVerkey => s.submit codec did newVerkey submission
  | .apply newVerkey _ => s.updateDid codec did newVerkey stored
  | .deleteTemporaryDid newVerkey => s.deleteTemporaryDid newVerkey stored
  | .report newVerkey => s.report codec did newVerkey

/-- A delayed request reaches the ledger. -/
def deliver (nym : ℕ) (abbreviated : Bool) : Rotation :=
  match s.inFlight[nym]? with
  | none => s
  | some request =>
    let s := { s with inFlight := s.inFlight.eraseIdx nym }
    match s.ledger.receive codec did request abbreviated with
    | none => s
    | some ledger => { s with ledger }

def begin : Rotation := { s with switched := false }

end Rotation

/-- One command runs at a time. -/
def Event.step (s : Rotation) : Event → Report × Rotation
  | .rotate verkey stored =>
    if s.phase = .idle then s.begin.replaceKeysStart codec did verkey stored else (none, s)
  | .resume ledgerVerkey =>
    if s.phase = .idle then s.begin.resume codec did ledgerVerkey else (none, s)
  | .proceed stored submission => s.proceed codec did stored submission
  | .kill => (none, { s with phase := .idle })
  | .deliver nym abbreviated => (none, s.deliver codec did nym abbreviated)

def rotateKeyCommand : Machine Rotation Event Report := ⟨fun event s => event.step codec did s⟩

end IndySdk.KeyRotation
