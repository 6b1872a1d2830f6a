import IndySdk.DidReplies
import IndySdk.Lockstep
import Mathlib.Logic.Function.Basic

/-!
# Resolving DIDs with the help of the ledger

A command that misses a record in the wallet is put aside under a fresh identifier while the ledger
is asked. The acknowledgement stores what the ledger replied and executes the command once more,
while the map of the deferred commands is still borrowed.
-/

namespace IndySdk.DidResolution

open Domain

abbrev WalletHandle := ℤ

structure Did where
  did : String
  verkey : String
  deriving DecidableEq

/-- The records of a wallet that are read and written here, by their names. -/
structure DidWallet where
  dids : String → Option Did
  theirDids : String → Option Crypto.TheirDid
  endpoints : String → Option Endpoint

inductive DidOperation where
  | getMyDid
  | getTheirDid
  | addTheirDid
  | getEndpoint
  | addEndpoint
  deriving DecidableEq

/-- Failures of the storage other than a missing item. -/
structure StorageFailures where
  failure : DidOperation → Option IndyError
  ne_itemNotFound : ∀ op err, failure op = some err → err.kind ≠ .walletItemNotFound

def StorageFailures.none : StorageFailures := ⟨fun _ => Option.none, fun _ _ h => by cases h⟩

inductive Answer where
  | key (verkey : String)
  | endpoint (ha : String) (verkey : Option String)
  deriving DecidableEq

inductive DidCommand where
  | keyForDid (poolHandle : ℤ) (walletHandle : WalletHandle) (did : String) (cb : ℕ)
  | getEndpointForDid (walletHandle : WalletHandle) (poolHandle : ℤ) (did : String) (cb : ℕ)
  deriving DecidableEq

namespace DidCommand

def cb : DidCommand → ℕ
  | keyForDid _ _ _ cb | getEndpointForDid _ _ _ cb => cb

def did : DidCommand → String
  | keyForDid _ _ did _ | getEndpointForDid _ _ did _ => did

def walletHandle : DidCommand → WalletHandle
  | keyForDid _ walletHandle _ _ | getEndpointForDid walletHandle _ _ _ => walletHandle

end DidCommand

inductive LedgerQuery where
  | getNym (dest : String)
  | getAttrib (dest raw : String)
  deriving DecidableEq

inductive AckKind where
  | getNymAck
  | getAttribAck
  deriving DecidableEq

/-- The acknowledgement that is sent with the result of a request. -/
structure Ack where
  kind : AckKind
  walletHandle : WalletHandle
  deferredCmdId : ℤ
  deriving DecidableEq

inductive Effect where
  | callback (cb : ℕ) (answer : Except IndyError Answer)
  | submitRequest (poolHandle : ℤ) (query : LedgerQuery) (ack : Ack)

structure DidExecutor where
  wallets : WalletHandle → Option DidWallet
  deferredCommands : AssocMap ℤ DidCommand
  panicked : Bool

abbrev Executed := List Effect × DidExecutor

namespace DidExecutor

def panic (s : DidExecutor) : Executed := ([], { s with panicked := true })

def call (s : DidExecutor) (cb : ℕ) (answer : Except IndyError Answer) : Executed :=
  ([.callback cb answer], s)

def setWallet (s : DidExecutor) (handle : WalletHandle) (wallet : DidWallet) : DidExecutor :=
  { s with wallets := Function.update s.wallets handle (some wallet) }

/-- Put a command aside; a map that is already borrowed aborts the thread. -/
def deferCommand (s : DidExecutor) (borrowed : Bool) (nextId : ℤ) (cmd : DidCommand)
    (request : Effect) : Executed :=
  if borrowed then s.panic
  else ([request], { s with deferredCommands := s.deferredCommands.insert nextId cmd })

end DidExecutor

section

variable (crates : DidCrates) (storage : StorageFailures) (nextId : ℤ)

def getIndyObject {α : Type} (wallets : WalletHandle → Option DidWallet) (handle : WalletHandle)
    (op : DidOperation) (select : DidWallet → Option α) : Except IndyError α :=
  match wallets handle with
  | none => .error (errMsg .invalidWalletHandle "Unknown wallet handle")
  | some wallet =>
    match storage.failure op, select wallet with
    | some err, _ => .error err
    | none, some object => .ok object
    | none, none => .error (errMsg .walletItemNotFound "Wallet item not found")

def addIndyObject {α : Type} (s : DidExecutor) (handle : WalletHandle) (op : DidOperation)
    (type_ name : String) (select : DidWallet → Option α) (insert : DidWallet → DidWallet) :
    Except IndyError Unit × DidExecutor :=
  match s.wallets handle with
  | none => (.error (errMsg .invalidWalletHandle "Unknown wallet handle"), s)
  | some wallet =>
    match storage.failure op, select wallet with
    | some err, _ => (.error err, s)
    | none, some _ => (.error (errMsg .walletItemAlreadyExists
        "Wallet item already exists with type: _, id: _" [type_, name]), s)
    | none, none => (.ok (), s.setWallet handle (insert wallet))

def DidWallet.insertTheirDid (wallet : DidWallet) (theirDid : Crypto.TheirDid) : DidWallet :=
  { wallet with theirDids := Function.update wallet.theirDids theirDid.did (some theirDid) }

def DidWallet.insertEndpoint (wallet : DidWallet) (did : String) (endpoint : Endpoint) :
    DidWallet :=
  { wallet with endpoints := Function.update wallet.endpoints did (some endpoint) }

def addTheirDid (s : DidExecutor) (handle : WalletHandle) (theirDid : Crypto.TheirDid) :
    Except IndyError Unit × DidExecutor :=
  addIndyObject storage s handle .addTheirDid "Indy::TheirDid" theirDid.did
    (fun wallet => wallet.theirDids theirDid.did) (fun wallet => wallet.insertTheirDid theirDid)

def addEndpoint (s : DidExecutor) (handle : WalletHandle) (did : String) (endpoint : Endpoint) :
    Except IndyError Unit × DidExecutor :=
  addIndyObject storage s handle .addEndpoint "Indy::Endpoint" did
    (fun wallet => wallet.endpoints did) (fun wallet => wallet.insertEndpoint did endpoint)

def fetchTheirDidFromLedger (s : DidExecutor) (borrowed : Bool) (walletHandle : WalletHandle)
    (poolHandle : ℤ) (did : String) (deferredCmd : DidCommand) : Executed :=
  s.deferCommand borrowed nextId deferredCmd
    (.submitRequest poolHandle (.getNym did) ⟨.getNymAck, walletHandle, nextId⟩)

def fetchAttribFromLedger (s : DidExecutor) (borrowed : Bool) (walletHandle : WalletHandle)
    (poolHandle : ℤ) (did : String) (deferredCmd : DidCommand) : Executed :=
  s.deferCommand borrowed nextId deferredCmd
    (.submitRequest poolHandle (.getAttrib did "endpoint") ⟨.getAttribAck, walletHandle, nextId⟩)

def keyForDid (s : DidExecutor) (borrowed : Bool) (poolHandle : ℤ) (walletHandle : WalletHandle)
    (did : String) (cb : ℕ) : Executed :=
  match Crypto.validateDid crates.base58 did with
  | .err err => s.call cb (.error err)
  | .panic => s.panic
  | .ok _ =>
    match getIndyObject storage s.wallets walletHandle .getMyDid
      (fun wallet => wallet.dids did) with
    | .ok myDid => s.call cb (.ok (.key myDid.verkey))
    | .error err =>
      if err.kind = .walletItemNotFound then
        match getIndyObject storage s.wallets walletHandle .getTheirDid
          (fun wallet => wallet.theirDids did) with
        | .ok theirDid => s.call cb (.ok (.key theirDid.verkey))
        | .error err =>
          if err.kind = .walletItemNotFound then
            fetchTheirDidFromLedger nextId s borrowed walletHandle poolHandle did
              (.keyForDid poolHandle walletHandle did cb)
          else s.call cb (.error err)
      else s.call cb (.error err)

def getEndpointForDid (s : DidExecutor) (borrowed : Bool) (walletHandle : WalletHandle)
    (poolHandle : ℤ) (did : String) (cb : ℕ) : Executed :=
  match Crypto.validateDid crates.base58 did with
  | .err err => s.call cb (.error err)
  | .panic => s.panic
  | .ok _ =>
    match getIndyObject storage s.wallets walletHandle .getEndpoint
      (fun wallet => wallet.endpoints did) with
    | .ok endpoint => s.call cb (.ok (.endpoint endpoint.ha endpoint.verkey))
    | .error err =>
      if err.kind = .walletItemNotFound then
        fetchAttribFromLedger nextId s borrowed walletHandle poolHandle did
          (.getEndpointForDid walletHandle poolHandle did cb)
      else s.call cb (.error err)

def execute (s : DidExecutor) (borrowed : Bool) : DidCommand → Executed
  | .keyForDid poolHandle walletHandle did cb =>
    keyForDid crates storage nextId s borrowed poolHandle walletHandle did cb
  | .getEndpointForDid walletHandle poolHandle did cb =>
    getEndpointForDid crates storage nextId s borrowed walletHandle poolHandle did cb

/-- The command is taken out of the map, which stays borrowed until the command has returned. -/
def executeDeferredCommand (s : DidExecutor) (deferredCmdId : ℤ) (err : Option IndyError) :
    Executed :=
  match s.deferredCommands.lookup deferredCmdId with
  | none => ([], s)
  | some cmd =>
    let s := { s with deferredCommands := s.deferredCommands.erase deferredCmdId }
    match err with
    | some err => s.call cmd.cb (.error err)
    | none => execute crates storage nextId s true cmd

/-- Continue with the deferred command after an acknowledgement has been handled. -/
def acknowledged (deferredCmdId : ℤ) : Except IndyError Unit × DidExecutor → Executed
  | (.ok _, s) => executeDeferredCommand crates storage nextId s deferredCmdId none
  | (.error err, s) => executeDeferredCommand crates storage nextId s deferredCmdId (some err)

def getNymAck (s : DidExecutor) (walletHandle : WalletHandle)
    (getNymReplyResult : Except IndyError String) (deferredCmdId : ℤ) : Executed :=
  match getNymReplyResult with
  | .error err => acknowledged crates storage nextId deferredCmdId (.error err, s)
  | .ok getNymReply =>
    match theirDidOfReply crates getNymReply with
    | .panic => s.panic
    | .err err => acknowledged crates storage nextId deferredCmdId (.error err, s)
    | .ok theirDid =>
      acknowledged crates storage nextId deferredCmdId (addTheirDid storage s walletHandle theirDid)

def getAttribAck (s : DidExecutor) (walletHandle : WalletHandle)
    (getAttribReplyResult : Except IndyError String) (deferredCmdId : ℤ) : Executed :=
  match getAttribReplyResult with
  | .error err => acknowledged crates storage nextId deferredCmdId (.error err, s)
  | .ok getAttribReply =>
    match endpointOfReply crates getAttribReply with
    | .panic => s.panic
    | .err err => acknowledged crates storage nextId deferredCmdId (.error err, s)
    | .ok (did, endpoint) =>
      acknowledged crates storage nextId deferredCmdId
        (addEndpoint storage s walletHandle did endpoint)

def deliver (s : DidExecutor) (ack : Ack) (result : Except IndyError String) : Executed :=
  match ack.kind with
  | .getNymAck => getNymAck crates storage nextId s ack.walletHandle result ack.deferredCmdId
  | .getAttribAck => getAttribAck crates storage nextId s ack.walletHandle result ack.deferredCmdId

end

/-! ### The executor and the requests in flight -/

structure DidSystem where
  executor : DidExecutor
  inFlight : List Ack

inductive DidEvent where
  | command (cmd : DidCommand)
  /-- The ledger answers one of the requests in flight. -/
  | reply (i : ℕ) (result : Except IndyError String)

/-- An event, with the next identifier of the library and the failures of the storage. -/
structure DidInput where
  event : DidEvent
  nextId : ℤ
  storage : StorageFailures

def acks (effects : List Effect) : List Ack :=
  effects.filterMap (fun effect => match effect with
    | .submitRequest _ _ ack => some ack
    | .callback _ _ => none)

def DidSystem.after (inFlight : List Ack) (executed : Executed) : List Effect × DidSystem :=
  (executed.1, ⟨executed.2, inFlight ++ acks executed.1⟩)

def didMachine (crates : DidCrates) : Machine DidSystem DidInput (List Effect) where
  step input s :=
    if s.executor.panicked then ([], s)
    else
      match input.event with
      | .command cmd =>
        DidSystem.after s.inFlight
          (execute crates input.storage input.nextId s.executor false cmd)
      | .reply i result =>
        match s.inFlight[i]? with
        | none => ([], s)
        | some ack =>
          DidSystem.after (s.inFlight.eraseIdx i)
            (deliver crates input.storage input.nextId s.executor ack result)

end IndySdk.DidResolution
