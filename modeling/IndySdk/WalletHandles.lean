import IndySdk.AssocMap
import IndySdk.Errors
import IndySdk.Lockstep
import IndySdk.Occupancy

/-!
# Wallets opened and deleted in two phases

Opening, deleting and importing a wallet begin with checks, derive keys on another thread, and
continue when the keys are there; the continuations of several commands come in any order. A wallet
storage lives at a location of its own. What the storages, the files and the keys answer during one
call is an input, except that a storage is created only where there is none and opened or deleted
only where there is one.
-/

namespace IndySdk.Wallets

structure Config where
  id : String
  storageType : Option String := none
  storageConfig : Option String := none

def Config.checkId (config : Config) : IndyResult Unit :=
  if config.id.isEmpty then .err (errMsg .invalidStructure "Wallet id is empty") else .ok ()

/-- The registered storage types, with the locations of their storages. -/
structure StorageTypes where
  registered : Finset String
  location : String → Config → String

/-- What is answered during a call; `none` is a success. -/
structure Answers where
  keys : Option IndyError := none
  rekey : Option IndyError := none
  createStorage : Option IndyError := none
  openStorage : Option IndyError := none
  closeStorage : Option IndyError := none
  deleteStorage : Option IndyError := none
  getMetadata : Option IndyError := none
  metadataReadable : Outcome Unit Unit := .ok ()
  setMetadata : Option IndyError := none
  keyDerivationData : Option IndyError := none
  openFile : Option IndyError := none
  preparseFile : Option IndyError := none
  finishImport : Option IndyError := none

def attempt : Option IndyError → IndyResult Unit
  | none => .ok ()
  | some e => .err e

@[simp] theorem attempt_eq_ok {e : Option IndyError} {u : Unit} :
    attempt e = .ok u ↔ e = none := by
  cases e with
  | none => exact iff_of_true rfl rfl
  | some e => exact iff_of_false (Outcome.err_ne_ok e u) (Option.some_ne_none e)

structure OpenWallet where
  id : String
  storage : String
  deriving DecidableEq

/-- A wallet whose opening waits for its keys, and whether its master key is to be changed. -/
structure PendingOpen where
  id : String
  storage : String
  rekey : Bool

structure WalletService where
  storages : Finset String := ∅
  wallets : AssocMap ℤ OpenWallet := ∅
  pendingForOpen : AssocMap ℤ PendingOpen := ∅
  pendingForImport : Finset ℤ := ∅

variable (types : StorageTypes)

def getStorageLocation (config : Config) : IndyResult String :=
  let storageType := config.storageType.getD "default"
  if storageType ∈ types.registered then .ok (types.location storageType config)
  else .err (errMsg .unknownWalletStorageType "Unknown wallet storage type")

/-- The master key of the metadata opens the keys, which a change of master key stores again. -/
def restoreKeys (rekey : Bool) (answers : Answers) : IndyResult Unit := do
  attempt answers.keys
  if rekey then
    attempt answers.rekey
    attempt answers.setMetadata

namespace WalletService

variable (s : WalletService)

def isOpen (id : String) : Bool := s.wallets.values.any (fun wallet => wallet.id == id)

def isIdFromConfigNotUsed (config : Config) : IndyResult Unit := do
  config.checkId
  if s.isOpen config.id then
    .err (errMsg .walletAlreadyOpened "Wallet _ already opened" [config.id])
  else .ok ()

/-! The storages report what is missing or there already as the default storage does. -/

def createStorageAt (storage : String) (answers : Answers) : IndyResult Unit :=
  if storage ∈ s.storages then
    .err (errMsg .walletAlreadyExists "Wallet database file already exists: _" [storage])
  else attempt answers.createStorage

def openStorageAt (storage : String) (answers : Answers) : IndyResult Unit :=
  if storage ∈ s.storages then attempt answers.openStorage
  else .err (errMsg .walletNotFound "No wallet database exists")

def deleteStorageAt (storage : String) (answers : Answers) : IndyResult Unit :=
  if storage ∈ s.storages then attempt answers.deleteStorage
  else .err (errMsg .walletNotFound "Wallet storage file isn't found: _" [storage])

def openStorage (config : Config) (answers : Answers) : IndyResult String := do
  let storage ← getStorageLocation types config
  s.openStorageAt storage answers
  pure storage

def openStorageAndFetchMetadata (config : Config) (answers : Answers) : IndyResult String := do
  let storage ← s.openStorage types config answers
  attempt answers.getMetadata
  toIndy .invalidState "Cannot deserialize metadata" answers.metadataReadable
  attempt answers.keyDerivationData
  pure storage

def createWallet (config : Config) (answers : Answers) : IndyResult WalletService := do
  config.checkId
  let storage ← getStorageLocation types config
  attempt answers.keys
  s.createStorageAt storage answers
  pure { s with storages := insert storage s.storages }

def deleteWalletPrepare (config : Config) (answers : Answers) : IndyResult Unit := do
  if s.isOpen config.id then
    .err (errMsg .invalidState "Wallet has to be closed before deleting: _" [config.id])
  else pure ()
  let _ ← s.openStorageAndFetchMetadata types config answers

/-- The open wallets are not looked at again. -/
def deleteWalletContinue (config : Config) (answers : Answers) : IndyResult WalletService := do
  restoreKeys false answers
  let storage ← getStorageLocation types config
  s.deleteStorageAt storage answers
  pure { s with storages := s.storages.erase storage }

def openWalletPrepare (config : Config) (rekey : Bool) (walletHandle : ℤ) (answers : Answers) :
    IndyResult WalletService := do
  s.isIdFromConfigNotUsed config
  let storage ← s.openStorageAndFetchMetadata types config answers
  pure { s with
    pendingForOpen := s.pendingForOpen.insert walletHandle ⟨config.id, storage, rekey⟩ }

/-- The id of the wallet is not looked for again. -/
def openWalletContinue (walletHandle : ℤ) (rekey : Bool) (answers : Answers) :
    IndyResult ℤ × WalletService :=
  match s.pendingForOpen.lookup walletHandle with
  | none => (.err (errMsg .invalidState "Open data not found"), s)
  | some pending =>
    let s := { s with pendingForOpen := s.pendingForOpen.erase walletHandle }
    match restoreKeys (rekey && pending.rekey) answers with
    | .err e => (.err e, s)
    | .panic => (.panic, s)
    | .ok () =>
      (.ok walletHandle,
        { s with wallets := s.wallets.insert walletHandle ⟨pending.id, pending.storage⟩ })

def closeWallet (handle : ℤ) (answers : Answers) : IndyResult Unit × WalletService :=
  if handle ∈ s.wallets then
    (attempt answers.closeStorage, { s with wallets := s.wallets.erase handle })
  else (.err (errMsg .invalidWalletHandle "Unknown wallet handle"), s)

def importWalletPrepare (walletHandle : ℤ) (answers : Answers) : IndyResult WalletService := do
  attempt answers.openFile
  attempt answers.preparseFile
  pure { s with pendingForImport := insert walletHandle s.pendingForImport }

/-- An import that fails deletes the storage it has created. -/
def importWalletContinue (walletHandle : ℤ) (config : Config) (answers : Answers) :
    IndyResult Unit × WalletService :=
  if walletHandle ∈ s.pendingForImport then
    let s := { s with pendingForImport := s.pendingForImport.erase walletHandle }
    match s.createWallet types config answers with
    | .err e => (.err e, s)
    | .panic => (.panic, s)
    | .ok created =>
      let opened : IndyResult Unit := do
        created.isIdFromConfigNotUsed config
        let _ ← created.openStorage types config answers
        attempt answers.getMetadata
      match opened, answers.finishImport with
      | .err e, _ => (.err e, created)
      | .panic, _ => (.panic, created)
      | .ok (), none => (.ok (), created)
      | .ok (), some e =>
        let deleted : IndyResult WalletService := do
          toIndy .invalidState "Cannot deserialize metadata" answers.metadataReadable
          created.deleteWalletContinue types config answers
        match deleted with
        | .err e' => (.err e', created)
        | .panic => (.panic, created)
        | .ok s' => (.err e, s')
  else (.panic, s)

end WalletService

/-! ### The executor of the wallet commands -/

/-- A command that waits for its keys. -/
inductive Job where
  | create (config : Config) (cbId : ℤ)
  | opening (walletHandle : ℤ) (rekey : Bool)
  | delete (config : Config) (cbId : ℤ)
  | importing (config : Config) (walletHandle cbId : ℤ)

structure Executor where
  walletService : WalletService := {}
  openCallbacks : AssocMap ℤ ℕ := ∅
  pendingCallbacks : AssocMap ℤ ℕ := ∅
  jobs : List Job := []

inductive Command where
  | create (config : Config) (cbId : ℤ) (cb : ℕ)
  | openWallet (config : Config) (rekey : Bool) (walletHandle : ℤ) (answers : Answers) (cb : ℕ)
  | close (walletHandle : ℤ) (answers : Answers) (cb : ℕ)
  | delete (config : Config) (cbId : ℤ) (answers : Answers) (cb : ℕ)
  | importWallet (config : Config) (walletHandle cbId : ℤ) (answers : Answers) (cb : ℕ)
  | keysDerived (job : ℕ) (keyResult : Option IndyError) (answers : Answers)

inductive Reply where
  | nothing
  | called (cb : ℕ) (result : IndyResult (Option ℤ))
  | panicked

def Reply.ofUnit (cb : ℕ) (result : IndyResult Unit) : Reply :=
  .called cb ((fun _ => none) <$> result)

namespace Executor

variable (s : Executor)

def create (config : Config) (cbId : ℤ) (cb : ℕ) : Reply × Executor :=
  (.nothing, { s with
    pendingCallbacks := s.pendingCallbacks.insert cbId cb
    jobs := s.jobs ++ [.create config cbId] })

def openWallet (config : Config) (rekey : Bool) (walletHandle : ℤ) (answers : Answers) (cb : ℕ) :
    Reply × Executor :=
  match s.walletService.openWalletPrepare types config rekey walletHandle answers with
  | .err e => (.called cb (.err e), s)
  | .panic => (.panicked, s)
  | .ok walletService =>
    (.nothing, { s with
      walletService
      openCallbacks := s.openCallbacks.insert walletHandle cb
      jobs := s.jobs ++ [.opening walletHandle rekey] })

def close (walletHandle : ℤ) (answers : Answers) (cb : ℕ) : Reply × Executor :=
  let (result, walletService) := s.walletService.closeWallet walletHandle answers
  (.ofUnit cb result, { s with walletService })

def delete (config : Config) (cbId : ℤ) (answers : Answers) (cb : ℕ) : Reply × Executor :=
  match s.walletService.deleteWalletPrepare types config answers with
  | .err e => (.called cb (.err e), s)
  | .panic => (.panicked, s)
  | .ok () =>
    (.nothing, { s with
      pendingCallbacks := s.pendingCallbacks.insert cbId cb
      jobs := s.jobs ++ [.delete config cbId] })

def importWallet (config : Config) (walletHandle cbId : ℤ) (answers : Answers) (cb : ℕ) :
    Reply × Executor :=
  match s.walletService.importWalletPrepare walletHandle answers with
  | .err e => (.called cb (.err e), s)
  | .panic => (.panicked, s)
  | .ok walletService =>
    (.nothing, { s with
      walletService
      pendingCallbacks := s.pendingCallbacks.insert cbId cb
      jobs := s.jobs ++ [.importing config walletHandle cbId] })

/-- The callback of a waiting command, which is taken out. -/
def getCb (cbId : ℤ) : Option (ℕ × Executor) :=
  (s.pendingCallbacks.lookup cbId).map
    (fun cb => (cb, { s with pendingCallbacks := s.pendingCallbacks.erase cbId }))

/-- A call that gives the service it leaves behind, or an error and leaves it alone. -/
def finish (cb : ℕ) : IndyResult WalletService → Reply × Executor
  | .err e => (.called cb (.err e), s)
  | .panic => (.panicked, s)
  | .ok walletService => (.called cb (.ok none), { s with walletService })

def createContinue (cbId : ℤ) (config : Config) (keyResult : Option IndyError)
    (answers : Answers) : Reply × Executor :=
  match s.getCb cbId, keyResult with
  | none, _ => (.nothing, s)
  | some (cb, s), some e => (.called cb (.err e), s)
  | some (cb, s), none => s.finish cb (s.walletService.createWallet types config answers)

def openContinue (walletHandle : ℤ) (rekey : Bool) (keyResult : Option IndyError)
    (answers : Answers) : Reply × Executor :=
  match s.openCallbacks.lookup walletHandle with
  | none => (.panicked, s)
  | some cb =>
    let s := { s with openCallbacks := s.openCallbacks.erase walletHandle }
    match keyResult with
    | some e => (.called cb (.err e), s)
    | none =>
      let (result, walletService) := s.walletService.openWalletContinue walletHandle rekey answers
      (.called cb (some <$> result), { s with walletService })

def deleteContinue (cbId : ℤ) (config : Config) (keyResult : Option IndyError)
    (answers : Answers) : Reply × Executor :=
  match s.getCb cbId, keyResult with
  | none, _ => (.nothing, s)
  | some (cb, s), some e => (.called cb (.err e), s)
  | some (cb, s), none => s.finish cb (s.walletService.deleteWalletContinue types config answers)

def importContinue (cbId walletHandle : ℤ) (config : Config) (keyResult : Option IndyError)
    (answers : Answers) : Reply × Executor :=
  match s.getCb cbId, keyResult with
  | none, _ => (.nothing, s)
  | some (cb, s), some e => (.called cb (.err e), s)
  | some (cb, s), none =>
    let (result, walletService) :=
      s.walletService.importWalletContinue types walletHandle config answers
    (.ofUnit cb result, { s with walletService })

/-- The keys of a waiting command are there, or their derivation has failed. -/
def keysDerived (job : ℕ) (keyResult : Option IndyError) (answers : Answers) : Reply × Executor :=
  let rest := { s with jobs := s.jobs.eraseIdx job }
  match s.jobs[job]? with
  | none => (.nothing, s)
  | some (.create config cbId) => rest.createContinue types cbId config keyResult answers
  | some (.opening walletHandle rekey) => rest.openContinue walletHandle rekey keyResult answers
  | some (.delete config cbId) => rest.deleteContinue types cbId config keyResult answers
  | some (.importing config walletHandle cbId) =>
    rest.importContinue types cbId walletHandle config keyResult answers

end Executor

def Command.execute (s : Executor) : Command → Reply × Executor
  | .create config cbId cb => s.create config cbId cb
  | .openWallet config rekey walletHandle answers cb =>
    s.openWallet types config rekey walletHandle answers cb
  | .close walletHandle answers cb => s.close walletHandle answers cb
  | .delete config cbId answers cb => s.delete types config cbId answers cb
  | .importWallet config walletHandle cbId answers cb =>
    s.importWallet config walletHandle cbId answers cb
  | .keysDerived job keyResult answers => s.keysDerived types job keyResult answers

def walletExecutor : Machine Executor Command Reply := ⟨fun command s => command.execute types s⟩

end IndySdk.Wallets
