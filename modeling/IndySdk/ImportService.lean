import IndySdk.WalletHandles
import IndySdk.WalletImport

/-!
# Imports and the storages they leave

An import creates a storage, opens it and adds the records of the file to it. The database of a
storage has a directory of its own, which goes with everything below it when the storage is deleted.
What a storage answers to a call is an input, and so is what a call that fails leaves of it.
-/

namespace IndySdk.Imports

open Outcome
open Chacha20Poly1305Ietf (Reader)
open Wallet (Db ExportCrates ExportRecord Key Keys KeyDerivationData Nonce Preparsed Store
  ValueRandomness WalletCrypto)
open Wallets (Config attempt)

abbrev Directory := List String

structure Credentials where
  storageCredentials : Option String := none

/-- The registered storage types, with the directories of their storages. -/
structure StorageTypes where
  registered : Finset String
  directory : String → Config → Credentials → IndyResult Directory

inductive Metadata where
  | raw (keys : Bytes)
  | argon (keys masterKeySalt : Bytes)

def Metadata.keys : Metadata → Bytes
  | .raw keys => keys
  | .argon keys _ => keys

/-- How keys and metadata are encoded; decoding undoes it. -/
structure MetadataCrates where
  keysToVec : Keys → Option Bytes
  keysFromSlice : Bytes → Option Keys
  keysFromSlice_toVec : ∀ keys bytes, keysToVec keys = some bytes →
    keysFromSlice bytes = some keys
  metadataToVec : Metadata → Option Bytes
  metadataFromSlice : Bytes → Option Metadata
  metadataFromSlice_toVec : ∀ metadata bytes, metadataToVec metadata = some bytes →
    metadataFromSlice bytes = some metadata

structure Environment where
  types : StorageTypes
  crates : ExportCrates
  metadataCrates : MetadataCrates
  wc : WalletCrypto
  overflowChecks : Bool

/-- What a storage answers during a call; `none` is a success. A creation that fails may leave its
database behind, and a deletion that fails may keep some of the directories. -/
structure Answers where
  createStorage : Option (IndyError × Option Db) := none
  openStorage : Option IndyError := none
  getMetadata : Option IndyError := none
  addRecord : ℕ → Option IndyError := fun _ => none
  deleteStorage : Option (IndyError × (Directory → Bool)) := none

/-- The directories that a deletion keeps although it should not. -/
def Answers.keeps (answers : Answers) (directory : Directory) : Bool :=
  match answers.deleteStorage with
  | none => false
  | some (_, kept) => kept directory

/-- What is drawn at random for a new wallet. -/
structure Randomness where
  keys : Keys
  nonce : Nonce
  values : ℕ → ValueRandomness

structure OpenWallet where
  id : String
  directory : Directory
  keys : Keys

/-- What the first phase has read of a file, and the key data of the wallet to be. -/
structure PendingImport (saltSize : ℕ) where
  preparsed : Preparsed saltSize
  keyData : KeyDerivationData saltSize

variable (env : Environment)

structure WalletService where
  storages : Directory → Option Db := fun _ => none
  wallets : AssocMap ℤ OpenWallet := ∅
  pendingForImport : AssocMap ℤ (PendingImport env.crates.saltBytes) := ∅

/-! ### Keys and metadata -/

def serializeEncrypted (keys : Keys) (masterKey : Key) (nonce : Nonce) : IndyResult Bytes := do
  let serialized ← ofOption (errMsg .invalidState "Unable to serialize keys")
    (env.metadataCrates.keysToVec keys)
  pure (Wallet.encryptAsNotSearchable env.wc serialized masterKey nonce)

def deserializeEncrypted (bytes : Bytes) (masterKey : Key) : IndyResult Keys := do
  let decrypted ← Wallet.decryptMerged env.wc bytes masterKey
  ofOption (errMsg .invalidStructure "Invalid bytes for Key")
    (env.metadataCrates.keysFromSlice decrypted)

def prepareMetadata (masterKey : Key) (keyData : KeyDerivationData env.crates.saltBytes)
    (random : Randomness) : IndyResult Bytes := do
  let encryptedKeys ← serializeEncrypted env random.keys masterKey random.nonce
  let metadata := match keyData with
    | .raw _ => Metadata.raw encryptedKeys
    | .argon2iInt _ salt | .argon2iMod _ salt => Metadata.argon encryptedKeys salt.bytes
  ofOption (errMsg .invalidState "Cannot serialize wallet metadata")
    (env.metadataCrates.metadataToVec metadata)

def restoreKeys (metadata : Metadata) (masterKey : Key) : IndyResult Keys :=
  toIndy .walletAccessFailed "Invalid master key provided"
    (deserializeEncrypted env metadata.keys masterKey)

/-! ### The records of a file -/

/-- The loop that adds record after record to a storage that may refuse any of them. -/
def readRecords (keys : Keys) (random : ℕ → ValueRandomness) (refused : ℕ → Option IndyError)
    (r : Reader) (added : ℕ) (db : Db) : IndyResult Unit × Db :=
  match _hnext : Wallet.nextRecord env.crates env.wc r with
  | .err e => (.err e, db)
  | .panic => (.panic, db)
  | .ok (none, _) => (.ok (), db)
  | .ok (some record, r') =>
    match refused added with
    | some e => (.err e, db)
    | none =>
      match Wallet.add env.wc keys record.type record.id record.value record.tags (random added)
          db with
      | (.ok (), db) => readRecords keys random refused r' (added + 1) db
      | (.err e, db) => (.err e, db)
      | (.panic, db) => (.panic, db)
termination_by (r.inner.length, r.restBuffer.length)
decreasing_by
  obtain hlt | ⟨heq, hlt⟩ := Wallet.nextRecord_shrinks _hnext
  · exact Prod.Lex.left _ _ hlt
  · rw [heq]
    exact Prod.Lex.right _ hlt

def finishImport (random : Randomness) (answers : Answers) (importKey : Key)
    (preparsed : Preparsed env.crates.saltBytes) (db : Db) : IndyResult Unit × Db :=
  match Wallet.openStream env.crates env.wc env.overflowChecks importKey preparsed with
  | .ok r => readRecords env random.keys random.values answers.addRecord r 0 db
  | .err e => (.err e, db)
  | .panic => (.panic, db)

/-! ### The calls of the service -/

def getStorageType (config : Config) : IndyResult String :=
  let storageType := config.storageType.getD "default"
  if storageType ∈ env.types.registered then .ok storageType
  else .err (errMsg .unknownWalletStorageType "Unknown wallet storage type")

/-- The directory of a storage whose type is registered and whose configuration can be read. -/
def getDirectory (config : Config) (credentials : Credentials) : IndyResult Directory := do
  let storageType ← getStorageType env config
  env.types.directory storageType config credentials

namespace WalletService

variable {env} (s : WalletService env)

def isOpen (id : String) : Bool := s.wallets.values.any (fun wallet => wallet.id == id)

def isIdFromConfigNotUsed (config : Config) : IndyResult Unit := do
  config.checkId
  if s.isOpen config.id then
    .err (errMsg .walletAlreadyOpened "Wallet _ already opened" [config.id])
  else .ok ()

def createStorage (directory : Directory) (metadata : Bytes) (answers : Answers) :
    IndyResult Unit × WalletService env :=
  if (s.storages directory).isSome then
    (.err (errMsg .walletAlreadyExists "Wallet database file already exists: _" directory), s)
  else
    match answers.createStorage with
    | none =>
      let db := (Store.create metadata).db
      (.ok (), { s with storages := Function.update s.storages directory (some db) })
    | some (e, none) => (.err e, s)
    | some (e, some left) =>
      (.err e, { s with storages := Function.update s.storages directory (some left) })

/-- What is looked up and prepared before a storage is created: its directory and metadata. -/
def prepareStorage (config : Config) (credentials : Credentials)
    (keyData : KeyDerivationData env.crates.saltBytes) (masterKey : Key) (random : Randomness) :
    IndyResult (Directory × Bytes) := do
  config.checkId
  let storageType ← getStorageType env config
  let metadata ← prepareMetadata env masterKey keyData random
  let directory ← env.types.directory storageType config credentials
  pure (directory, metadata)

def createWallet (config : Config) (credentials : Credentials)
    (keyData : KeyDerivationData env.crates.saltBytes) (masterKey : Key) (random : Randomness)
    (answers : Answers) : IndyResult Unit × WalletService env :=
  match prepareStorage config credentials keyData masterKey random with
  | .err e => (.err e, s)
  | .panic => (.panic, s)
  | .ok (directory, metadata) => s.createStorage directory metadata answers

def openStorage (config : Config) (credentials : Credentials) (answers : Answers) :
    IndyResult (Directory × Db) := do
  let directory ← getDirectory env config credentials
  let db ← ofOption (errMsg .walletNotFound "No wallet database exists")
    (s.storages directory)
  attempt answers.openStorage
  pure (directory, db)

/-- The directory of the database is removed with all that is in it. -/
def deleteStorage (directory : Directory) (answers : Answers) :
    IndyResult Unit × WalletService env :=
  if (s.storages directory).isSome then
    let storages := fun d => if directory <+: d ∧ !answers.keeps d then none else s.storages d
    (attempt (answers.deleteStorage.map Prod.fst), { s with storages })
  else
    (.err (errMsg .walletNotFound "Wallet storage file isn't found: _" directory), s)

def deleteWalletContinue (config : Config) (credentials : Credentials) (metadata : Metadata)
    (masterKey : Key) (answers : Answers) : IndyResult Unit × WalletService env :=
  let directory : IndyResult Directory := do
    let _ ← restoreKeys env metadata masterKey
    getDirectory env config credentials
  match directory with
  | .err e => (.err e, s)
  | .panic => (.panic, s)
  | .ok directory => s.deleteStorage directory answers

def importWalletPrepare (walletHandle : ℤ) (file : IndyResult Bytes) (passphrase : String)
    (keyData : KeyDerivationData env.crates.saltBytes) : IndyResult (WalletService env) := do
  let file ← file
  let preparsed ← Wallet.preparseFileToImport env.crates file passphrase
  pure { s with
    pendingForImport := s.pendingForImport.insert walletHandle ⟨preparsed, keyData⟩ }

/-- The storage of a new wallet, opened to read its metadata and to add records. -/
def openCreated (config : Config) (credentials : Credentials) (answers : Answers) :
    IndyResult (Directory × Db) := do
  s.isIdFromConfigNotUsed config
  let (directory, db) ← s.openStorage config credentials answers
  attempt answers.getMetadata
  pure (directory, db)

/-- The clean-up of an import that has failed, with the metadata that was read before it. -/
def cleanUp (config : Config) (credentials : Credentials) (metadata : Bytes) (masterKey : Key)
    (answers : Answers) (e : IndyError) : IndyResult Unit × WalletService env :=
  match ofOption (errMsg .invalidState "Cannot deserialize metadata")
      (env.metadataCrates.metadataFromSlice metadata) with
  | .err e' => (.err e', s)
  | .panic => (.panic, s)
  | .ok metadata =>
    match s.deleteWalletContinue config credentials metadata masterKey answers with
    | (.ok (), s) => (.err e, s)
    | (.err e', s) => (.err e', s)
    | (.panic, s) => (.panic, s)

/-- An import that nobody has prepared aborts. -/
def importWalletContinue (walletHandle : ℤ) (config : Config) (credentials : Credentials)
    (importKey masterKey : Key) (random : Randomness) (answers : Answers) :
    IndyResult Unit × WalletService env :=
  match s.pendingForImport.lookup walletHandle with
  | none => (.panic, s)
  | some pending =>
    let s := { s with pendingForImport := s.pendingForImport.erase walletHandle }
    match s.createWallet config credentials pending.keyData masterKey random answers with
    | (.err e, s) => (.err e, s)
    | (.panic, s) => (.panic, s)
    | (.ok (), s) =>
      match s.openCreated config credentials answers with
      | .err e => (.err e, s)
      | .panic => (.panic, s)
      | .ok (directory, db) =>
        let (result, filled) := finishImport env random answers importKey pending.preparsed db
        let s := { s with storages := Function.update s.storages directory (some filled) }
        match result with
        | .ok () => (.ok (), s)
        | .panic => (.panic, s)
        | .err e => s.cleanUp config credentials db.metadata masterKey answers e

end WalletService

end IndySdk.Imports
