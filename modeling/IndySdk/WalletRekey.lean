import IndySdk.DidReplies
import IndySdk.ImportService

/-!
# Wallets that are opened with a new key

The metadata of a storage are the keys of its records, encrypted with a master key, and the salt
where a passphrase is hashed into it. An opening that is given a new key prepares its key data at
once, waits until both keys are derived, and then writes metadata of the same keys under the new
one. It keeps its connection to the file of the storage while it waits.
-/

namespace IndySdk.Rekeying

open Imports (Directory Metadata MetadataCrates OpenWallet Randomness StorageTypes getDirectory
  prepareMetadata restoreKeys)
open Wallet (Db ExportCrates Key KeyDerivationData KeyDerivationMethod Keys Salt WalletCrypto)
open Wallets (Config attempt)

/-! ### The layouts of metadata -/

def bytesToJson (b : Bytes) : Json := .arr (b.map (fun x => .int x.toNat))

def byteFromJson : Json → Option UInt8
  | .int i => if 0 ≤ i ∧ i < 256 then some (UInt8.ofNat i.toNat) else none
  | _ => none

def bytesFromJson (j : Json) : Option Bytes := j.asArray.bind (fun es => es.mapM byteFromJson)

def metadataToJson : Metadata → Json
  | .raw keys => .obj [("keys", bytesToJson keys)]
  | .argon keys masterKeySalt =>
    .obj [("keys", bytesToJson keys), ("master_key_salt", bytesToJson masterKeySalt)]

def metadataArgonFromJson : Json → Option Metadata
  | .obj members => do
    let keys ← (Domain.uniqueMember "keys" members).bind bytesFromJson
    let masterKeySalt ← (Domain.uniqueMember "master_key_salt" members).bind bytesFromJson
    some (.argon keys masterKeySalt)
  | .arr [keys, masterKeySalt] => do
    let keys ← bytesFromJson keys
    let masterKeySalt ← bytesFromJson masterKeySalt
    some (.argon keys masterKeySalt)
  | _ => none

def metadataRawFromJson : Json → Option Metadata
  | .obj members => ((Domain.uniqueMember "keys" members).bind bytesFromJson).map .raw
  | .arr [keys] => (bytesFromJson keys).map .raw
  | _ => none

/-- The layout with a salt is tried first. -/
def metadataFromJson (j : Json) : Option Metadata :=
  (metadataArgonFromJson j).or (metadataRawFromJson j)

theorem bytesFromJson_toJson (b : Bytes) : bytesFromJson (bytesToJson b) = some b := by
  rw [bytesToJson, bytesFromJson, Json.asArray, Option.bind_some]
  induction b with
  | nil => rfl
  | cons x b ih =>
    have hx : byteFromJson (.int x.toNat) = some x := by
      have hlt : x.toNat < 256 := x.toNat_lt
      rw [byteFromJson, if_pos ⟨Int.natCast_nonneg _, by exact_mod_cast hlt⟩, Int.toNat_natCast,
        UInt8.ofNat_toNat]
    rw [List.map_cons, List.mapM_cons, hx, Option.bind_eq_bind, Option.bind_some, ih]
    rfl

theorem metadataFromJson_toJson (metadata : Metadata) :
    metadataFromJson (metadataToJson metadata) = some metadata := by
  cases metadata with
  | raw keys =>
    simp [metadataFromJson, metadataToJson, metadataArgonFromJson, metadataRawFromJson,
      Domain.uniqueMember, bytesFromJson_toJson]
  | argon keys masterKeySalt =>
    simp [metadataFromJson, metadataToJson, metadataArgonFromJson, Domain.uniqueMember,
      bytesFromJson_toJson]

/-- How keys are packed, and the texts of JSON values. -/
structure Codecs where
  keysToVec : Keys → Option Bytes
  keysFromSlice : Bytes → Option Keys
  keysFromSlice_toVec : ∀ keys bytes, keysToVec keys = some bytes →
    keysFromSlice bytes = some keys
  jsonToVec : Json → Option Bytes
  jsonFromSlice : Bytes → Option Json
  jsonFromSlice_toVec : ∀ metadata bytes, jsonToVec (metadataToJson metadata) = some bytes →
    jsonFromSlice bytes = some (metadataToJson metadata)

def Codecs.metadataCrates (codecs : Codecs) : MetadataCrates where
  keysToVec := codecs.keysToVec
  keysFromSlice := codecs.keysFromSlice
  keysFromSlice_toVec := codecs.keysFromSlice_toVec
  metadataToVec := fun metadata => codecs.jsonToVec (metadataToJson metadata)
  metadataFromSlice := fun bytes => (codecs.jsonFromSlice bytes).bind metadataFromJson
  metadataFromSlice_toVec := by
    intro metadata bytes h
    rw [codecs.jsonFromSlice_toVec metadata bytes h, Option.bind_some, metadataFromJson_toJson]

/-! ### The service -/

structure Environment where
  types : StorageTypes
  crates : ExportCrates
  codecs : Codecs
  wc : WalletCrypto

/-- The same libraries, as the calls on keys and metadata take them. -/
def Environment.base (env : Environment) : Imports.Environment where
  types := env.types
  crates := env.crates
  metadataCrates := env.codecs.metadataCrates
  wc := env.wc
  overflowChecks := true

structure Credentials where
  key : String
  rekey : Option String := none
  storageCredentials : Option String := none
  keyDerivationMethod : KeyDerivationMethod := .argon2iMod
  rekeyDerivationMethod : KeyDerivationMethod := .argon2iMod

def Credentials.storage (credentials : Credentials) : Imports.Credentials :=
  ⟨credentials.storageCredentials⟩

variable (env : Environment)

/-- An opening that waits for its keys, with the file that it is connected to. -/
structure PendingOpen where
  id : String
  directory : Directory
  file : ℕ
  metadata : Metadata
  rekeyData : Option (KeyDerivationData env.crates.saltBytes)

structure WalletService where
  paths : Directory → Option ℕ := fun _ => none
  files : ℕ → Db
  wallets : AssocMap ℤ OpenWallet := ∅
  pendingForOpen : AssocMap ℤ (PendingOpen env) := ∅

/-- What the storage answers; `none` is a success. What is refused changes nothing. -/
structure Answers where
  openStorage : Option IndyError := none
  getMetadata : Option IndyError := none
  setMetadata : Option IndyError := none

def fromPassphraseWithNewSalt (passphrase : String) (derivationMethod : KeyDerivationMethod)
    (salt : Salt env.crates.saltBytes) : KeyDerivationData env.crates.saltBytes :=
  match derivationMethod with
  | .argon2iInt => .argon2iInt passphrase salt
  | .argon2iMod => .argon2iMod passphrase salt
  | .raw => .raw passphrase

def masterKeySaltFromSlice (slice : Bytes) : IndyResult (Salt env.crates.saltBytes) :=
  toIndy .walletAccessFailed "Invalid master key salt" (Wallet.Salt.fromSlice slice)

def fromPassphraseAndMetadata (passphrase : String) (metadata : Metadata)
    (derivationMethod : KeyDerivationMethod) :
    IndyResult (KeyDerivationData env.crates.saltBytes) :=
  match derivationMethod, metadata with
  | .raw, .raw _ => .ok (.raw passphrase)
  | .argon2iInt, .argon _ masterKeySalt =>
    .argon2iInt passphrase <$> masterKeySaltFromSlice env masterKeySalt
  | .argon2iMod, .argon _ masterKeySalt =>
    .argon2iMod passphrase <$> masterKeySaltFromSlice env masterKeySalt
  | _, _ => .err (errMsg .walletAccessFailed
      "Invalid combination of KeyDerivationMethod and Metadata")

/-- The keys of an opening: the new one is derived after the other has been. -/
def deriveKeys (keyData : KeyDerivationData env.crates.saltBytes)
    (rekeyData : Option (KeyDerivationData env.crates.saltBytes)) :
    IndyResult (Key × Option Key) := do
  let key ← keyData.calcMasterKey env.crates
  match rekeyData with
  | none => pure (key, none)
  | some rekeyData =>
    let rekey ← rekeyData.calcMasterKey env.crates
    pure (key, some rekey)

namespace WalletService

variable {env} (s : WalletService env)

def isIdFromConfigNotUsed (config : Config) : IndyResult Unit := do
  config.checkId
  if s.wallets.values.any (fun wallet => wallet.id == config.id) then
    .err (errMsg .walletAlreadyOpened "Wallet _ already opened" [config.id])
  else .ok ()

def openStorageAndFetchMetadata (config : Config) (credentials : Credentials)
    (answers : Answers) :
    IndyResult (Directory × ℕ × Metadata × KeyDerivationData env.crates.saltBytes) := do
  let directory ← getDirectory env.base config credentials.storage
  let file ← Outcome.ofOption (errMsg .walletNotFound "No wallet database exists")
    (s.paths directory)
  attempt answers.openStorage
  attempt answers.getMetadata
  let metadata ← Outcome.ofOption (errMsg .invalidState "Cannot deserialize metadata")
    (env.base.metadataCrates.metadataFromSlice (s.files file).metadata)
  let keyData ← fromPassphraseAndMetadata env credentials.key metadata
    credentials.keyDerivationMethod
  pure (directory, file, metadata, keyData)

def openWalletPrepare (walletHandle : ℤ) (config : Config) (credentials : Credentials)
    (salt : Salt env.crates.saltBytes) (answers : Answers) :
    IndyResult (KeyDerivationData env.crates.saltBytes ×
      Option (KeyDerivationData env.crates.saltBytes) × WalletService env) := do
  s.isIdFromConfigNotUsed config
  let (directory, file, metadata, keyData) ←
    s.openStorageAndFetchMetadata config credentials answers
  let rekeyData := credentials.rekey.map (fun rekey =>
    fromPassphraseWithNewSalt env rekey credentials.rekeyDerivationMethod salt)
  pure (keyData, rekeyData, { s with
    pendingForOpen :=
      s.pendingForOpen.insert walletHandle ⟨config.id, directory, file, metadata, rekeyData⟩ })

/-- The file of a storage is given other metadata, if there are any. -/
def setStorageMetadata (file : ℕ) : Option Bytes → WalletService env
  | some metadata =>
    { s with files := Function.update s.files file { s.files file with metadata } }
  | none => s

/-- The metadata that are written for the new key, if there is one. -/
def rotate (rekey : Option Key) (rekeyData : Option (KeyDerivationData env.crates.saltBytes))
    (keys : Keys) (random : Randomness) (answers : Answers) : IndyResult (Option Bytes) :=
  match rekey, rekeyData with
  | some rekey, some rekeyData => do
    let metadata ← prepareMetadata env.base rekey rekeyData { random with keys }
    attempt answers.setMetadata
    pure (some metadata)
  | _, _ => .ok none

def openWalletContinue (walletHandle : ℤ) (masterKey : Key) (rekey : Option Key)
    (random : Randomness) (answers : Answers) : IndyResult Unit × WalletService env :=
  match s.pendingForOpen.lookup walletHandle with
  | none => (.err (errMsg .invalidState "Open data not found"), s)
  | some pending =>
    let s := { s with pendingForOpen := s.pendingForOpen.erase walletHandle }
    let rotated : IndyResult (Keys × Option Bytes) := do
      let keys ← restoreKeys env.base pending.metadata masterKey
      let metadata ← rotate rekey pending.rekeyData keys random answers
      pure (keys, metadata)
    match rotated with
    | .err e => (.err e, s)
    | .panic => (.panic, s)
    | .ok (keys, metadata) =>
      let s := s.setStorageMetadata pending.file metadata
      (.ok (), { s with
        wallets := s.wallets.insert walletHandle ⟨pending.id, pending.directory, keys⟩ })

/-- The continuation of the executor, which does not ask the service when there are no keys. -/
def openContinue (walletHandle : ℤ) (keyResult : IndyResult (Key × Option Key))
    (random : Randomness) (answers : Answers) : IndyResult Unit × WalletService env :=
  match keyResult with
  | .err e => (.err e, s)
  | .panic => (.panic, s)
  | .ok (key, rekey) => s.openWalletContinue walletHandle key rekey random answers

def closeWallet (walletHandle : ℤ) : IndyResult (WalletService env) :=
  if walletHandle ∈ s.wallets then .ok { s with wallets := s.wallets.erase walletHandle }
  else .err (errMsg .invalidWalletHandle "Unknown wallet handle")

/-- An opening that nothing comes between. -/
def openWallet (walletHandle : ℤ) (config : Config) (credentials : Credentials)
    (salt : Salt env.crates.saltBytes) (random : Randomness) (answers : Answers) :
    IndyResult Unit × WalletService env :=
  match s.openWalletPrepare walletHandle config credentials salt answers with
  | .err e => (.err e, s)
  | .panic => (.panic, s)
  | .ok (keyData, rekeyData, s) =>
    s.openContinue walletHandle (deriveKeys env keyData rekeyData) random answers

end WalletService

end IndySdk.Rekeying
