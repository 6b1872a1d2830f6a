import IndySdk.ChunkedCipher
import IndySdk.WalletRuns

/-!
# Export files of wallets

An export file is a header in plaintext and a stream of sealed chunks: the hash of the header, the
records, each after its length, and a zero length. The lengths are written in four bytes. An import
reads the header to find its key, opens the stream and adds record after record to a wallet until
it reads a zero length.
-/

namespace IndySdk.Wallet

open LittleEndian Outcome
open Chacha20Poly1305Ietf (IoErrorKind Reader Writer)

def hashBytes : ℕ := 32

inductive KeyDerivationMethod where
  | raw | argon2iMod | argon2iInt
  deriving DecidableEq, Repr

inductive EncryptionMethod where
  | chaCha20Poly1305IETF (salt nonce : Bytes) (chunkSize : ℕ)
  | chaCha20Poly1305IETFInteractive (salt nonce : Bytes) (chunkSize : ℕ)
  | chaCha20Poly1305IETFRaw (nonce : Bytes) (chunkSize : ℕ)
  deriving DecidableEq

structure Header where
  encryptionMethod : EncryptionMethod
  time : ℕ
  version : ℕ
  deriving DecidableEq

structure ExportRecord where
  type : String
  id : String
  value : String
  tags : AssocMap String String

structure Salt (size : ℕ) where
  bytes : Bytes
  length_eq : bytes.length = size

/-- What third-party libraries do for exports: hashes, keys from passphrases, and encodings. -/
structure ExportCrates where
  saltBytes : ℕ
  hash : Bytes → Bytes
  length_hash : ∀ b, (hash b).length = hashBytes
  base58 : String → Option Bytes
  pwhash : KeyDerivationMethod → Bytes → Salt saltBytes → Option Key
  headerToVec : Header → Option Bytes
  headerFromSlice : Bytes → Option Header
  recordToVec : ExportRecord → Option Bytes
  recordFromSlice : Bytes → Option ExportRecord

def Nonce.fromSlice (b : Bytes) : IndyResult Nonce :=
  if h : b.length = nonceBytes then .ok ⟨b, h⟩
  else .err (errMsg .invalidStructure "Invalid bytes for _" ["Nonce"])

def Salt.fromSlice {size : ℕ} (b : Bytes) : IndyResult (Salt size) :=
  if h : b.length = size then .ok ⟨b, h⟩
  else .err (errMsg .invalidStructure "Invalid bytes for _" ["Salt"])

inductive KeyDerivationData (saltSize : ℕ) where
  | raw (passphrase : String)
  | argon2iMod (passphrase : String) (salt : Salt saltSize)
  | argon2iInt (passphrase : String) (salt : Salt saltSize)

namespace KeyDerivationData

def passphrase {saltSize : ℕ} : KeyDerivationData saltSize → String
  | .raw passphrase => passphrase
  | .argon2iMod passphrase _ => passphrase
  | .argon2iInt passphrase _ => passphrase

variable (crates : ExportCrates)

def rawMasterKey (passphrase : String) : IndyResult Key := do
  let bytes ← ofOption (errMsg .invalidStructure "Invalid mastery key")
    (crates.base58 passphrase)
  toIndy .invalidStructure "Invalid mastery key" (Key.fromSlice bytes)

def deriveMasterKey (passphrase : String) (salt : Salt crates.saltBytes)
    (method : KeyDerivationMethod) : IndyResult Key :=
  ofOption (errMsg .invalidState "Can't derive key")
    (crates.pwhash method (Bytes.ofText passphrase) salt)

def calcMasterKey : KeyDerivationData crates.saltBytes → IndyResult Key
  | .raw passphrase => rawMasterKey crates passphrase
  | .argon2iInt passphrase salt => deriveMasterKey crates passphrase salt .argon2iInt
  | .argon2iMod passphrase salt => deriveMasterKey crates passphrase salt .argon2iMod

def encryptionMethod {saltSize : ℕ} (nonce : Nonce) (chunkSize : ℕ) :
    KeyDerivationData saltSize → EncryptionMethod
  | .argon2iMod _ salt => .chaCha20Poly1305IETF salt.bytes nonce.bytes chunkSize
  | .argon2iInt _ salt => .chaCha20Poly1305IETFInteractive salt.bytes nonce.bytes chunkSize
  | .raw _ => .chaCha20Poly1305IETFRaw nonce.bytes chunkSize

end KeyDerivationData

def chunkSize : ℕ := 1024

variable (crates : ExportCrates) (wc : WalletCrypto) (keys : Keys) (order : IterationOrder)

/-! ### Exports -/

def exportRecord (record : WalletRecord) : IndyResult Bytes := do
  let type ← ofOption
    (errMsg .invalidState "No type fetched for exported record") record.type
  let value ← ofOption
    (errMsg .invalidState "No value fetched for exported record") record.value
  let tags ← ofOption
    (errMsg .invalidState "No tags fetched for exported record") record.tags
  ofOption (errMsg .invalidState "Can't serialize record")
    (crates.recordToVec ⟨type, record.id, value, tags⟩)

/-- A length as four bytes, and the bytes; a length that does not fit loses its high part. -/
def writeFrame (w : Writer) (bytes : Bytes) : Writer :=
  (w.write wc (encode 4 bytes.length)).write wc bytes

def writeRecords : Writer → List StorageRecord → IndyResult Writer
  | w, [] => .ok w
  | w, stored :: rest => do
    let record ← decryptStorageRecord wc keys stored
    let bytes ← exportRecord crates record
    writeRecords (writeFrame wc w bytes) rest

def exportWith (chunkSize : ℕ) (db : Db) (version : ℕ) (key : Key)
    (keyData : KeyDerivationData crates.saltBytes) (nonce : Nonce) (time : ℕ) :
    IndyResult Bytes := do
  let header ← ofOption
    (errMsg .invalidState "Can't serialize wallet export file header")
    (crates.headerToVec ⟨keyData.encryptionMethod nonce chunkSize, time, version⟩)
  let writer := Writer.new (encode 4 header.length ++ header) key nonce chunkSize
  let writer ← writeRecords crates wc keys (writer.write wc (crates.hash header))
    (SQLiteStorage.getAll order db)
  pure ((writer.write wc (encode 4 0)).flush wc).inner

/-- The nonce is drawn at random and the time is the time of the call. -/
def exportContinue (db : Db) (version : ℕ) (key : Key)
    (keyData : KeyDerivationData crates.saltBytes) (nonce : Nonce) (time : ℕ) :
    IndyResult Bytes :=
  exportWith crates wc keys order chunkSize db version key keyData nonce time

/-! ### Imports -/

def mapIoErr {α : Type} (x : Outcome IoErrorKind α) : IndyResult α :=
  toIndy .invalidStructure "Invalid export file format" x

def readExact (length : ℕ) (input : Bytes) : Outcome IoErrorKind (Bytes × Bytes) :=
  if length ≤ input.length then .ok (input.take length, input.drop length)
  else .err .unexpectedEof

/-- What the plaintext part of a file says, and the rest of the file. -/
structure Preparsed (saltSize : ℕ) where
  reader : Bytes
  keyData : KeyDerivationData saltSize
  nonce : Nonce
  chunkSize : ℕ
  headerBytes : Bytes

def EncryptionMethod.keyDerivationMethod : EncryptionMethod → KeyDerivationMethod
  | .chaCha20Poly1305IETF .. => .argon2iMod
  | .chaCha20Poly1305IETFInteractive .. => .argon2iInt
  | .chaCha20Poly1305IETFRaw .. => .raw

/-- The branch for a raw key of a salted method is not implemented in the source and aborts. -/
def saltedKeyData {saltSize : ℕ} (method : KeyDerivationMethod) (passphrase : String)
    (salt : Salt saltSize) : IndyResult (KeyDerivationData saltSize) :=
  match method with
  | .argon2iInt => .ok (.argon2iInt passphrase salt)
  | .argon2iMod => .ok (.argon2iMod passphrase salt)
  | .raw => .panic

/-- The key data, the nonce and the chunk size that a header names. -/
def importKeyDerivationData {saltSize : ℕ} (passphrase : String) (method : EncryptionMethod) :
    IndyResult (KeyDerivationData saltSize × Nonce × ℕ) :=
  match method with
  | .chaCha20Poly1305IETF salt nonce chunkSize
  | .chaCha20Poly1305IETFInteractive salt nonce chunkSize => do
    let salt ← toIndy .invalidStructure "Invalid salt" (Salt.fromSlice salt)
    let nonce ← toIndy .invalidStructure "Invalid nonce" (Nonce.fromSlice nonce)
    let keyData ← saltedKeyData method.keyDerivationMethod passphrase salt
    pure (keyData, nonce, chunkSize)
  | .chaCha20Poly1305IETFRaw nonce chunkSize => do
    let nonce ← toIndy .invalidStructure "Invalid nonce" (Nonce.fromSlice nonce)
    pure (.raw passphrase, nonce, chunkSize)

def preparseFileToImport (file : Bytes) (passphrase : String) :
    IndyResult (Preparsed crates.saltBytes) := do
  let (length, reader) ← mapIoErr (readExact 4 file)
  if value length = 0 then
    .err (errMsg .invalidStructure "Invalid header length")
  else
    let (headerBytes, reader) ← mapIoErr (readExact (value length) reader)
    let header ← ofOption (errMsg .invalidStructure "Header is malformed json")
      (crates.headerFromSlice headerBytes)
    if header.version ≠ 0 then
      .err (errMsg .invalidStructure "Unsupported version")
    else
      let (keyData, nonce, chunkSize) ←
        importKeyDerivationData passphrase header.encryptionMethod
      pure ⟨reader, keyData, nonce, chunkSize, headerBytes⟩

/-- The next record of the stream, or none at its end. -/
def nextRecord (r : Reader) : IndyResult (Option ExportRecord × Reader) := do
  let (length, r) ← mapIoErr (r.read wc 4)
  if value length = 0 then pure (none, r)
  else
    let (bytes, r) ← mapIoErr (r.read wc (value length))
    let record ← ofOption (errMsg .invalidStructure "Record is malformed msgpack")
      (crates.recordFromSlice bytes)
    pure (some record, r)

theorem mapIoErr_eq_ok {α : Type} {x : Outcome IoErrorKind α} {a : α} :
    mapIoErr x = .ok a ↔ x = .ok a := toIndy_eq_ok

variable {crates wc}

theorem nextRecord_shrinks {r r' : Reader} {record : ExportRecord}
    (h : nextRecord crates wc r = .ok (some record, r')) :
    r'.inner.length < r.inner.length ∨
      (r'.inner.length = r.inner.length ∧ r'.restBuffer.length < r.restBuffer.length) := by
  obtain ⟨⟨length, r₁⟩, hlength, h⟩ := bind_eq_ok_iff.mp h
  dsimp only at h
  split at h
  · cases h
  · obtain ⟨⟨bytes, r₂⟩, hbytes, h⟩ := bind_eq_ok_iff.mp h
    obtain ⟨record', -, h⟩ := bind_eq_ok_iff.mp h
    cases h
    have hfirst := Reader.read_shrinks (mapIoErr_eq_ok.mp hlength)
    have hsecond := Reader.read_shrinks (mapIoErr_eq_ok.mp hbytes)
    dsimp only
    omega

variable (crates wc)

/-- The loop that adds record after record; each is encrypted with random material of its own. -/
def readRecords (random : ℕ → ValueRandomness) (r : Reader) (added : ℕ) (db : Db) :
    IndyResult Unit × Db :=
  match _hnext : nextRecord crates wc r with
  | .err e => (.err e, db)
  | .panic => (.panic, db)
  | .ok (none, _) => (.ok (), db)
  | .ok (some record, r') =>
    match add wc keys record.type record.id record.value record.tags (random added) db with
    | (.ok (), db) => readRecords random r' (added + 1) db
    | (.err e, db) => (.err e, db)
    | (.panic, db) => (.panic, db)
termination_by (r.inner.length, r.restBuffer.length)
decreasing_by
  obtain hlt | ⟨heq, hlt⟩ := nextRecord_shrinks _hnext
  · exact Prod.Lex.left _ _ hlt
  · rw [heq]
    exact Prod.Lex.right _ hlt

/-- The reader behind the hash of the header, which is to be the one of the header that was read. -/
def openStream (overflowChecks : Bool) (key : Key) (p : Preparsed crates.saltBytes) :
    IndyResult Reader := do
  let r ← Reader.new overflowChecks p.reader key p.nonce p.chunkSize
  let (headerHash, r) ← mapIoErr (r.read wc hashBytes)
  if crates.hash p.headerBytes ≠ headerHash then
    .err (errMsg .invalidStructure "Invalid header hash")
  else pure r

def finishImport (overflowChecks : Bool) (random : ℕ → ValueRandomness) (key : Key)
    (p : Preparsed crates.saltBytes) (db : Db) : IndyResult Unit × Db :=
  match openStream crates wc overflowChecks key p with
  | .ok r => readRecords crates wc keys random r 0 db
  | .err e => (.err e, db)
  | .panic => (.panic, db)

/-- The whole import: what the file says in plaintext, the key it names, and the stream. -/
def importFile (overflowChecks : Bool) (random : ℕ → ValueRandomness) (file : Bytes)
    (passphrase : String) (db : Db) : IndyResult Unit × Db :=
  match preparseFileToImport crates file passphrase with
  | .err e => (.err e, db)
  | .panic => (.panic, db)
  | .ok p =>
    match p.keyData.calcMasterKey crates with
    | .ok key => finishImport crates wc keys overflowChecks random key p db
    | .err e => (.err e, db)
    | .panic => (.panic, db)

end IndySdk.Wallet
