import IndySdk.DidResolution
import IndySdk.PackedMessage
import IndySdk.Stateful

/-!
# One's own DIDs

A DID of one's own is a record with its verification key, the key pair is another record, and a key
that is to replace it stands in a third record until it is applied. The commands write these records
one after the other, each with its own check.
-/

namespace IndySdk.MyDids

open Crypto Stateful
open DidResolution (Did)

structure MyDidInfo where
  did : Option String
  seed : Option String
  cryptoType : Option String
  cid : Option Bool

structure TemporaryDid where
  did : String
  verkey : String
  deriving DecidableEq

def Did.ofTemporary (tempDid : TemporaryDid) : Did := ⟨tempDid.did, tempDid.verkey⟩

/-- The records of the three types, by their names. -/
structure WalletRecords where
  dids : AssocMap String Did := ∅
  temporaryDids : AssocMap String TemporaryDid := ∅
  keys : AssocMap String Key := ∅

/-- The types of the objects that a wallet stores. -/
class NamedType (α : Type) where
  shortTypeName : String
  records : WalletRecords → AssocMap String α
  setRecords : AssocMap String α → WalletRecords → WalletRecords

instance : NamedType Did where
  shortTypeName := "Did"
  records w := w.dids
  setRecords dids w := { w with dids }

instance : NamedType TemporaryDid where
  shortTypeName := "TemporaryDid"
  records w := w.temporaryDids
  setRecords temporaryDids w := { w with temporaryDids }

instance : NamedType Key where
  shortTypeName := "Key"
  records w := w.keys
  setRecords keys w := { w with keys }

abbrev WalletAction (α : Type) := Stateful WalletRecords IndyError α

/-! ### The wallet service -/

section

variable {α : Type} [NamedType α]

variable (α) in
def addPrefix : String := "Indy::" ++ NamedType.shortTypeName α

def getIndyObject (name : String) (w : WalletRecords) : IndyResult α :=
  Outcome.ofOption (errMsg .walletItemNotFound "Wallet item not found")
    ((NamedType.records w).lookup name)

theorem getIndyObject_eq_ok {name : String} {w : WalletRecords} {a : α} :
    getIndyObject name w = .ok a ↔ (NamedType.records w).lookup name = some a :=
  Outcome.ofOption_eq_ok

variable (α) in
def recordExists (name : String) (w : WalletRecords) : IndyResult Bool :=
  .ok (name ∈ (NamedType.records w : AssocMap String α))

def addIndyObject (name : String) (object : α) : WalletAction Unit := fun w =>
  if name ∈ (NamedType.records w : AssocMap String α) then
    (.err (errMsg .walletItemAlreadyExists "Wallet item already exists with type: _, id: _"
      [addPrefix α, name]), w)
  else (.ok (), NamedType.setRecords ((NamedType.records w).insert name object) w)

def updateIndyObject (name : String) (object : α) : WalletAction Unit := fun w =>
  if name ∈ (NamedType.records w : AssocMap String α) then
    (.ok (), NamedType.setRecords ((NamedType.records w).replace name object) w)
  else (.err (errMsg .walletItemNotFound "Item to update not found"), w)

variable (α) in
def deleteIndyRecord (name : String) : WalletAction Unit := fun w =>
  if name ∈ (NamedType.records w : AssocMap String α) then
    (.ok (), NamedType.setRecords ((NamedType.records w : AssocMap String α).erase name) w)
  else
    (.err (errMsg .walletItemNotFound "Wallet item not found with type: _, id: _"
      [addPrefix α, name]), w)

end

/-! ### The commands -/

variable (crates : PackCrates)

/-- A new DID is a given one, the whole verification key or its first half. -/
def newDid (vk : SignPublicKey) (myDidInfo : MyDidInfo) : IndyResult Bytes :=
  match myDidInfo.did with
  | some did => do
    validateDid crates.codec.base58 did
    decode crates.codec.base58 did
  | none => .ok (if myDidInfo.cid = some true then vk.bytes else vk.bytes.take 16)

def createMyDid (random : Seed) (myDidInfo : MyDidInfo) : IndyResult (Did × Key) := do
  let cryptoTypeName := myDidInfo.cryptoType.getD defaultCryptoType
  knownCryptoType "MyDidInfo contains unknown crypto: _" cryptoTypeName
  let seed ← convertSeed crates myDidInfo.seed
  let pair := crates.sodium.keypairFromSeed (seed.getD random)
  let did ← newDid crates pair.1 myDidInfo
  let key := keyOf crates pair cryptoTypeName
  pure (⟨encode crates.codec.base58 did, key.verkey⟩, key)

def createAndStoreMyDid (random : Seed) (myDidInfo : MyDidInfo) :
    WalletAction (String × String) := do
  let (did, key) ← read (fun _ => createMyDid crates random myDidInfo)
  let found ← read (recordExists Did did.did)
  if found then read (fun _ => .err (errMsg .didAlreadyExists "_" [did.did]))
  else do
    addIndyObject did.did did
    addIndyObject key.verkey key
    pure (did.did, did.verkey)

def replaceKeysStart (random : Seed) (keyInfo : KeyInfo) (myDid : String) :
    WalletAction String := do
  let _ ← read (fun _ => validateDid crates.codec.base58 myDid)
  let myDid : Did ← read (getIndyObject myDid)
  let temporaryKey ← read (fun _ => createKey crates random keyInfo)
  let myTemporaryDid : TemporaryDid := ⟨myDid.did, temporaryKey.verkey⟩
  addIndyObject temporaryKey.verkey temporaryKey
  addIndyObject myTemporaryDid.did myTemporaryDid
  pure myTemporaryDid.verkey

def replaceKeysApply (myDid : String) : WalletAction Unit := do
  let _ ← read (fun _ => validateDid crates.codec.base58 myDid)
  let myDid : Did ← read (getIndyObject myDid)
  let myTemporaryDid : TemporaryDid ← read (getIndyObject myDid.did)
  let myDid := Did.ofTemporary myTemporaryDid
  updateIndyObject myDid.did myDid
  deleteIndyRecord TemporaryDid myDid.did

/-- The key command of the crypto commands. -/
def createAndStoreKey (random : Seed) (keyInfo : KeyInfo) : WalletAction String := do
  let key ← read (fun _ => createKey crates random keyInfo)
  addIndyObject key.verkey key
  pure key.verkey

/-- A command with what is drawn for it. -/
inductive Command where
  | createAndStoreMyDid (random : Seed) (myDidInfo : MyDidInfo)
  | replaceKeysStart (random : Seed) (keyInfo : KeyInfo) (myDid : String)
  | replaceKeysApply (myDid : String)
  | createKey (random : Seed) (keyInfo : KeyInfo)

inductive Reply where
  | myDid (did verkey : String)
  | verkey (verkey : String)
  | done
  deriving DecidableEq

def execute : Command → WalletAction Reply
  | .createAndStoreMyDid random myDidInfo =>
    (fun r => Reply.myDid r.1 r.2) <$> createAndStoreMyDid crates random myDidInfo
  | .replaceKeysStart random keyInfo myDid =>
    Reply.verkey <$> replaceKeysStart crates random keyInfo myDid
  | .replaceKeysApply myDid => (fun _ => Reply.done) <$> replaceKeysApply crates myDid
  | .createKey random keyInfo => Reply.verkey <$> createAndStoreKey crates random keyInfo

def didMachine : Machine WalletRecords Command (IndyResult Reply) where
  step := execute crates

end IndySdk.MyDids
