import IndySdk.Bytes
import IndySdk.Errors

/-!
# DIDs and verification keys

A DID and a verification key are base58 texts. A key may name its type after a colon, and it may be
abbreviated: the DID itself is then the first half of the key.
-/

namespace IndySdk.Crypto

def defaultCryptoType : String := "ed25519"
def publicKeyBytes : ℕ := 32

/-- The base58 library, which reports a text it cannot decode by a message. -/
structure Base58 where
  fromBase58 : String → Except String Bytes
  toBase58 : Bytes → String

structure TheirDidInfo where
  did : String
  verkey : Option String
  deriving DecidableEq

structure TheirDid where
  did : String
  verkey : String
  deriving DecidableEq

def cryptoTypes : List String := [defaultCryptoType]

variable (base58 : Base58)

def decode (doc : String) : IndyResult Bytes :=
  match base58.fromBase58 doc with
  | .ok bytes => .ok bytes
  | .error err => .err (errMsg .invalidStructure "Invalid base58 sequence: _" [err])

def encode (doc : Bytes) : String := base58.toBase58 doc

/-- A key before a colon, and what stands between that colon and the next one. -/
def splitKey (verkey : String) : String × Option String :=
  match (verkey.toList.splitOn ':').map String.ofList with
  | key :: cryptoType :: _ => (key, some cryptoType)
  | _ => (verkey, none)

/-- The text after the mark of an abbreviated key. -/
def abbreviated (verkey : String) : Option String :=
  match verkey.toList with
  | '~' :: rest => some (String.ofList rest)
  | _ => none

def expandVerkey (dest verkey : String) : IndyResult String :=
  match abbreviated verkey with
  | some rest => do
    let result ← decode base58 dest
    let tail ← decode base58 rest
    .ok (encode base58 (result ++ tail))
  | none => .ok verkey

def withCryptoType (verkey : String) : Option String → String
  | some cryptoType => verkey ++ ":" ++ cryptoType
  | none => verkey

/-- The key of a DID; a DID without one is its own key. -/
def buildFullVerkey (dest : String) : Option String → IndyResult String
  | some verkey =>
    let (verkey, cryptoType) := splitKey verkey
    (fun verkey => withCryptoType verkey cryptoType) <$> expandVerkey base58 dest verkey
  | none => .ok dest

def publicKeyFromSlice (bytes : Bytes) : IndyResult Unit :=
  if bytes.length = publicKeyBytes then .ok ()
  else .err (errMsg .invalidStructure "Invalid bytes for \"PublicKey\"")

def validateKey (vk : String) : IndyResult Unit := do
  let (vk, cryptoType) := splitKey vk
  let cryptoTypeName := cryptoType.getD defaultCryptoType
  if cryptoTypeName ∉ cryptoTypes then
    .err (errMsg .unknownCrypto "Trying to use key with unknown crypto: _" [cryptoTypeName])
  else
    match abbreviated vk with
    | some rest => (fun _ => ()) <$> decode base58 rest
    | none => do
      let bytes ← decode base58 vk
      publicKeyFromSlice bytes

def validateDid (did : String) : IndyResult Unit := do
  let did ← decode base58 did
  if did.length ≠ 16 ∧ did.length ≠ 32 then
    .err (errMsg .invalidStructure "Trying to use did with unexpected len: _"
      [toString did.length])
  else
    .ok ()

def createTheirDid (theirDidInfo : TheirDidInfo) : IndyResult TheirDid := do
  let _ ← decode base58 theirDidInfo.did
  let verkey ← buildFullVerkey base58 theirDidInfo.did theirDidInfo.verkey
  validateKey base58 verkey
  .ok ⟨theirDidInfo.did, verkey⟩

variable {base58}

theorem decode_eq_ok {doc : String} {bytes : Bytes} :
    decode base58 doc = .ok bytes ↔ base58.fromBase58 doc = .ok bytes := by
  unfold decode
  cases base58.fromBase58 doc <;> simp

theorem validateDid_ok {did : String} (h : validateDid base58 did = .ok ()) :
    ∃ bytes, base58.fromBase58 did = .ok bytes := by
  obtain ⟨bytes, hbytes, _⟩ := Outcome.bind_eq_ok_iff.mp h
  exact ⟨bytes, decode_eq_ok.mp hbytes⟩

theorem decode_ne_panic (doc : String) : decode base58 doc ≠ .panic := by
  unfold decode
  cases base58.fromBase58 doc with
  | ok bytes => exact Outcome.ok_ne_panic bytes
  | error err => exact Outcome.err_ne_panic _

theorem validateDid_ne_panic (did : String) : validateDid base58 did ≠ .panic := by
  apply Outcome.bind_ne_panic (decode_ne_panic did)
  intro bytes
  split
  · exact Outcome.err_ne_panic _
  · exact Outcome.ok_ne_panic _

theorem buildFullVerkey_ne_panic (dest : String) (verkey : Option String) :
    buildFullVerkey base58 dest verkey ≠ .panic := by
  cases verkey with
  | none => exact Outcome.ok_ne_panic dest
  | some verkey =>
    apply Outcome.map_ne_panic
    unfold expandVerkey
    split
    · apply Outcome.bind_ne_panic (decode_ne_panic dest)
      intro result
      exact Outcome.bind_ne_panic (decode_ne_panic _) (fun _ => Outcome.ok_ne_panic _)
    · exact Outcome.ok_ne_panic _

theorem validateKey_ne_panic (vk : String) : validateKey base58 vk ≠ .panic := by
  unfold validateKey
  dsimp only
  split
  · exact Outcome.err_ne_panic _
  · split
    · exact Outcome.map_ne_panic _ (decode_ne_panic _)
    · apply Outcome.bind_ne_panic (decode_ne_panic _)
      intro bytes
      unfold publicKeyFromSlice
      split
      · exact Outcome.ok_ne_panic _
      · exact Outcome.err_ne_panic _

theorem createTheirDid_ne_panic (info : TheirDidInfo) : createTheirDid base58 info ≠ .panic := by
  apply Outcome.bind_ne_panic (decode_ne_panic _)
  intro _
  apply Outcome.bind_ne_panic (buildFullVerkey_ne_panic _ _)
  intro verkey
  exact Outcome.bind_ne_panic (validateKey_ne_panic _) (fun _ => Outcome.ok_ne_panic _)

theorem createTheirDid_did {info : TheirDidInfo} {theirDid : TheirDid}
    (h : createTheirDid base58 info = .ok theirDid) : theirDid.did = info.did := by
  obtain ⟨bytes, _, h⟩ := Outcome.bind_eq_ok_iff.mp h
  obtain ⟨verkey, _, h⟩ := Outcome.bind_eq_ok_iff.mp h
  obtain ⟨⟨⟩, _, h⟩ := Outcome.bind_eq_ok_iff.mp h
  rw [← Outcome.ok.inj h]

end IndySdk.Crypto
