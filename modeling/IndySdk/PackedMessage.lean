import IndySdk.Base58
import IndySdk.DidReplies

/-!
# Packed messages

A message is encrypted under a fresh key, which is encrypted for each receiver: with a sealed box
when the sender stays anonymous, and else with a box of the sender and a sealed box of the sender's
verification key. The receivers' part is the associated data of the message's encryption.
-/

open Bytes

/-- A byte array of fixed length. -/
structure SizedBytes (length : ℕ) where
  bytes : Bytes
  length_bytes : bytes.length = length
  deriving DecidableEq

namespace IndySdk.Crypto

open Domain (strMember optionalMember optionalStr uniqueMember)

def fromSlice (name : String) (length : ℕ) (bs : Bytes) : IndyResult (SizedBytes length) :=
  if h : bs.length = length then .ok ⟨bs, h⟩
  else .err (errMsg .invalidStructure "Invalid bytes for \"_\"" [name])

abbrev SignPublicKey := SizedBytes 32
abbrev SignSecretKey := SizedBytes 64
abbrev Seed := SizedBytes 32
abbrev BoxPublicKey := SizedBytes 32
abbrev BoxSecretKey := SizedBytes 32
abbrev BoxNonce := SizedBytes 24
abbrev ContentKey := SizedBytes 32
abbrev ContentNonce := SizedBytes 12
abbrev ContentTag := SizedBytes 16

/-- The functions of the sodium library. The bytes that a sealed box draws are an argument. -/
structure Sodium where
  keypairFromSeed : Seed → SignPublicKey × SignSecretKey
  vkToCurve25519 : SignPublicKey → BoxPublicKey
  skToCurve25519 : SignSecretKey → BoxSecretKey
  boxSeal : Bytes → BoxNonce → BoxPublicKey → BoxSecretKey → Bytes
  boxOpen : Bytes → BoxNonce → BoxPublicKey → BoxSecretKey → Option Bytes
  sealedboxSeal : Bytes → BoxPublicKey → Bytes → Bytes
  sealedboxOpen : Bytes → BoxPublicKey → BoxSecretKey → Option Bytes
  sealDetached : Bytes → Bytes → ContentNonce → ContentKey → Bytes × ContentTag
  openDetached : Bytes → Bytes → ContentTag → ContentNonce → ContentKey → Option Bytes

/-- The libraries behind the packing of messages. -/
structure PackCrates where
  codec : LawfulBase58
  sodium : Sodium
  encodeUrlsafe : Bytes → String
  decodeUrlsafe : String → Option Bytes
  base64Decode : String → Option Bytes
  fromHex : String → Option Bytes
  fromStr : String → Option Json

structure Key where
  verkey : String
  signkey : String
  deriving DecidableEq

structure KeyInfo where
  seed : Option String
  cryptoType : Option String

variable (crates : PackCrates)

def decodeUrlsafe (doc : String) : IndyResult Bytes :=
  Outcome.ofOption (errMsg .invalidStructure "Invalid base64URL_SAFE sequence")
    (crates.decodeUrlsafe doc)

/-- A crypto type that is not known is reported with the message. -/
def knownCryptoType (msg cryptoTypeName : String) : IndyResult Unit :=
  if cryptoTypeName ∈ cryptoTypes then .ok ()
  else .err (errMsg .unknownCrypto msg [cryptoTypeName])

/-! ### Keys -/

def convertSeed (seed : Option String) : IndyResult (Option Seed) :=
  match seed with
  | none => .ok none
  | some seed => do
    let bytes ← (if (ofText seed).length = 32 then .ok (ofText seed)
      else if seed.toList.getLast? = some '=' then
        Outcome.ofOption (errMsg .invalidStructure "Can't deserialize Seed from Base64 string")
          (crates.base64Decode seed)
      else if (ofText seed).length = 64 then
        Outcome.ofOption (errMsg .invalidStructure "Seed is invalid hex") (crates.fromHex seed)
      else .err (errMsg .invalidStructure "Invalid Seed length") : IndyResult Bytes)
    some <$> fromSlice "Seed" 32 bytes

/-- A key pair as it is written down; a type other than the default one is named in the key. -/
def keyOf (pair : SignPublicKey × SignSecretKey) (cryptoTypeName : String) : Key :=
  let vk := encode crates.codec.base58 pair.1.bytes
  let sk := encode crates.codec.base58 pair.2.bytes
  if cryptoTypeName = defaultCryptoType then ⟨vk, sk⟩ else ⟨vk ++ ":" ++ cryptoTypeName, sk⟩

def createKey (random : Seed) (keyInfo : KeyInfo) : IndyResult Key := do
  let cryptoTypeName := keyInfo.cryptoType.getD defaultCryptoType
  knownCryptoType "KeyInfo contains unknown crypto: _" cryptoTypeName
  let seed ← convertSeed crates keyInfo.seed
  pure (keyOf crates (crates.sodium.keypairFromSeed (seed.getD random)) cryptoTypeName)

/-- The keys of a wallet: each was created, and is stored under its verification key. -/
structure KeyWallet where
  keys : AssocMap String Key
  created : ∀ id key, keys.lookup id = some key → id = key.verkey ∧
    ∃ seed, key = keyOf crates (crates.sodium.keypairFromSeed seed) defaultCryptoType

variable {crates}

def KeyWallet.getKey (wallet : KeyWallet crates) (id : String) : IndyResult Key :=
  Outcome.ofOption (errMsg .walletItemNotFound "Wallet item not found") (wallet.keys.lookup id)

theorem createKey_eq_ok {random : Seed} {keyInfo : KeyInfo} {key : Key}
    (h : createKey crates random keyInfo = .ok key) :
    ∃ seed, key = keyOf crates (crates.sodium.keypairFromSeed seed) defaultCryptoType := by
  obtain ⟨⟨⟩, hknown, h⟩ := Outcome.bind_eq_ok_iff.mp h
  obtain ⟨seed, -, h⟩ := Outcome.bind_eq_ok_iff.mp h
  cases h
  refine ⟨seed.getD random, ?_⟩
  have hdefault : keyInfo.cryptoType.getD defaultCryptoType = defaultCryptoType := by
    rw [knownCryptoType] at hknown
    split_ifs at hknown with hmem
    exact List.mem_singleton.mp hmem
  rw [hdefault]

/-- A new key is stored under its verification key. -/
def KeyWallet.createAndStoreKey (wallet : KeyWallet crates) (random : Seed) (keyInfo : KeyInfo) :
    IndyResult (String × KeyWallet crates) :=
  match h : createKey crates random keyInfo with
  | .ok key =>
    if key.verkey ∈ wallet.keys then
      .err (errMsg .walletItemAlreadyExists "Wallet item already exists")
    else
      .ok (key.verkey, {
        keys := wallet.keys.insert key.verkey key
        created := by
          intro id stored hstored
          by_cases hid : id = key.verkey
          · rw [hid, AList.lookup_insert] at hstored
            cases hstored
            exact ⟨hid, createKey_eq_ok h⟩
          · rw [AList.lookup_insert_ne hid] at hstored
            exact wallet.created id stored hstored })
  | .err err => .err err
  | .panic => .panic

/-! ### Boxes -/

variable (crates)

def secretKey (signkey : String) : IndyResult SignSecretKey := do
  let bytes ← decode crates.codec.base58 signkey
  fromSlice "SecretKey" 64 bytes

def publicKey (verkey : String) : IndyResult SignPublicKey := do
  let bytes ← decode crates.codec.base58 verkey
  fromSlice "PublicKey" 32 bytes

/-- The other side's key without its type, when that is the type of one's own key. -/
def compatibleKey (msg : String) (myKey : Key) (theirVk : String) : IndyResult String := do
  let cryptoTypeName := (splitKey myKey.verkey).2.getD defaultCryptoType
  let theirCryptoTypeName := (splitKey theirVk).2.getD defaultCryptoType
  knownCryptoType msg cryptoTypeName
  if cryptoTypeName = theirCryptoTypeName then .ok (splitKey theirVk).1
  else .err (errMsg .unknownCrypto
    "My key crypto type is incompatible with their key crypto type: _ _"
    [cryptoTypeName, theirCryptoTypeName])

def cryptoBox (nonce : BoxNonce) (myKey : Key) (theirVk : String) (doc : Bytes) :
    IndyResult (Bytes × Bytes) := do
  let theirVk ← compatibleKey "Trying to crypto_box message with unknown crypto: _" myKey theirVk
  let mySk ← secretKey crates myKey.signkey
  let theirVk ← publicKey crates theirVk
  let encryptedDoc := crates.sodium.boxSeal doc nonce (crates.sodium.vkToCurve25519 theirVk)
    (crates.sodium.skToCurve25519 mySk)
  .ok (encryptedDoc, nonce.bytes)

def cryptoBoxOpen (myKey : Key) (theirVk : String) (doc nonce : Bytes) : IndyResult Bytes := do
  let theirVk ← compatibleKey "Trying to crypto_box_open message with unknown crypto: _" myKey
    theirVk
  let mySk ← secretKey crates myKey.signkey
  let theirVk ← publicKey crates theirVk
  let nonce ← fromSlice "Nonce" 24 nonce
  Outcome.ofOption (errMsg .invalidStructure "Unable to open sodium _box")
    (crates.sodium.boxOpen doc nonce (crates.sodium.vkToCurve25519 theirVk)
      (crates.sodium.skToCurve25519 mySk))

def cryptoBoxSeal (random : Bytes) (theirVk : String) (doc : Bytes) : IndyResult Bytes := do
  knownCryptoType "Trying to encrypt sealed message with unknown crypto: _"
    ((splitKey theirVk).2.getD defaultCryptoType)
  let theirVk ← publicKey crates (splitKey theirVk).1
  .ok (crates.sodium.sealedboxSeal random (crates.sodium.vkToCurve25519 theirVk) doc)

def cryptoBoxSealOpen (myKey : Key) (doc : Bytes) : IndyResult Bytes := do
  knownCryptoType "Trying to crypto_box_open sealed message with unknown crypto: _"
    ((splitKey myKey.verkey).2.getD defaultCryptoType)
  let myVk ← publicKey crates (splitKey myKey.verkey).1
  let mySk ← secretKey crates myKey.signkey
  Outcome.ofOption (errMsg .invalidStructure "Unable to open sodium sealedbox")
    (crates.sodium.sealedboxOpen doc (crates.sodium.vkToCurve25519 myVk)
      (crates.sodium.skToCurve25519 mySk))

/-- The encoded ciphertext, initialisation vector and tag. -/
def encryptPlaintext (nonce : ContentNonce) (plaintext : Bytes) (aad : String) (cek : ContentKey) :
    String × String × String :=
  let (ciphertext, tag) := crates.sodium.sealDetached plaintext (ofText aad) nonce cek
  (crates.encodeUrlsafe ciphertext, crates.encodeUrlsafe nonce.bytes,
    crates.encodeUrlsafe tag.bytes)

/-- Whatever the error of the inner call, it is reported with the message. -/
def reported {α : Type} (kind : IndyErrorKind) (msg : String) (x : IndyResult α) : IndyResult α :=
  toIndy kind msg x

def decryptCiphertext (ciphertext aad iv tag : String) (cek : ContentKey) : IndyResult String := do
  let ciphertext ← reported .invalidStructure "Failed to decode ciphertext _"
    (decodeUrlsafe crates ciphertext)
  let nonce ← reported .invalidStructure "Failed to decode IV _" (decodeUrlsafe crates iv)
  let nonce ← reported .invalidStructure "Failed to convert IV to Nonce type _"
    (fromSlice "Nonce" 12 nonce)
  let tag ← reported .invalidStructure "Failed to decode tag _" (decodeUrlsafe crates tag)
  let tag ← reported .invalidStructure "Failed to convert tag to Tag type _"
    (fromSlice "Tag" 16 tag)
  let plaintext ← Outcome.ofOption (errMsg .unknownCrypto "Failed to decrypt ciphertext _")
    (crates.sodium.openDetached ciphertext (ofText aad) tag nonce cek)
  Outcome.ofOption (errMsg .invalidStructure "Failed to convert message to UTF-8 _")
    (toText plaintext)

/-! ### The wire format -/

structure JWE where
  protected_ : String
  iv : String
  ciphertext : String
  tag : String

structure Header where
  kid : String
  iv : Option String
  sender : Option String

structure Recipient where
  encryptedKey : String
  header : Header

structure Protected where
  enc : String
  typ : String
  alg : String
  recipients : List Recipient

structure UnpackMessage where
  message : String
  recipientVerkey : String
  senderVerkey : Option String

/-- A member that is left out when there is no value. -/
def memberOf (key : String) (value : Option String) : List (String × Json) :=
  value.toList.map (fun value => (key, .str value))

def JWE.toJson (jwe : JWE) : Json :=
  .obj [("protected", .str jwe.protected_), ("iv", .str jwe.iv),
    ("ciphertext", .str jwe.ciphertext), ("tag", .str jwe.tag)]

def Header.toJson (header : Header) : Json :=
  .obj (("kid", .str header.kid) :: (memberOf "iv" header.iv ++ memberOf "sender" header.sender))

def Recipient.toJson (recipient : Recipient) : Json :=
  .obj [("encrypted_key", .str recipient.encryptedKey), ("header", recipient.header.toJson)]

def Protected.toJson (p : Protected) : Json :=
  .obj [("enc", .str p.enc), ("typ", .str p.typ), ("alg", .str p.alg),
    ("recipients", .arr (p.recipients.map Recipient.toJson))]

def UnpackMessage.toJson (res : UnpackMessage) : Json :=
  .obj ([("message", .str res.message), ("recipient_verkey", .str res.recipientVerkey)] ++
    memberOf "sender_verkey" res.senderVerkey)

def JWE.decode : Json → Option JWE
  | .obj members => do
    let protected_ ← strMember "protected" members
    let iv ← strMember "iv" members
    let ciphertext ← strMember "ciphertext" members
    let tag ← strMember "tag" members
    some ⟨protected_, iv, ciphertext, tag⟩
  | .arr [protected_, iv, ciphertext, tag] => do
    let protected_ ← protected_.asStr
    let iv ← iv.asStr
    let ciphertext ← ciphertext.asStr
    let tag ← tag.asStr
    some ⟨protected_, iv, ciphertext, tag⟩
  | _ => none

def Header.decode : Json → Option Header
  | .obj members => do
    let kid ← strMember "kid" members
    let iv ← optionalMember "iv" members
    let sender ← optionalMember "sender" members
    some ⟨kid, iv, sender⟩
  | .arr [kid] => kid.asStr.map (fun kid => ⟨kid, none, none⟩)
  | .arr [kid, iv] => do
    let kid ← kid.asStr
    let iv ← optionalStr iv
    some ⟨kid, iv, none⟩
  | .arr [kid, iv, sender] => do
    let kid ← kid.asStr
    let iv ← optionalStr iv
    let sender ← optionalStr sender
    some ⟨kid, iv, sender⟩
  | _ => none

def Recipient.decode : Json → Option Recipient
  | .obj members => do
    let encryptedKey ← strMember "encrypted_key" members
    let header ← (uniqueMember "header" members).bind Header.decode
    some ⟨encryptedKey, header⟩
  | .arr [encryptedKey, header] => do
    let encryptedKey ← encryptedKey.asStr
    let header ← Header.decode header
    some ⟨encryptedKey, header⟩
  | _ => none

def recipientsOf (j : Json) : Option (List Recipient) :=
  j.asArray.bind (fun recipients => recipients.mapM Recipient.decode)

def Protected.decode : Json → Option Protected
  | .obj members => do
    let enc ← strMember "enc" members
    let typ ← strMember "typ" members
    let alg ← strMember "alg" members
    let recipients ← (uniqueMember "recipients" members).bind recipientsOf
    some ⟨enc, typ, alg, recipients⟩
  | .arr [enc, typ, alg, recipients] => do
    let enc ← enc.asStr
    let typ ← typ.asStr
    let alg ← alg.asStr
    let recipients ← recipientsOf recipients
    some ⟨enc, typ, alg, recipients⟩
  | _ => none

/-! ### Packing and unpacking -/

/-- What packing a message draws; a number is the place of a receiver. -/
structure PackDraws where
  cek : ContentKey
  nonce : ContentNonce
  keySeal : ℕ → Bytes
  senderSeal : ℕ → Bytes
  boxNonce : ℕ → BoxNonce

def receiverListOf (receivers : String) : Option (List String) :=
  ((crates.fromStr receivers).bind Json.asArray).bind (fun keys => keys.mapM Json.asStr)

def anoncryptRecipient (draws : PackDraws) (theirVk : String × ℕ) : IndyResult Recipient := do
  let encCek ← cryptoBoxSeal crates (draws.keySeal theirVk.2) theirVk.1 draws.cek.bytes
  .ok ⟨crates.encodeUrlsafe encCek, ⟨theirVk.1, none, none⟩⟩

def authcryptRecipient (draws : PackDraws) (myKey : Key) (senderVk : String)
    (theirVk : String × ℕ) : IndyResult Recipient := do
  let (encCek, iv) ← cryptoBox crates (draws.boxNonce theirVk.2) myKey theirVk.1 draws.cek.bytes
  let encSender ← cryptoBoxSeal crates (draws.senderSeal theirVk.2) theirVk.1
    (ofText senderVk)
  .ok ⟨crates.encodeUrlsafe encCek,
    ⟨theirVk.1, some (crates.encodeUrlsafe iv), some (crates.encodeUrlsafe encSender)⟩⟩

def base64EncodeProtected (encryptedRecipients : List Recipient) (algIsAuthcrypt : Bool) : String :=
  let protectedStruct : Protected := {
    enc := "xchacha20poly1305_ietf"
    typ := "JWM/1.0"
    alg := if algIsAuthcrypt then "Authcrypt" else "Anoncrypt"
    recipients := encryptedRecipients }
  crates.encodeUrlsafe (ofText protectedStruct.toJson.text)

def prepareProtectedAnoncrypt (draws : PackDraws) (receiverList : List String) :
    IndyResult String := do
  let recipients ← receiverList.zipIdx.mapM (anoncryptRecipient crates draws)
  .ok (base64EncodeProtected crates recipients false)

variable {crates} in
def prepareProtectedAuthcrypt (draws : PackDraws) (receiverList : List String) (senderVk : String)
    (wallet : KeyWallet crates) : IndyResult String := do
  let myKey ← wallet.getKey senderVk
  let recipients ← receiverList.zipIdx.mapM (authcryptRecipient crates draws myKey senderVk)
  .ok (base64EncodeProtected crates recipients true)

def formatPackMessage (base64Protected : String) (parts : String × String × String) : Bytes :=
  let jweStruct : JWE := ⟨base64Protected, parts.2.1, parts.1, parts.2.2⟩
  ofText jweStruct.toJson.text

variable {crates} in
def packMsg (draws : PackDraws) (message : Bytes) (receivers : String) (senderVk : Option String)
    (wallet : KeyWallet crates) : IndyResult Bytes := do
  let receiverList ← Outcome.ofOption
    (errMsg .invalidStructure "Failed to deserialize receiver list of keys _")
    (receiverListOf crates receivers)
  if receiverList = [] then .err (errMsg .invalidStructure "No receiver keys found")
  else do
    let base64Protected ← (match senderVk with
      | some senderVk => do
        validateKey crates.codec.base58 senderVk
        prepareProtectedAuthcrypt draws receiverList senderVk wallet
      | none => prepareProtectedAnoncrypt crates draws receiverList : IndyResult String)
    .ok (formatPackMessage base64Protected
      (encryptPlaintext crates draws.nonce message base64Protected draws.cek))

section

variable {crates}

/-- The first recipient whose key is in the wallet, and whether the sender is named. -/
def findCorrectRecipient (wallet : KeyWallet crates) :
    List Recipient → IndyResult (Recipient × Bool)
  | [] => .err (errMsg .walletItemNotFound "Wallet item not found")
  | recipient :: recipients =>
    match wallet.getKey recipient.header.kid with
    | .ok _ => .ok (recipient, recipient.header.sender.isSome)
    | _ => findCorrectRecipient wallet recipients

def unpackCekAuthcrypt (recipient : Recipient) (wallet : KeyWallet crates) :
    IndyResult (Option String × ContentKey) := do
  let encryptedKey ← decodeUrlsafe crates recipient.encryptedKey
  let iv ← Outcome.unwrap recipient.header.iv
  let iv ← decodeUrlsafe crates iv
  let sender ← Outcome.unwrap recipient.header.sender
  let encSenderVk ← decodeUrlsafe crates sender
  let myKey ← wallet.getKey recipient.header.kid
  let senderVk ← cryptoBoxSealOpen crates myKey encSenderVk
  let senderVk ← Outcome.ofOption (errMsg .invalidStructure "Failed to utf-8 encode sender_vk _")
    (toText senderVk)
  let cek ← cryptoBoxOpen crates myKey senderVk encryptedKey iv
  let cek ← reported .invalidStructure "Failed to decrypt cek _" (fromSlice "Key" 32 cek)
  .ok (some senderVk, cek)

def unpackCekAnoncrypt (recipient : Recipient) (wallet : KeyWallet crates) :
    IndyResult (Option String × ContentKey) := do
  let encryptedKey ← decodeUrlsafe crates recipient.encryptedKey
  let myKey ← wallet.getKey recipient.header.kid
  let cek ← cryptoBoxSealOpen crates myKey encryptedKey
  let cek ← reported .invalidStructure "Failed to decrypt cek _" (fromSlice "Key" 32 cek)
  .ok (none, cek)

def unpackMsg (jweJson : Bytes) (wallet : KeyWallet crates) : IndyResult Bytes := do
  let jweStruct ← Outcome.ofOption (errMsg .invalidStructure "Failed to deserialize JWE _")
    (((toText jweJson).bind crates.fromStr).bind JWE.decode)
  let protectedDecoded ← decodeUrlsafe crates jweStruct.protected_
  let protectedDecoded ← Outcome.ofOption
    (errMsg .invalidStructure "Failed to utf8 encode data _") (toText protectedDecoded)
  let protectedStruct ← Outcome.ofOption
    (errMsg .invalidStructure "Failed to deserialize protected data _")
    ((crates.fromStr protectedDecoded).bind Protected.decode)
  let (recipient, isAuthRecipient) ← findCorrectRecipient wallet protectedStruct.recipients
  let (senderVerkey, cek) ← (if isAuthRecipient then unpackCekAuthcrypt recipient wallet
    else unpackCekAnoncrypt recipient wallet)
  let message ← decryptCiphertext crates jweStruct.ciphertext jweStruct.protected_ jweStruct.iv
    jweStruct.tag cek
  let res : UnpackMessage := ⟨message, recipient.header.kid, senderVerkey⟩
  .ok (ofText res.toJson.text)

end

end IndySdk.Crypto
