import IndySdk.Base64
import IndySdk.JsonReader
import IndySdk.PackedMessage

/-!
# What unpacking makes of a packed message

The holder of some keys unpacks with the first listed receiver that is the name of one of them. The
boxes open because the key stored under that name is the one they were made for.
-/

namespace IndySdk.Crypto

open Outcome List Option AList Bytes
open Domain (strMember optionalMember optionalStr uniqueMember)

/-- What the packing of messages relies on of the libraries. -/
structure PackLaws (crates : PackCrates) : Prop where
  box_open : ∀ mine theirs nonce doc, crates.sodium.boxOpen
    (crates.sodium.boxSeal doc nonce
      (crates.sodium.vkToCurve25519 (crates.sodium.keypairFromSeed theirs).1)
      (crates.sodium.skToCurve25519 (crates.sodium.keypairFromSeed mine).2)) nonce
    (crates.sodium.vkToCurve25519 (crates.sodium.keypairFromSeed mine).1)
    (crates.sodium.skToCurve25519 (crates.sodium.keypairFromSeed theirs).2) = some doc
  sealedbox_open : ∀ seed random doc, crates.sodium.sealedboxOpen
    (crates.sodium.sealedboxSeal random
      (crates.sodium.vkToCurve25519 (crates.sodium.keypairFromSeed seed).1) doc)
    (crates.sodium.vkToCurve25519 (crates.sodium.keypairFromSeed seed).1)
    (crates.sodium.skToCurve25519 (crates.sodium.keypairFromSeed seed).2) = some doc
  detached_open : ∀ message ad nonce cek, crates.sodium.openDetached
    (crates.sodium.sealDetached message ad nonce cek).1 ad
    (crates.sodium.sealDetached message ad nonce cek).2 nonce cek = some message
  decode_encode : ∀ b, crates.decodeUrlsafe (crates.encodeUrlsafe b) = some b
  read_text : ∀ j : Json, j.textual = true → crates.fromStr j.text = some j

variable {crates : PackCrates} {seed : Seed}

theorem fromSlice_bytes (name : String) {length : ℕ} (b : SizedBytes length) :
    fromSlice name length b.bytes = .ok b := by
  rw [fromSlice, dif_pos b.length_bytes]

theorem decodeUrlsafe_encodeUrlsafe (laws : PackLaws crates) (b : Bytes) :
    decodeUrlsafe crates (crates.encodeUrlsafe b) = .ok b := by
  rw [decodeUrlsafe, laws.decode_encode, ofOption_some]

/-! ### Created keys -/

/-- The key that a seed gives. -/
def createdKey (crates : PackCrates) (seed : Seed) : Key :=
  keyOf crates (crates.sodium.keypairFromSeed seed) defaultCryptoType

theorem createdKey_eq : createdKey crates seed =
    ⟨crates.codec.base58.toBase58 (crates.sodium.keypairFromSeed seed).1.bytes,
      crates.codec.base58.toBase58 (crates.sodium.keypairFromSeed seed).2.bytes⟩ := by
  rw [createdKey, keyOf, if_pos rfl]
  rfl

theorem splitKey_createdKey :
    splitKey (createdKey crates seed).verkey = ((createdKey crates seed).verkey, none) := by
  rw [createdKey_eq]
  exact crates.codec.splitKey_toBase58 _

theorem publicKey_createdKey : publicKey crates (createdKey crates seed).verkey =
    .ok (crates.sodium.keypairFromSeed seed).1 := by
  rw [createdKey_eq, publicKey, crates.codec.decode_toBase58, ok_bind, fromSlice_bytes]

theorem secretKey_createdKey : secretKey crates (createdKey crates seed).signkey =
    .ok (crates.sodium.keypairFromSeed seed).2 := by
  rw [createdKey_eq, secretKey, crates.codec.decode_toBase58, ok_bind, fromSlice_bytes]

theorem knownCryptoType_default (msg : String) :
    knownCryptoType msg ((none : Option String).getD defaultCryptoType) = .ok () := by
  have hmem : (none : Option String).getD defaultCryptoType ∈ cryptoTypes :=
    mem_singleton.mpr rfl
  rw [knownCryptoType, if_pos hmem]

theorem compatibleKey_createdKey (msg : String) (mine theirs : Seed) :
    compatibleKey msg (createdKey crates mine) (createdKey crates theirs).verkey =
      .ok (createdKey crates theirs).verkey := by
  rw [compatibleKey, splitKey_createdKey, splitKey_createdKey]
  dsimp only
  rw [knownCryptoType_default, ok_bind, if_pos rfl]

theorem KeyWallet.getKey_eq (wallet : KeyWallet crates) {id : String} (h : id ∈ wallet.keys) :
    ∃ seed, id = (createdKey crates seed).verkey ∧
      wallet.getKey id = .ok (createdKey crates seed) := by
  obtain ⟨key, hkey⟩ := isSome_iff_exists.mp (lookup_isSome.mpr h)
  obtain ⟨hid, seed, rfl⟩ := wallet.created id key hkey
  refine ⟨seed, hid, ?_⟩
  rw [KeyWallet.getKey, hkey, ofOption_some]
  rfl

theorem KeyWallet.getKey_of_notMem (wallet : KeyWallet crates) {id : String}
    (h : id ∉ wallet.keys) :
    wallet.getKey id = .err (errMsg .walletItemNotFound "Wallet item not found") := by
  rw [KeyWallet.getKey, lookup_eq_none.mpr h, ofOption_none]

/-! ### Boxes -/

theorem cryptoBox_createdKey (nonce : BoxNonce) (mine theirs : Seed) (doc : Bytes) :
    cryptoBox crates nonce (createdKey crates mine) (createdKey crates theirs).verkey doc =
      .ok (crates.sodium.boxSeal doc nonce
        (crates.sodium.vkToCurve25519 (crates.sodium.keypairFromSeed theirs).1)
        (crates.sodium.skToCurve25519 (crates.sodium.keypairFromSeed mine).2), nonce.bytes) := by
  rw [cryptoBox, compatibleKey_createdKey, ok_bind, secretKey_createdKey, ok_bind,
    publicKey_createdKey, ok_bind]

theorem cryptoBoxOpen_createdKey (laws : PackLaws crates) (nonce : BoxNonce) (mine theirs : Seed)
    (doc : Bytes) :
    cryptoBoxOpen crates (createdKey crates theirs) (createdKey crates mine).verkey
      (crates.sodium.boxSeal doc nonce
        (crates.sodium.vkToCurve25519 (crates.sodium.keypairFromSeed theirs).1)
        (crates.sodium.skToCurve25519 (crates.sodium.keypairFromSeed mine).2)) nonce.bytes =
      .ok doc := by
  rw [cryptoBoxOpen, compatibleKey_createdKey, ok_bind, secretKey_createdKey,
    ok_bind, publicKey_createdKey, ok_bind, fromSlice_bytes, ok_bind,
    laws.box_open, ofOption_some]

theorem cryptoBoxSeal_createdKey (random : Bytes) (theirs : Seed) (doc : Bytes) :
    cryptoBoxSeal crates random (createdKey crates theirs).verkey doc =
      .ok (crates.sodium.sealedboxSeal random
        (crates.sodium.vkToCurve25519 (crates.sodium.keypairFromSeed theirs).1) doc) := by
  rw [cryptoBoxSeal, splitKey_createdKey, knownCryptoType_default, ok_bind,
    publicKey_createdKey, ok_bind]

theorem cryptoBoxSealOpen_createdKey (laws : PackLaws crates) (random : Bytes) (theirs : Seed)
    (doc : Bytes) :
    cryptoBoxSealOpen crates (createdKey crates theirs) (crates.sodium.sealedboxSeal random
      (crates.sodium.vkToCurve25519 (crates.sodium.keypairFromSeed theirs).1) doc) = .ok doc := by
  rw [cryptoBoxSealOpen, splitKey_createdKey, knownCryptoType_default, ok_bind,
    publicKey_createdKey, ok_bind, secretKey_createdKey, ok_bind,
    laws.sealedbox_open, ofOption_some]

/-! ### The content key -/

variable {draws : PackDraws} {wallet : KeyWallet crates}

theorem unpackCekAnoncrypt_eq (laws : PackLaws crates) {vk : String × ℕ} {recipient : Recipient}
    (h : anoncryptRecipient crates draws vk = .ok recipient) (hvk : vk.1 ∈ wallet.keys) :
    unpackCekAnoncrypt recipient wallet = .ok (none, draws.cek) := by
  obtain ⟨seed, hseed, hkey⟩ := wallet.getKey_eq hvk
  rw [anoncryptRecipient, hseed, cryptoBoxSeal_createdKey, ok_bind] at h
  cases h
  rw [← hseed] at *
  rw [unpackCekAnoncrypt, decodeUrlsafe_encodeUrlsafe laws, ok_bind]
  dsimp only
  rw [hkey, ok_bind, cryptoBoxSealOpen_createdKey laws, ok_bind, fromSlice_bytes]
  rfl

theorem unpackCekAuthcrypt_eq (laws : PackLaws crates) {mine : Seed} {vk : String × ℕ}
    {recipient : Recipient}
    (h : authcryptRecipient crates draws (createdKey crates mine) (createdKey crates mine).verkey
      vk = .ok recipient) (hvk : vk.1 ∈ wallet.keys) :
    unpackCekAuthcrypt recipient wallet =
      .ok (some (createdKey crates mine).verkey, draws.cek) := by
  obtain ⟨seed, hseed, hkey⟩ := wallet.getKey_eq hvk
  rw [authcryptRecipient, hseed, cryptoBox_createdKey, ok_bind] at h
  dsimp only at h
  rw [cryptoBoxSeal_createdKey, ok_bind] at h
  cases h
  rw [← hseed]
  rw [unpackCekAuthcrypt, decodeUrlsafe_encodeUrlsafe laws, ok_bind, unwrap_some,
    ok_bind, decodeUrlsafe_encodeUrlsafe laws, ok_bind, unwrap_some,
    ok_bind, decodeUrlsafe_encodeUrlsafe laws, ok_bind]
  dsimp only
  rw [hkey, ok_bind, cryptoBoxSealOpen_createdKey laws, ok_bind,
    toText_ofText, ofOption_some, ok_bind, cryptoBoxOpen_createdKey laws,
    ok_bind, fromSlice_bytes]
  rfl

theorem decryptCiphertext_encryptPlaintext (laws : PackLaws crates) (nonce : ContentNonce)
    (message : Bytes) (aad : String) (cek : ContentKey) :
    decryptCiphertext crates (encryptPlaintext crates nonce message aad cek).1 aad
      (encryptPlaintext crates nonce message aad cek).2.1
      (encryptPlaintext crates nonce message aad cek).2.2 cek =
      ofOption (errMsg .invalidStructure "Failed to convert message to UTF-8 _")
        (toText message) := by
  rw [decryptCiphertext, encryptPlaintext]
  dsimp only
  rw [decodeUrlsafe_encodeUrlsafe laws, reported, toIndy, ok_bind,
    decodeUrlsafe_encodeUrlsafe laws, reported, toIndy, ok_bind, fromSlice_bytes, reported,
    toIndy, ok_bind, decodeUrlsafe_encodeUrlsafe laws, reported, toIndy, ok_bind,
    fromSlice_bytes, reported, toIndy, ok_bind, laws.detached_open, ofOption_some,
    ok_bind]

/-! ### The wire format -/

theorem JWE.decode_toJson (jwe : JWE) : JWE.decode jwe.toJson = some jwe := by
  simp [JWE.decode, JWE.toJson, strMember, uniqueMember, Json.asStr]

theorem JWE.textual_toJson (jwe : JWE) : jwe.toJson.textual = true := rfl

theorem Header.decode_toJson (header : Header) : Header.decode header.toJson = some header := by
  cases header with
  | mk kid iv sender =>
    cases iv <;> cases sender <;>
      simp [Header.decode, Header.toJson, memberOf, strMember, uniqueMember, optionalMember,
        optionalStr, Json.asStr]

theorem Header.textual_toJson (header : Header) : header.toJson.textual = true := by
  cases header with
  | mk kid iv sender => cases iv <;> cases sender <;> rfl

theorem Recipient.decode_toJson (recipient : Recipient) :
    Recipient.decode recipient.toJson = some recipient := by
  simp [Recipient.decode, Recipient.toJson, strMember, uniqueMember, Json.asStr,
    Header.decode_toJson]

theorem Recipient.textual_toJson (recipient : Recipient) : recipient.toJson.textual = true := by
  rw [Recipient.toJson, Json.textual, Json.textualMembers, Json.textualMembers,
    Header.textual_toJson]
  rfl

theorem recipientsOf_toJson (recipients : List Recipient) :
    recipientsOf (.arr (recipients.map Recipient.toJson)) = some recipients := by
  rw [recipientsOf, Json.asArray, bind_some]
  induction recipients with
  | nil => rfl
  | cons recipient recipients ih =>
    rw [map_cons, mapM_cons, Recipient.decode_toJson, ih]
    rfl

theorem textualElements_recipients (recipients : List Recipient) :
    Json.textualElements (recipients.map Recipient.toJson) = true := by
  induction recipients with
  | nil => rfl
  | cons recipient recipients ih =>
    rw [map_cons, Json.textualElements, Recipient.textual_toJson, ih]
    rfl

theorem Protected.decode_toJson (p : Protected) : Protected.decode p.toJson = some p := by
  simp [Protected.decode, Protected.toJson, strMember, uniqueMember, Json.asStr,
    recipientsOf_toJson]

theorem Protected.textual_toJson (p : Protected) : p.toJson.textual = true := by
  simp [Protected.toJson, Json.textual, Json.textualMembers, textualElements_recipients]

/-! ### The recipient -/

theorem findCorrectRecipient_eq (wallet : KeyWallet crates) (recipients : List Recipient) :
    findCorrectRecipient wallet recipients =
      ofOption (errMsg .walletItemNotFound "Wallet item not found")
        ((recipients.find? (fun recipient => recipient.header.kid ∈ wallet.keys)).map
          (fun recipient => (recipient, recipient.header.sender.isSome))) := by
  induction recipients with
  | nil => rfl
  | cons recipient recipients ih =>
    rw [findCorrectRecipient]
    by_cases hmem : recipient.header.kid ∈ wallet.keys
    · obtain ⟨seed, -, hkey⟩ := wallet.getKey_eq hmem
      rw [hkey, find?_cons_of_pos (by exact decide_eq_true hmem)]
      rfl
    · rw [wallet.getKey_of_notMem hmem, find?_cons_of_neg (by simpa using hmem)]
      exact ih

/-! ### The message -/

/-- What the holder of some keys gets out of a message packed for the receivers. -/
def unpackedMessage (wallet : KeyWallet crates) (message : Bytes) (receiverList : List String)
    (senderVk : Option String) : IndyResult Bytes := do
  let recipientVerkey ← ofOption (errMsg .walletItemNotFound "Wallet item not found")
    (receiverList.find? (fun vk => vk ∈ wallet.keys))
  let message ← ofOption
    (errMsg .invalidStructure "Failed to convert message to UTF-8 _") (toText message)
  let res : UnpackMessage := ⟨message, recipientVerkey, senderVk⟩
  .ok (ofText res.toJson.text)

/-- A message unpacks when its key is recovered from every recipient that the wallet may find. -/
theorem unpackMsg_formatPackMessage (laws : PackLaws crates) {nonce : ContentNonce}
    {cek : ContentKey} {message : Bytes} {recipients : List Recipient} {auth : Bool}
    {senderVk : Option String} {wallet : KeyWallet crates}
    (hcek : ∀ recipient ∈ recipients, recipient.header.kid ∈ wallet.keys →
      (if recipient.header.sender.isSome then unpackCekAuthcrypt recipient wallet
        else unpackCekAnoncrypt recipient wallet) = .ok (senderVk, cek)) :
    unpackMsg (formatPackMessage (base64EncodeProtected crates recipients auth)
      (encryptPlaintext crates nonce message (base64EncodeProtected crates recipients auth) cek))
        wallet =
      unpackedMessage wallet message (recipients.map (fun recipient => recipient.header.kid))
        senderVk := by
  rw [unpackMsg, formatPackMessage, toText_ofText, bind_some,
    laws.read_text _ (JWE.textual_toJson _), bind_some, JWE.decode_toJson,
    ofOption_some, ok_bind]
  dsimp only
  rw [base64EncodeProtected, decodeUrlsafe_encodeUrlsafe laws, ok_bind,
    toText_ofText, ofOption_some, ok_bind,
    laws.read_text _ (Protected.textual_toJson _), bind_some, Protected.decode_toJson,
    ofOption_some, ok_bind]
  dsimp only
  rw [findCorrectRecipient_eq, unpackedMessage, find?_map]
  cases hfound : recipients.find? (fun recipient => recipient.header.kid ∈ wallet.keys) with
  | none =>
    have hnone : recipients.find? ((fun vk => decide (vk ∈ wallet.keys)) ∘
        fun recipient => recipient.header.kid) = none := hfound
    rw [hnone]
    rfl
  | some recipient =>
    have hsome : recipients.find? ((fun vk => decide (vk ∈ wallet.keys)) ∘
        fun recipient => recipient.header.kid) = some recipient := hfound
    have hkid : recipient.header.kid ∈ wallet.keys := by
      have htrue := find?_some hfound
      exact of_decide_eq_true htrue
    rw [hsome, map_some, ofOption_some, ok_bind, map_some,
      ofOption_some, ok_bind]
    dsimp only
    rw [hcek recipient (mem_of_find?_eq_some hfound) hkid, ok_bind]
    dsimp only
    rw [decryptCiphertext_encryptPlaintext laws]

theorem recipients_of_mapM {f : String × ℕ → IndyResult Recipient} {receiverList : List String}
    {recipients : List Recipient} {n : ℕ}
    (hkid : ∀ vk recipient, f vk = .ok recipient → recipient.header.kid = vk.1)
    (h : (receiverList.zipIdx n).mapM f = .ok recipients) :
    recipients.map (fun recipient => recipient.header.kid) = receiverList ∧
      ∀ recipient ∈ recipients, ∃ i, f (recipient.header.kid, i) = .ok recipient := by
  induction receiverList generalizing n recipients with
  | nil =>
    cases h
    exact ⟨rfl, fun recipient hmem => absurd hmem not_mem_nil⟩
  | cons vk receiverList ih =>
    rw [zipIdx_cons, mapM_cons] at h
    obtain ⟨recipient, hrecipient, h⟩ := bind_eq_ok_iff.mp h
    obtain ⟨rest, hrest, h⟩ := bind_eq_ok_iff.mp h
    cases h
    obtain ⟨hnames, hall⟩ := ih hrest
    have hname := hkid _ _ hrecipient
    refine ⟨by rw [map_cons, hnames, hname], ?_⟩
    intro other hother
    rcases mem_cons.mp hother with rfl | hother
    · exact ⟨n, by rw [hname]; exact hrecipient⟩
    · exact hall other hother

theorem anoncryptRecipient_header (vk : String × ℕ) (recipient : Recipient)
    (h : anoncryptRecipient crates draws vk = .ok recipient) :
    recipient.header.kid = vk.1 ∧ recipient.header.sender = none := by
  obtain ⟨encCek, -, h⟩ := bind_eq_ok_iff.mp h
  cases h
  exact ⟨rfl, rfl⟩

theorem authcryptRecipient_header {myKey : Key} {senderVk : String} (vk : String × ℕ)
    (recipient : Recipient)
    (h : authcryptRecipient crates draws myKey senderVk vk = .ok recipient) :
    recipient.header.kid = vk.1 ∧ recipient.header.sender.isSome = true := by
  obtain ⟨⟨encCek, iv⟩, -, h⟩ := bind_eq_ok_iff.mp h
  obtain ⟨encSender, -, h⟩ := bind_eq_ok_iff.mp h
  cases h
  exact ⟨rfl, rfl⟩

variable {message : Bytes}

theorem anoncrypt_unpacked (laws : PackLaws crates) {receiverList : List String}
    {base64Protected : String}
    (h : prepareProtectedAnoncrypt crates draws receiverList = .ok base64Protected)
    (wallet : KeyWallet crates) :
    unpackMsg (formatPackMessage base64Protected
      (encryptPlaintext crates draws.nonce message base64Protected draws.cek)) wallet =
        unpackedMessage wallet message receiverList none := by
  obtain ⟨recipients, hrecipients, h⟩ := bind_eq_ok_iff.mp h
  cases h
  obtain ⟨hnames, hall⟩ := recipients_of_mapM
    (fun vk recipient hvk => (anoncryptRecipient_header vk recipient hvk).1) hrecipients
  rw [@unpackMsg_formatPackMessage _ laws _ _ _ _ _ none, hnames]
  intro recipient hmem hkid
  obtain ⟨i, hi⟩ := hall recipient hmem
  rw [(anoncryptRecipient_header _ _ hi).2]
  exact unpackCekAnoncrypt_eq laws hi hkid

theorem authcrypt_unpacked (laws : PackLaws crates) {receiverList : List String}
    {senderVk base64Protected : String} {senderWallet : KeyWallet crates}
    (h : prepareProtectedAuthcrypt draws receiverList senderVk senderWallet = .ok base64Protected)
    (wallet : KeyWallet crates) :
    unpackMsg (formatPackMessage base64Protected
      (encryptPlaintext crates draws.nonce message base64Protected draws.cek)) wallet =
        unpackedMessage wallet message receiverList (some senderVk) := by
  obtain ⟨myKey, hmyKey, h⟩ := bind_eq_ok_iff.mp h
  obtain ⟨recipients, hrecipients, h⟩ := bind_eq_ok_iff.mp h
  cases h
  obtain ⟨hnames, hall⟩ := recipients_of_mapM
    (fun vk recipient hvk => (authcryptRecipient_header vk recipient hvk).1) hrecipients
  have hmem : senderVk ∈ senderWallet.keys :=
    lookup_isSome.mp (by rw [ofOption_eq_ok.mp hmyKey]; rfl)
  obtain ⟨mine, rfl, hkey⟩ := senderWallet.getKey_eq hmem
  cases hmyKey.symm.trans hkey
  rw [@unpackMsg_formatPackMessage _ laws _ _ _ _ _ (some (createdKey crates mine).verkey), hnames]
  intro recipient hmem hkid
  obtain ⟨i, hi⟩ := hall recipient hmem
  rw [(authcryptRecipient_header _ _ hi).2]
  exact unpackCekAuthcrypt_eq laws hi hkid

theorem packMsg_unpacked (laws : PackLaws crates) {receivers : String} {senderVk : Option String}
    {packed : Bytes} (h : packMsg draws message receivers senderVk wallet = .ok packed) :
    ∃ receiverList, receiverListOf crates receivers = some receiverList ∧ receiverList ≠ [] ∧
      ∀ receiverWallet : KeyWallet crates, unpackMsg packed receiverWallet =
        unpackedMessage receiverWallet message receiverList senderVk := by
  obtain ⟨receiverList, hlist, h⟩ := bind_eq_ok_iff.mp h
  refine ⟨receiverList, ofOption_eq_ok.mp hlist, ?_⟩
  by_cases hempty : receiverList = []
  · rw [if_pos hempty] at h
    cases h
  · rw [if_neg hempty] at h
    refine ⟨hempty, ?_⟩
    intro receiverWallet
    cases senderVk with
    | none =>
      obtain ⟨base64Protected, hprotected, h⟩ := bind_eq_ok_iff.mp h
      cases h
      exact anoncrypt_unpacked laws hprotected receiverWallet
    | some senderVk =>
      obtain ⟨base64Protected, hprotected, h⟩ := bind_eq_ok_iff.mp h
      cases h
      obtain ⟨-, -, hprotected⟩ := bind_eq_ok_iff.mp hprotected
      exact authcrypt_unpacked laws hprotected receiverWallet

/-- A packed text is unpacked with the first listed receiver that is the name of a key at hand, and
gives the text, that receiver and the sender. There is no other way to unpack a packed message. -/
theorem unpackMsg_packMsg (laws : PackLaws crates) {draws : PackDraws} {message : Bytes}
    {receivers : String} {senderVk : Option String} {senderWallet : KeyWallet crates}
    {packed : Bytes} (h : packMsg draws message receivers senderVk senderWallet = .ok packed) :
    ∃ receiverList, receiverListOf crates receivers = some receiverList ∧ receiverList ≠ [] ∧
      ∀ wallet : KeyWallet crates,
        (∀ text vk, message = ofText text →
          receiverList.find? (fun vk => vk ∈ wallet.keys) = some vk →
          unpackMsg packed wallet =
            .ok (ofText (UnpackMessage.toJson ⟨text, vk, senderVk⟩).text)) ∧
        (toText message = none → ∃ err, unpackMsg packed wallet = .err err) ∧
        ((∀ vk ∈ receiverList, vk ∉ wallet.keys) → unpackMsg packed wallet =
          .err (errMsg .walletItemNotFound "Wallet item not found")) := by
  obtain ⟨receiverList, hlist, hempty, hall⟩ := packMsg_unpacked laws h
  refine ⟨receiverList, hlist, hempty, fun wallet => ⟨?_, ?_, ?_⟩⟩
  · rintro text vk rfl hfound
    rw [hall, unpackedMessage, hfound, ofOption_some, ok_bind,
      toText_ofText, ofOption_some, ok_bind]
  · intro htext
    rw [hall, unpackedMessage, htext, ofOption_none]
    cases receiverList.find? (fun vk => vk ∈ wallet.keys) with
    | none => exact ⟨_, rfl⟩
    | some vk => exact ⟨_, rfl⟩
  · intro hnone
    have hfound : receiverList.find? (fun vk => vk ∈ wallet.keys) = none := by
      rw [find?_eq_none]
      intro vk hvk htrue
      exact hnone vk hvk (of_decide_eq_true htrue)
    rw [hall, unpackedMessage, hfound]
    rfl

/-! ### An example -/

def sharedSecret (pk : BoxPublicKey) (sk : BoxSecretKey) : Bytes :=
  List.zipWith (· + ·) pk.bytes sk.bytes

/-- What was sealed under a key opens under that key only. -/
def openUnder (secret doc : Bytes) : Option Bytes :=
  if doc.take secret.length = secret then some (doc.drop secret.length) else none

theorem openUnder_append (secret doc : Bytes) : openUnder secret (secret ++ doc) = some doc := by
  rw [openUnder, take_left, if_pos rfl, drop_left]

/-- Boxes that carry the key they are sealed under. -/
def exampleSodium : Sodium where
  keypairFromSeed seed := (seed, ⟨seed.bytes ++ seed.bytes, by
    rw [length_append, seed.length_bytes]⟩)
  vkToCurve25519 vk := vk
  skToCurve25519 sk := ⟨sk.bytes.take 32, by rw [length_take, sk.length_bytes]; rfl⟩
  boxSeal doc _ pk sk := sharedSecret pk sk ++ doc
  boxOpen doc _ pk sk := openUnder (sharedSecret pk sk) doc
  sealedboxSeal _ pk doc := pk.bytes ++ doc
  sealedboxOpen doc pk _ := openUnder pk.bytes doc
  sealDetached message _ _ cek :=
    (message, ⟨cek.bytes.take 16, by rw [length_take, cek.length_bytes]; rfl⟩)
  openDetached ciphertext _ tag _ cek :=
    if tag.bytes = cek.bytes.take 16 then some ciphertext else none

def exampleCrates : PackCrates where
  codec := rustBase58Codec
  sodium := exampleSodium
  encodeUrlsafe := Base64.encode
  decodeUrlsafe := Base64.decode
  base64Decode _ := none
  fromHex _ := none
  fromStr := Json.read

theorem sharedSecret_comm (mine theirs : Seed) :
    sharedSecret (exampleSodium.vkToCurve25519 (exampleSodium.keypairFromSeed theirs).1)
        (exampleSodium.skToCurve25519 (exampleSodium.keypairFromSeed mine).2) =
      sharedSecret (exampleSodium.vkToCurve25519 (exampleSodium.keypairFromSeed mine).1)
        (exampleSodium.skToCurve25519 (exampleSodium.keypairFromSeed theirs).2) := by
  have hsecret : ∀ seed : Seed, (exampleSodium.skToCurve25519
      (exampleSodium.keypairFromSeed seed).2).bytes = seed.bytes := by
    intro seed
    exact take_left' seed.length_bytes
  rw [sharedSecret, sharedSecret, hsecret, hsecret]
  exact zipWith_comm_of_comm UInt8.add_comm

theorem exampleCrates_laws : PackLaws exampleCrates where
  box_open mine theirs nonce doc := by
    have hcomm := congrArg (fun secret => openUnder (sharedSecret
      (exampleSodium.vkToCurve25519 (exampleSodium.keypairFromSeed mine).1)
      (exampleSodium.skToCurve25519 (exampleSodium.keypairFromSeed theirs).2)) (secret ++ doc))
      (sharedSecret_comm mine theirs)
    exact hcomm.trans (openUnder_append _ doc)
  sealedbox_open seed random doc := openUnder_append _ doc
  detached_open message ad nonce cek := if_pos rfl
  decode_encode := Base64.decode_encode
  read_text _ h := Json.read_text h

/-- The wallet of the key of a seed. -/
def walletOf (crates : PackCrates) (seed : Seed) : KeyWallet crates where
  keys := AList.insert (createdKey crates seed).verkey (createdKey crates seed) ∅
  created id key h := by
    by_cases hid : id = (createdKey crates seed).verkey
    · rw [hid, lookup_insert] at h
      cases h
      exact ⟨hid, seed, rfl⟩
    · rw [lookup_insert_ne hid] at h
      cases h

def exampleSeed : Seed := ⟨List.replicate 32 0, length_replicate⟩

def exampleVk : String := (createdKey exampleCrates exampleSeed).verkey

def exampleDraws : PackDraws where
  cek := exampleSeed
  nonce := ⟨List.replicate 12 0, length_replicate⟩
  keySeal _ := []
  senderSeal _ := []
  boxNonce _ := ⟨List.replicate 24 0, length_replicate⟩

theorem receiverListOf_text (laws : PackLaws crates) (vk : String) :
    receiverListOf crates (Json.arr [.str vk]).text = some [vk] := by
  rw [receiverListOf, laws.read_text _ rfl]
  rfl

theorem packMsg_single (laws : PackLaws crates) {vk : String} {encCek : Bytes} (message : Bytes)
    (wallet : KeyWallet crates)
    (h : cryptoBoxSeal crates (draws.keySeal 0) vk draws.cek.bytes = .ok encCek) :
    ∃ packed, packMsg draws message (Json.arr [.str vk]).text none wallet = .ok packed := by
  have hrecipient : anoncryptRecipient crates draws (vk, 0) =
      .ok ⟨crates.encodeUrlsafe encCek, ⟨vk, none, none⟩⟩ := by
    rw [anoncryptRecipient, h, ok_bind]
  rw [packMsg, receiverListOf_text laws, ofOption_some, ok_bind,
    if_neg (cons_ne_nil _ _), prepareProtectedAnoncrypt, zipIdx_cons, mapM_cons,
    hrecipient, zipIdx_nil, mapM_nil]
  exact ⟨_, rfl⟩

theorem mem_walletOf (seed : Seed) :
    (createdKey crates seed).verkey ∈ (walletOf crates seed).keys := by
  rw [← lookup_isSome, walletOf, lookup_insert]
  rfl

theorem suffixed_sealed : cryptoBoxSeal exampleCrates (exampleDraws.keySeal 0)
    (exampleVk ++ ":ed25519") exampleDraws.cek.bytes =
      .ok (exampleSeed.bytes ++ exampleDraws.cek.bytes) := by
  decide +kernel

theorem suffixed_notMem :
    exampleVk ++ ":ed25519" ∉ (walletOf exampleCrates exampleSeed).keys := by
  decide +kernel

/-- A greeting is unpacked by its receiver. -/
theorem unpackMsg_packMsg_greeting :
    ∃ packed, packMsg exampleDraws (ofText "hi") (Json.arr [.str exampleVk]).text none
        (walletOf exampleCrates exampleSeed) = .ok packed ∧
      unpackMsg packed (walletOf exampleCrates exampleSeed) =
        .ok (ofText (UnpackMessage.toJson ⟨"hi", exampleVk, none⟩).text) := by
  obtain ⟨packed, hpacked⟩ := packMsg_single exampleCrates_laws (ofText "hi")
    (walletOf exampleCrates exampleSeed)
    (cryptoBoxSeal_createdKey (exampleDraws.keySeal 0) exampleSeed exampleDraws.cek.bytes)
  obtain ⟨receiverList, hlist, -, hall⟩ := unpackMsg_packMsg exampleCrates_laws hpacked
  rw [receiverListOf_text exampleCrates_laws] at hlist
  cases hlist
  have hfound : [exampleVk].find? (fun vk => vk ∈ (walletOf exampleCrates exampleSeed).keys) =
      some exampleVk :=
    find?_cons_of_pos (decide_eq_true (mem_walletOf exampleSeed))
  exact ⟨packed, hpacked, (hall _).1 "hi" exampleVk rfl hfound⟩

/-- A message that is no text is packed and not unpacked. A text that is packed for a key whose type
is spelled out is not unpacked by the holder of the key. -/
theorem packed_not_unpacked :
    exampleVk ∈ (walletOf exampleCrates exampleSeed).keys ∧
      (∃ packed, packMsg exampleDraws [255] (Json.arr [.str exampleVk]).text none
          (walletOf exampleCrates exampleSeed) = .ok packed ∧
        unpackMsg packed (walletOf exampleCrates exampleSeed) =
          .err (errMsg .invalidStructure "Failed to convert message to UTF-8 _")) ∧
      ∃ packed, packMsg exampleDraws (ofText "hi")
          (Json.arr [.str (exampleVk ++ ":ed25519")]).text none
          (walletOf exampleCrates exampleSeed) = .ok packed ∧
        unpackMsg packed (walletOf exampleCrates exampleSeed) =
          .err (errMsg .walletItemNotFound "Wallet item not found") := by
  refine ⟨mem_walletOf exampleSeed, ?_, ?_⟩
  · obtain ⟨packed, hpacked⟩ := packMsg_single exampleCrates_laws [255]
      (walletOf exampleCrates exampleSeed)
      (cryptoBoxSeal_createdKey (exampleDraws.keySeal 0) exampleSeed exampleDraws.cek.bytes)
    obtain ⟨receiverList, hlist, -, hall⟩ := packMsg_unpacked exampleCrates_laws hpacked
    rw [receiverListOf_text exampleCrates_laws] at hlist
    cases hlist
    have hfound : [exampleVk].find? (fun vk => vk ∈ (walletOf exampleCrates exampleSeed).keys) =
        some exampleVk :=
      find?_cons_of_pos (decide_eq_true (mem_walletOf exampleSeed))
    have htext : toText [255] = none := by decide +kernel
    refine ⟨packed, hpacked, ?_⟩
    rw [hall, unpackedMessage, htext]
    exact congrArg (fun found => ofOption _ found >>= _) hfound
  · obtain ⟨packed, hpacked⟩ := packMsg_single exampleCrates_laws (ofText "hi")
      (walletOf exampleCrates exampleSeed) suffixed_sealed
    obtain ⟨receiverList, hlist, -, hall⟩ := packMsg_unpacked exampleCrates_laws hpacked
    rw [receiverListOf_text exampleCrates_laws] at hlist
    cases hlist
    refine ⟨packed, hpacked, ?_⟩
    rw [hall, unpackedMessage, find?_cons_of_neg (by simpa using suffixed_notMem)]
    rfl

end IndySdk.Crypto
