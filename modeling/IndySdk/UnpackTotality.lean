import IndySdk.PackRoundTrip

/-!
# Messages that cannot be unpacked

Whoever sends a message chooses its protected part. The recipients in it name their sender and
their nonce independently of each other, and a recipient that is read as one of a known sender is
expected to have a nonce.
-/

namespace IndySdk.Crypto

open Outcome Option Bytes

variable {crates : PackCrates}

/-! ### Parts that only fail -/

theorem fromSlice_ne_panic (name : String) (length : ℕ) (bs : Bytes) :
    fromSlice name length bs ≠ .panic := by
  unfold fromSlice
  split
  · exact ok_ne_panic _
  · exact err_ne_panic _

theorem reported_ne_panic {α : Type} (kind : IndyErrorKind) (msg : String) {x : IndyResult α}
    (h : x ≠ .panic) : reported kind msg x ≠ .panic := by
  cases x with
  | ok a => exact ok_ne_panic _
  | err e => exact err_ne_panic _
  | panic => exact absurd rfl h

theorem decodeUrlsafe_ne_panic (doc : String) : decodeUrlsafe crates doc ≠ .panic :=
  ofOption_ne_panic _ _

theorem KeyWallet.getKey_ne_panic (wallet : KeyWallet crates) (id : String) :
    wallet.getKey id ≠ .panic :=
  ofOption_ne_panic _ _

theorem secretKey_ne_panic (signkey : String) : secretKey crates signkey ≠ .panic :=
  bind_ne_panic (decode_ne_panic _) (fun _ => fromSlice_ne_panic _ _ _)

theorem publicKey_ne_panic (verkey : String) : publicKey crates verkey ≠ .panic :=
  bind_ne_panic (decode_ne_panic _) (fun _ => fromSlice_ne_panic _ _ _)

theorem knownCryptoType_ne_panic (msg cryptoTypeName : String) :
    knownCryptoType msg cryptoTypeName ≠ .panic := by
  unfold knownCryptoType
  split
  · exact ok_ne_panic _
  · exact err_ne_panic _

theorem compatibleKey_ne_panic (msg : String) (myKey : Key) (theirVk : String) :
    compatibleKey msg myKey theirVk ≠ .panic := by
  refine bind_ne_panic (knownCryptoType_ne_panic _ _) (fun _ => ?_)
  split
  · exact ok_ne_panic _
  · exact err_ne_panic _

theorem cryptoBoxOpen_ne_panic (myKey : Key) (theirVk : String) (doc nonce : Bytes) :
    cryptoBoxOpen crates myKey theirVk doc nonce ≠ .panic := by
  refine bind_ne_panic (compatibleKey_ne_panic _ _ _) (fun _ => ?_)
  refine bind_ne_panic (secretKey_ne_panic _) (fun _ => ?_)
  refine bind_ne_panic (publicKey_ne_panic _) (fun _ => ?_)
  refine bind_ne_panic (fromSlice_ne_panic _ _ _) (fun _ => ?_)
  exact ofOption_ne_panic _ _

theorem cryptoBoxSealOpen_ne_panic (myKey : Key) (doc : Bytes) :
    cryptoBoxSealOpen crates myKey doc ≠ .panic := by
  refine bind_ne_panic (knownCryptoType_ne_panic _ _) (fun _ => ?_)
  refine bind_ne_panic (publicKey_ne_panic _) (fun _ => ?_)
  refine bind_ne_panic (secretKey_ne_panic _) (fun _ => ?_)
  exact ofOption_ne_panic _ _

theorem decryptCiphertext_ne_panic (ciphertext aad iv tag : String) (cek : ContentKey) :
    decryptCiphertext crates ciphertext aad iv tag cek ≠ .panic := by
  have hdecode : ∀ msg doc,
      reported .invalidStructure msg (decodeUrlsafe crates doc) ≠ .panic :=
    fun msg doc => reported_ne_panic _ _ (decodeUrlsafe_ne_panic doc)
  have hslice : ∀ msg name length bs,
      reported .invalidStructure msg (fromSlice name length bs) ≠ .panic :=
    fun msg name length bs => reported_ne_panic _ _ (fromSlice_ne_panic name length bs)
  refine bind_ne_panic (hdecode _ _) (fun _ => ?_)
  refine bind_ne_panic (hdecode _ _) (fun _ => ?_)
  refine bind_ne_panic (hslice _ _ _ _) (fun _ => ?_)
  refine bind_ne_panic (hdecode _ _) (fun _ => ?_)
  refine bind_ne_panic (hslice _ _ _ _) (fun _ => ?_)
  refine bind_ne_panic (ofOption_ne_panic _ _) (fun _ => ?_)
  exact ofOption_ne_panic _ _

theorem unpackCekAnoncrypt_ne_panic (recipient : Recipient) (wallet : KeyWallet crates) :
    unpackCekAnoncrypt recipient wallet ≠ .panic := by
  refine bind_ne_panic (decodeUrlsafe_ne_panic _) (fun _ => ?_)
  refine bind_ne_panic (wallet.getKey_ne_panic _) (fun _ => ?_)
  refine bind_ne_panic (cryptoBoxSealOpen_ne_panic _ _) (fun _ => ?_)
  refine bind_ne_panic
    (reported_ne_panic _ _ (fromSlice_ne_panic "Key" 32 _)) (fun _ => ?_)
  exact ok_ne_panic _

/-! ### The recipient that is unpacked -/

/-- The recipients of a message that can be read. -/
def recipientsIn (crates : PackCrates) (jweJson : Bytes) : Option (List Recipient) := do
  let jweStruct ← ((toText jweJson).bind crates.fromStr).bind JWE.decode
  let protectedDecoded ← crates.decodeUrlsafe jweStruct.protected_
  let protectedDecoded ← toText protectedDecoded
  let protectedStruct ← (crates.fromStr protectedDecoded).bind Protected.decode
  some protectedStruct.recipients

/-- A sender is named, there is no nonce, and the encrypted key is well formed. -/
def Recipient.LacksNonce (crates : PackCrates) (recipient : Recipient) : Prop :=
  recipient.header.sender.isSome ∧ recipient.header.iv = none ∧
    (crates.decodeUrlsafe recipient.encryptedKey).isSome

theorem unpackCekAuthcrypt_eq_panic_iff {recipient : Recipient} {wallet : KeyWallet crates}
    (hsender : recipient.header.sender.isSome) :
    unpackCekAuthcrypt recipient wallet = .panic ↔ recipient.LacksNonce crates := by
  obtain ⟨sender, hsender'⟩ := isSome_iff_exists.mp hsender
  rw [Recipient.LacksNonce, unpackCekAuthcrypt, hsender']
  cases hkey : crates.decodeUrlsafe recipient.encryptedKey with
  | none =>
    rw [decodeUrlsafe, hkey]
    exact iff_of_false (err_ne_panic _) (fun h => by cases h.2.2)
  | some encryptedKey =>
    rw [decodeUrlsafe, hkey, ofOption_some, ok_bind]
    cases hiv : recipient.header.iv with
    | none => exact iff_of_true rfl ⟨rfl, rfl, rfl⟩
    | some iv =>
      refine iff_of_false ?_ (fun h => by cases h.2.1)
      rw [unwrap_some, ok_bind]
      refine bind_ne_panic (decodeUrlsafe_ne_panic _) (fun _ => ?_)
      rw [unwrap_some, ok_bind]
      refine bind_ne_panic (decodeUrlsafe_ne_panic _) (fun _ => ?_)
      refine bind_ne_panic (wallet.getKey_ne_panic _) (fun _ => ?_)
      refine bind_ne_panic (cryptoBoxSealOpen_ne_panic _ _) (fun _ => ?_)
      refine bind_ne_panic (ofOption_ne_panic _ _) (fun _ => ?_)
      refine bind_ne_panic (cryptoBoxOpen_ne_panic _ _ _ _) (fun _ => ?_)
      refine bind_ne_panic
        (reported_ne_panic _ _ (fromSlice_ne_panic "Key" 32 _)) (fun _ => ?_)
      exact ok_ne_panic _

theorem unpackMsg_of_recipientsIn_none {jweJson : Bytes}
    (h : recipientsIn crates jweJson = none) (wallet : KeyWallet crates) :
    unpackMsg jweJson wallet ≠ .panic := by
  rw [recipientsIn] at h
  rw [unpackMsg]
  cases hjwe : ((toText jweJson).bind crates.fromStr).bind JWE.decode with
  | none => exact err_ne_panic _
  | some jweStruct =>
    rw [hjwe, bind_eq_bind, bind_some] at h
    rw [ofOption_some, ok_bind, decodeUrlsafe]
    cases hprotected : crates.decodeUrlsafe jweStruct.protected_ with
    | none => exact err_ne_panic _
    | some bytes =>
      rw [hprotected, bind_eq_bind, bind_some] at h
      rw [ofOption_some, ok_bind]
      cases htext : toText bytes with
      | none => exact err_ne_panic _
      | some text =>
        rw [htext, bind_eq_bind, bind_some] at h
        rw [ofOption_some, ok_bind]
        cases hstruct : (crates.fromStr text).bind Protected.decode with
        | none => exact err_ne_panic _
        | some protectedStruct =>
          rw [hstruct] at h
          cases h

/-- What can go wrong is the key of the recipient. -/
theorem unpackMsg_eq_panic_iff {jweJson : Bytes} {recipients : List Recipient}
    (h : recipientsIn crates jweJson = some recipients) (wallet : KeyWallet crates) :
    unpackMsg jweJson wallet = .panic ↔ ∃ recipient,
      recipients.find? (fun recipient => recipient.header.kid ∈ wallet.keys) = some recipient ∧
      recipient.LacksNonce crates := by
  obtain ⟨jweStruct, hjwe, h⟩ := bind_eq_some_iff.mp h
  obtain ⟨bytes, hprotected, h⟩ := bind_eq_some_iff.mp h
  obtain ⟨text, htext, h⟩ := bind_eq_some_iff.mp h
  obtain ⟨protectedStruct, hstruct, h⟩ := bind_eq_some_iff.mp h
  cases h
  rw [unpackMsg, hjwe, ofOption_some, ok_bind, decodeUrlsafe, hprotected,
    ofOption_some, ok_bind, htext, ofOption_some, ok_bind, hstruct,
    ofOption_some, ok_bind, findCorrectRecipient_eq]
  cases protectedStruct.recipients.find?
      (fun recipient => recipient.header.kid ∈ wallet.keys) with
  | none =>
    refine iff_of_false (err_ne_panic _) ?_
    rintro ⟨recipient, hnone, -⟩
    cases hnone
  | some recipient =>
    rw [map_some, ofOption_some, ok_bind]
    dsimp only
    have hiff : (∃ r, some recipient = some r ∧ r.LacksNonce crates) ↔
        recipient.LacksNonce crates := by
      constructor
      · rintro ⟨r, hr, hlacks⟩
        cases hr
        exact hlacks
      · intro hlacks
        exact ⟨recipient, rfl, hlacks⟩
    rw [hiff, bind_eq_panic_iff]
    have hrest : ∀ found : Option String × ContentKey,
        (decryptCiphertext crates jweStruct.ciphertext jweStruct.protected_ jweStruct.iv
          jweStruct.tag found.2 >>= fun message => (.ok (ofText (UnpackMessage.toJson
            ⟨message, recipient.header.kid, found.1⟩).text) : IndyResult Bytes)) ≠ .panic :=
      fun found => bind_ne_panic (decryptCiphertext_ne_panic _ _ _ _ _)
        (fun _ => ok_ne_panic _)
    constructor
    · rintro (hcek | ⟨found, -, hpanic⟩)
      · split at hcek
        · rename_i hsender
          exact (unpackCekAuthcrypt_eq_panic_iff hsender).mp hcek
        · exact absurd hcek (unpackCekAnoncrypt_ne_panic _ _)
      · exact absurd hpanic (hrest found)
    · intro hlacks
      left
      rw [if_pos hlacks.1]
      exact (unpackCekAuthcrypt_eq_panic_iff hlacks.1).mpr hlacks

/-- Unpacking returns a message or an error, unless the first recipient whose key is at hand names
a sender without a nonce. -/
theorem unpackMsg_total_iff (jweJson : Bytes) (wallet : KeyWallet crates) :
    ((∃ res, unpackMsg jweJson wallet = .ok res) ∨ ∃ err, unpackMsg jweJson wallet = .err err) ↔
      ∀ recipients recipient, recipientsIn crates jweJson = some recipients →
        recipients.find? (fun recipient => recipient.header.kid ∈ wallet.keys) = some recipient →
        ¬ recipient.LacksNonce crates := by
  have hreturns : ((∃ res, unpackMsg jweJson wallet = .ok res) ∨
      ∃ err, unpackMsg jweJson wallet = .err err) ↔ unpackMsg jweJson wallet ≠ .panic := by
    cases unpackMsg jweJson wallet with
    | ok res => exact iff_of_true (.inl ⟨res, rfl⟩) (ok_ne_panic _)
    | err err => exact iff_of_true (.inr ⟨err, rfl⟩) (err_ne_panic _)
    | panic =>
      refine iff_of_false ?_ (fun h => h rfl)
      rintro (⟨res, h⟩ | ⟨err, h⟩)
      · cases h
      · cases h
  rw [hreturns]
  cases h : recipientsIn crates jweJson with
  | none =>
    exact iff_of_true (unpackMsg_of_recipientsIn_none h wallet) (fun _ _ hnone => by cases hnone)
  | some recipients =>
    rw [Ne, unpackMsg_eq_panic_iff h]
    constructor
    · rintro hnone recipients' recipient hsame hfound hlacks
      cases hsame
      exact hnone ⟨recipient, hfound, hlacks⟩
    · rintro hnone ⟨recipient, hfound, hlacks⟩
      exact hnone recipients recipient rfl hfound hlacks

/-! ### A sender without a nonce -/

def noncelessRecipient : Recipient := ⟨"", ⟨exampleVk, none, some ""⟩⟩

def noncelessJwe : JWE :=
  ⟨exampleCrates.encodeUrlsafe (ofText
    (Protected.toJson ⟨"", "", "Authcrypt", [noncelessRecipient]⟩).text), "", "", ""⟩

theorem noncelessJwe_recipients :
    recipientsIn exampleCrates (ofText noncelessJwe.toJson.text) =
      some [noncelessRecipient] := by
  have hprotected := exampleCrates_laws.read_text
    (Protected.toJson ⟨"", "", "Authcrypt", [noncelessRecipient]⟩) (Protected.textual_toJson _)
  rw [recipientsIn, toText_ofText, bind_some,
    exampleCrates_laws.read_text _ noncelessJwe.textual_toJson, bind_some,
    JWE.decode_toJson, bind_eq_bind, bind_some]
  dsimp only [noncelessJwe]
  rw [exampleCrates_laws.decode_encode, bind_eq_bind, bind_some,
    toText_ofText, bind_eq_bind, bind_some, hprotected, bind_some,
    Protected.decode_toJson]
  rfl

/-- A recipient that names a sender and no nonce aborts the thread. -/
theorem nonceless_panics :
    unpackMsg (ofText noncelessJwe.toJson.text) (walletOf exampleCrates exampleSeed) =
      .panic := by
  refine (unpackMsg_eq_panic_iff noncelessJwe_recipients _).mpr
    ⟨noncelessRecipient, ?_, rfl, rfl, rfl⟩
  exact List.find?_cons_of_pos (decide_eq_true (mem_walletOf exampleSeed))

end IndySdk.Crypto
