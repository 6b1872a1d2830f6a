import IndySdk.Base58
import IndySdk.ImportAtomicity
import IndySdk.JsonReader
import IndySdk.WalletRekey

/-!
# The keys that open a wallet after it was given a new one

What stored metadata give to a passphrase does not depend on the service that opens them. Metadata
that were rotated give the keys of the records to the new passphrase, with the method that it was
rotated for, and an error to any other one.
-/

namespace IndySdk.Rekeying

open Outcome AList
open Imports (Directory Metadata OpenWallet Randomness getDirectory prepareMetadata restoreKeys)
open Wallet (Key KeyDerivationData KeyDerivationMethod Keys Nonce Salt WalletCrypto)
open Wallets (Config)

variable {env : Environment}

/-! ### Metadata and passphrases -/

/-- The credentials of the new key. -/
def Credentials.renewed (credentials : Credentials) (rekey : String) : Credentials :=
  { credentials with
    key := rekey
    rekey := none
    keyDerivationMethod := credentials.rekeyDerivationMethod }

/-- The keys that stored metadata give to a passphrase. -/
def unlock (env : Environment) (passphrase : String) (method : KeyDerivationMethod)
    (stored : Bytes) : IndyResult Keys := do
  let metadata ← Outcome.ofOption (errMsg .invalidState "Cannot deserialize metadata")
    (env.base.metadataCrates.metadataFromSlice stored)
  let keyData ← fromPassphraseAndMetadata env passphrase metadata method
  let masterKey ← keyData.calcMasterKey env.crates
  restoreKeys env.base metadata masterKey

theorem decryptMerged_nonce (wc : WalletCrypto) (nonce : Nonce) (data : Bytes) (key : Key) :
    Wallet.decryptMerged wc (nonce.bytes ++ data) key = Wallet.decrypt wc data key nonce := by
  have hdrop : (nonce.bytes ++ data).drop Wallet.nonceBytes = data :=
    List.drop_left' nonce.length_eq
  have htake : (nonce.bytes ++ data).take Wallet.nonceBytes = nonce.bytes :=
    List.take_left' nonce.length_eq
  have hlength : Wallet.nonceBytes ≤ (nonce.bytes ++ data).length := by
    rw [List.length_append, nonce.length_eq]
    exact Nat.le_add_right _ _
  rw [Wallet.decryptMerged, dif_pos hlength]
  simp only [hdrop, htake]

theorem calcMasterKey_ne_panic (keyData : KeyDerivationData env.crates.saltBytes) :
    keyData.calcMasterKey env.crates ≠ .panic := by
  cases keyData with
  | raw passphrase =>
    rw [KeyDerivationData.calcMasterKey, KeyDerivationData.rawMasterKey]
    apply bind_ne_panic (ofOption_ne_panic _ _)
    intro bytes
    unfold Wallet.Key.fromSlice
    split
    · exact ok_ne_panic _
    · exact err_ne_panic _
  | argon2iMod passphrase salt => exact ofOption_ne_panic _ _
  | argon2iInt passphrase salt => exact ofOption_ne_panic _ _

theorem fromPassphraseAndMetadata_ne_panic (passphrase : String) (metadata : Metadata)
    (method : KeyDerivationMethod) :
    fromPassphraseAndMetadata env passphrase metadata method ≠ .panic := by
  have hsalt : ∀ slice, masterKeySaltFromSlice env slice ≠ .panic := by
    intro slice
    unfold masterKeySaltFromSlice Wallet.Salt.fromSlice
    split
    · exact ok_ne_panic _
    · exact err_ne_panic _
  unfold fromPassphraseAndMetadata
  split
  · exact ok_ne_panic _
  · exact map_ne_panic _ (hsalt _)
  · exact map_ne_panic _ (hsalt _)
  · exact err_ne_panic _

theorem deriveKeys_ne_panic (keyData : KeyDerivationData env.crates.saltBytes)
    (rekeyData : Option (KeyDerivationData env.crates.saltBytes)) :
    deriveKeys env keyData rekeyData ≠ .panic := by
  apply bind_ne_panic (calcMasterKey_ne_panic keyData)
  intro key
  cases rekeyData with
  | none => exact ok_ne_panic _
  | some rekeyData =>
    apply bind_ne_panic (calcMasterKey_ne_panic rekeyData)
    intro newKey
    exact ok_ne_panic _

/-- The layout of metadata for key data. -/
def metadataOf : KeyDerivationData env.crates.saltBytes → Bytes → Metadata
  | .raw _, keys => .raw keys
  | .argon2iInt _ salt, keys | .argon2iMod _ salt, keys => .argon keys salt.bytes

variable {random : Randomness}

theorem prepareMetadata_eq_ok {masterKey : Key} {keyData : KeyDerivationData env.crates.saltBytes}
    {bytes : Bytes} (h : prepareMetadata env.base masterKey keyData random = .ok bytes) :
    ∃ serialized, env.codecs.keysToVec random.keys = some serialized ∧
      env.base.metadataCrates.metadataFromSlice bytes = some (metadataOf keyData
        (Wallet.encryptAsNotSearchable env.wc serialized masterKey random.nonce)) := by
  obtain ⟨encryptedKeys, hkeys, hbytes⟩ := bind_eq_ok_iff.mp h
  obtain ⟨serialized, hserialized, hkeys⟩ := bind_eq_ok_iff.mp hkeys
  cases hkeys
  refine ⟨serialized, ofOption_eq_ok.mp hserialized, ?_⟩
  have hmetadata := env.base.metadataCrates.metadataFromSlice_toVec _ _
    (ofOption_eq_ok.mp hbytes)
  cases keyData with
  | raw passphrase => exact hmetadata
  | argon2iMod passphrase salt => exact hmetadata
  | argon2iInt passphrase salt => exact hmetadata

theorem restoreKeys_metadataOf (keyData : KeyDerivationData env.crates.saltBytes)
    (encryptedKeys : Bytes) (masterKey : Key) :
    restoreKeys env.base (metadataOf keyData encryptedKeys) masterKey =
      toIndy .walletAccessFailed "Invalid master key provided"
        (Imports.deserializeEncrypted env.base encryptedKeys masterKey) := by
  cases keyData with
  | raw passphrase => rfl
  | argon2iMod passphrase salt => rfl
  | argon2iInt passphrase salt => rfl

/-- Another passphrase is tried with the salt of the metadata, if both methods take one or none. -/
theorem fromPassphraseAndMetadata_cases (passphrase rekey : String)
    (method rekeyMethod : KeyDerivationMethod) (salt : Salt env.crates.saltBytes)
    (encryptedKeys : Bytes) :
    (method = .raw ↔ rekeyMethod = .raw) ∧
      fromPassphraseAndMetadata env passphrase
        (metadataOf (fromPassphraseWithNewSalt env rekey rekeyMethod salt) encryptedKeys) method =
          .ok (fromPassphraseWithNewSalt env passphrase method salt) ∨
    method ≠ rekeyMethod ∧ ∃ e, fromPassphraseAndMetadata env passphrase
      (metadataOf (fromPassphraseWithNewSalt env rekey rekeyMethod salt) encryptedKeys) method =
        .err e := by
  have hsalt : masterKeySaltFromSlice env salt.bytes = .ok salt := by
    rw [masterKeySaltFromSlice, Wallet.Salt.fromSlice, dif_pos salt.length_eq]
    rfl
  have hmod : KeyDerivationData.argon2iMod passphrase <$>
      masterKeySaltFromSlice env salt.bytes = .ok (.argon2iMod passphrase salt) := by
    rw [hsalt, map_ok]
  have hint : KeyDerivationData.argon2iInt passphrase <$>
      masterKeySaltFromSlice env salt.bytes = .ok (.argon2iInt passphrase salt) := by
    rw [hsalt, map_ok]
  cases rekeyMethod with
  | raw =>
    cases method with
    | raw => exact .inl ⟨Iff.rfl, rfl⟩
    | argon2iMod => exact .inr ⟨by decide, _, rfl⟩
    | argon2iInt => exact .inr ⟨by decide, _, rfl⟩
  | argon2iMod =>
    cases method with
    | raw => exact .inr ⟨by decide, _, rfl⟩
    | argon2iMod => exact .inl ⟨Iff.rfl, hmod⟩
    | argon2iInt => exact .inl ⟨by decide, hint⟩
  | argon2iInt =>
    cases method with
    | raw => exact .inr ⟨by decide, _, rfl⟩
    | argon2iMod => exact .inl ⟨by decide, hmod⟩
    | argon2iInt => exact .inl ⟨Iff.rfl, hint⟩

theorem unlock_prepareMetadata {passphrase : String} {method : KeyDerivationMethod}
    {salt : Salt env.crates.saltBytes} {masterKey : Key} {random : Randomness} {bytes : Bytes}
    (hkey : (fromPassphraseWithNewSalt env passphrase method salt).calcMasterKey env.crates =
      .ok masterKey)
    (h : prepareMetadata env.base masterKey (fromPassphraseWithNewSalt env passphrase method salt)
      random = .ok bytes) :
    unlock env passphrase method bytes = .ok random.keys := by
  obtain ⟨serialized, hserialized, hmetadata⟩ := prepareMetadata_eq_ok h
  have hkeys := env.codecs.keysFromSlice_toVec _ _ hserialized
  rw [unlock, hmetadata, ofOption_some, ok_bind]
  obtain ⟨-, hdata⟩ | ⟨hne, -⟩ := fromPassphraseAndMetadata_cases passphrase passphrase method
    method salt (Wallet.encryptAsNotSearchable env.wc serialized masterKey random.nonce)
  · rw [hdata, ok_bind, hkey, ok_bind, restoreKeys_metadataOf, toIndy_eq_ok,
      Imports.deserializeEncrypted]
    refine bind_eq_ok_iff.mpr ⟨serialized,
      Wallet.decryptMerged_encryptAsNotSearchable env.wc serialized masterKey random.nonce, ?_⟩
    exact ofOption_eq_ok.mpr hkeys
  · exact absurd rfl hne

/-- What is taken of the libraries where the old key is tried on metadata under the new one. -/
structure Apart (env : Environment) (credentials : Credentials) (rekey : String)
    (salt : Salt env.crates.saltBytes) (random : Randomness) (keys : Keys) : Prop where
  base58 : ∀ a b bytes, env.crates.base58 a = some bytes → env.crates.base58 b = some bytes →
    a = b
  pwhash : ∀ key,
    env.crates.pwhash credentials.keyDerivationMethod (Bytes.ofText credentials.key) salt =
      some key →
    env.crates.pwhash credentials.rekeyDerivationMethod (Bytes.ofText rekey) salt = some key →
    credentials.key = rekey ∧ credentials.keyDerivationMethod = credentials.rekeyDerivationMethod
  foreign : ∀ bytes key key',
    (fromPassphraseWithNewSalt env rekey credentials.rekeyDerivationMethod salt).calcMasterKey
      env.crates = .ok key →
    (fromPassphraseWithNewSalt env credentials.key credentials.keyDerivationMethod
      salt).calcMasterKey env.crates = .ok key' →
    env.codecs.keysToVec keys = some bytes → key ≠ key' →
    env.wc.decrypt (env.wc.encrypt bytes key random.nonce) key' random.nonce = none

/-- The old key is the one that is set. -/
def Credentials.Same (credentials : Credentials) (rekey : String) : Prop :=
  credentials.key = rekey ∧ credentials.keyDerivationMethod = credentials.rekeyDerivationMethod

variable {key : Key} {rekey : String}

theorem rawMasterKey_injective {a b : String}
    (hbase58 : ∀ a b bytes, env.crates.base58 a = some bytes → env.crates.base58 b = some bytes →
      a = b) (ha : KeyDerivationData.rawMasterKey env.crates a = .ok key)
    (hb : KeyDerivationData.rawMasterKey env.crates b = .ok key) : a = b := by
  have hbytes : ∀ s, KeyDerivationData.rawMasterKey env.crates s = .ok key →
      env.crates.base58 s = some key.bytes := by
    intro s hs
    obtain ⟨bytes, hdecode, hs⟩ := bind_eq_ok_iff.mp hs
    rw [toIndy_eq_ok, Wallet.Key.fromSlice] at hs
    split at hs
    · cases hs
      exact ofOption_eq_ok.mp hdecode
    · cases hs
  exact hbase58 a b key.bytes (hbytes a ha) (hbytes b hb)

theorem same_of_calcMasterKey {credentials : Credentials} {salt : Salt env.crates.saltBytes}
    {keys : Keys} (hapart : Apart env credentials rekey salt random keys)
    (hraw : credentials.keyDerivationMethod = .raw ↔ credentials.rekeyDerivationMethod = .raw)
    (hold : (fromPassphraseWithNewSalt env credentials.key credentials.keyDerivationMethod
      salt).calcMasterKey env.crates = .ok key)
    (hnew : (fromPassphraseWithNewSalt env rekey credentials.rekeyDerivationMethod
      salt).calcMasterKey env.crates = .ok key) : credentials.Same rekey := by
  have hderived : ∀ passphrase method, method ≠ .raw →
      (fromPassphraseWithNewSalt env passphrase method salt).calcMasterKey env.crates = .ok key →
      env.crates.pwhash method (Bytes.ofText passphrase) salt = some key := by
    intro passphrase method hmethod h
    cases method with
    | raw => exact absurd rfl hmethod
    | argon2iMod => exact ofOption_eq_ok.mp h
    | argon2iInt => exact ofOption_eq_ok.mp h
  by_cases hmethod : credentials.keyDerivationMethod = .raw
  · rw [hmethod] at hold
    rw [hraw.mp hmethod] at hnew
    exact ⟨rawMasterKey_injective hapart.base58 hold hnew, hmethod.trans (hraw.mp hmethod).symm⟩
  · exact hapart.pwhash key (hderived _ _ hmethod hold)
      (hderived _ _ (fun h => hmethod (hraw.mpr h)) hnew)

/-- A key other than the one that is set gets an error from the new metadata. -/
theorem unlock_foreign {credentials : Credentials} {salt : Salt env.crates.saltBytes}
    {masterKey : Key} {bytes : Bytes} (hapart : Apart env credentials rekey salt random random.keys)
    (hne : ¬ credentials.Same rekey)
    (hkey : (fromPassphraseWithNewSalt env rekey credentials.rekeyDerivationMethod
      salt).calcMasterKey env.crates = .ok masterKey)
    (h : prepareMetadata env.base masterKey (fromPassphraseWithNewSalt env rekey
      credentials.rekeyDerivationMethod salt) random = .ok bytes) :
    ∃ e, unlock env credentials.key credentials.keyDerivationMethod bytes = .err e := by
  obtain ⟨serialized, hserialized, hmetadata⟩ := prepareMetadata_eq_ok h
  rw [unlock, hmetadata, ofOption_some, ok_bind]
  obtain ⟨hraw, hdata⟩ | ⟨-, e, herr⟩ := fromPassphraseAndMetadata_cases credentials.key rekey
    credentials.keyDerivationMethod credentials.rekeyDerivationMethod salt
    (Wallet.encryptAsNotSearchable env.wc serialized masterKey random.nonce)
  · rw [hdata, ok_bind]
    cases hold : (fromPassphraseWithNewSalt env credentials.key credentials.keyDerivationMethod
        salt).calcMasterKey env.crates with
    | ok key =>
      have hkeys : masterKey ≠ key := by
        intro heq
        rw [heq] at hkey
        exact hne (same_of_calcMasterKey hapart hraw hold hkey)
      have hforeign := hapart.foreign serialized masterKey key hkey hold hserialized hkeys
      have hmerged : Wallet.decryptMerged env.wc
          (Wallet.encryptAsNotSearchable env.wc serialized masterKey random.nonce) key =
            .err (errMsg .invalidStructure "Unable to open sodium chacha20poly1305_ietf") := by
        rw [Wallet.encryptAsNotSearchable, decryptMerged_nonce, Wallet.decrypt, hforeign]
        rfl
      refine ⟨errMsg .walletAccessFailed "Invalid master key provided", ?_⟩
      rw [ok_bind, restoreKeys_metadataOf, Imports.deserializeEncrypted]
      change toIndy _ _ (Wallet.decryptMerged env.wc _ _ >>= _) = _
      rw [hmerged]
      rfl
    | err e => exact ⟨e, rfl⟩
    | panic => exact absurd hold (calcMasterKey_ne_panic _)
  · exact ⟨e, by rw [herr]; rfl⟩

/-! ### Openings -/

theorem rotate_cases {rekey : Option Key}
    {rekeyData : Option (KeyDerivationData env.crates.saltBytes)} {keys : Keys} {answers : Answers}
    {metadata : Option Bytes}
    (h : WalletService.rotate rekey rekeyData keys random answers = .ok metadata) :
    (rekey = none ∨ rekeyData = none) ∧ metadata = none ∨
      ∃ masterKey keyData bytes, rekey = some masterKey ∧ rekeyData = some keyData ∧
        metadata = some bytes ∧
        prepareMetadata env.base masterKey keyData { random with keys } = .ok bytes := by
  cases rekey with
  | none =>
    cases h
    exact .inl ⟨.inl rfl, rfl⟩
  | some masterKey =>
    cases rekeyData with
    | none =>
      cases h
      exact .inl ⟨.inr rfl, rfl⟩
    | some keyData =>
      obtain ⟨bytes, hbytes, h⟩ := bind_eq_ok_iff.mp h
      obtain ⟨_, _, h⟩ := bind_eq_ok_iff.mp h
      cases h
      exact .inr ⟨masterKey, keyData, bytes, rfl, rfl, rfl, hbytes⟩

theorem deriveKeys_eq_ok {keyData : KeyDerivationData env.crates.saltBytes}
    {rekeyData : Option (KeyDerivationData env.crates.saltBytes)} {rekey : Option Key}
    (h : deriveKeys env keyData rekeyData = .ok (key, rekey)) :
    keyData.calcMasterKey env.crates = .ok key ∧
      (rekeyData = none ∧ rekey = none ∨ ∃ newData newKey, rekeyData = some newData ∧
        rekey = some newKey ∧ newData.calcMasterKey env.crates = .ok newKey) := by
  obtain ⟨key', hkey, h⟩ := bind_eq_ok_iff.mp h
  cases rekeyData with
  | none =>
    cases h
    exact ⟨hkey, .inl ⟨rfl, rfl⟩⟩
  | some newData =>
    obtain ⟨newKey, hnew, h⟩ := bind_eq_ok_iff.mp h
    cases h
    exact ⟨hkey, .inr ⟨newData, newKey, rfl, rfl, hnew⟩⟩

namespace WalletService

variable {s s' t : WalletService env} {config : Config} {credentials : Credentials}
  {walletHandle : ℤ} {file : ℕ} {keys : Keys}

/-- The file of the storage that a configuration and its credentials lead to. -/
def Stored (s : WalletService env) (config : Config) (credentials : Credentials) (file : ℕ) :
    Prop :=
  ∃ directory, getDirectory env.base config credentials.storage = .ok directory ∧
    s.paths directory = some file

/-- An opening with this key, and no new one, opens the wallet with these keys. -/
def Opens (s : WalletService env) (config : Config) (credentials : Credentials) (keys : Keys) :
    Prop :=
  ∀ walletHandle salt random, ∃ opened : WalletService env,
    s.openWallet walletHandle config { credentials with rekey := none } salt random {} =
      (.ok (), opened) ∧
    (opened.wallets.lookup walletHandle).map OpenWallet.keys = some keys

/-- Every opening with this key reports an error, with a new key or without one. -/
def Refuses (s : WalletService env) (config : Config) (credentials : Credentials) : Prop :=
  ∀ walletHandle rekey rekeyDerivationMethod salt random answers, ∃ e,
    (s.openWallet walletHandle config { credentials with rekey, rekeyDerivationMethod } salt random
      answers).1 = .err e

variable {answers : Answers}

theorem openStorageAndFetchMetadata_eq_ok_iff {directory : Directory} {metadata : Metadata}
    {keyData : KeyDerivationData env.crates.saltBytes} :
    s.openStorageAndFetchMetadata config credentials answers =
        .ok (directory, file, metadata, keyData) ↔
      getDirectory env.base config credentials.storage = .ok directory ∧
        s.paths directory = some file ∧ answers.openStorage = none ∧
        answers.getMetadata = none ∧
        env.base.metadataCrates.metadataFromSlice (s.files file).metadata = some metadata ∧
        fromPassphraseAndMetadata env credentials.key metadata
          credentials.keyDerivationMethod = .ok keyData := by
  constructor
  · intro h
    obtain ⟨directory', hdirectory, h⟩ := bind_eq_ok_iff.mp h
    obtain ⟨file', hfile, h⟩ := bind_eq_ok_iff.mp h
    obtain ⟨_, hopen, h⟩ := bind_eq_ok_iff.mp h
    obtain ⟨_, hget, h⟩ := bind_eq_ok_iff.mp h
    obtain ⟨metadata', hmetadata, h⟩ := bind_eq_ok_iff.mp h
    obtain ⟨keyData', hkeyData, h⟩ := bind_eq_ok_iff.mp h
    cases h
    exact ⟨hdirectory, ofOption_eq_ok.mp hfile, Wallets.attempt_eq_ok.mp hopen,
      Wallets.attempt_eq_ok.mp hget, ofOption_eq_ok.mp hmetadata, hkeyData⟩
  · rintro ⟨hdirectory, hfile, hopen, hget, hmetadata, hkeyData⟩
    rw [openStorageAndFetchMetadata, hdirectory, ok_bind, hfile, ofOption_some,
      ok_bind, (Wallets.attempt_eq_ok (u := ())).mpr hopen, ok_bind,
      (Wallets.attempt_eq_ok (u := ())).mpr hget, ok_bind, hmetadata,
      ofOption_some, ok_bind, hkeyData]
    rfl

theorem isIdFromConfigNotUsed_ne_panic (config : Config) :
    s.isIdFromConfigNotUsed config ≠ .panic := by
  apply bind_ne_panic
  · unfold Wallets.Config.checkId
    split
    · exact err_ne_panic _
    · exact ok_ne_panic _
  · intro _
    split
    · exact err_ne_panic _
    · exact ok_ne_panic _

theorem openStorageAndFetchMetadata_ne_panic {directory : Directory}
    (hdirectory : getDirectory env.base config credentials.storage = .ok directory)
    (answers : Answers) :
    s.openStorageAndFetchMetadata config credentials answers ≠ .panic := by
  have hattempt : ∀ e, Wallets.attempt e ≠ .panic := by
    intro e
    cases e with
    | none => exact ok_ne_panic _
    | some e => exact err_ne_panic e
  rw [openStorageAndFetchMetadata, hdirectory, ok_bind]
  apply bind_ne_panic (ofOption_ne_panic _ _)
  intro file
  apply bind_ne_panic (hattempt _)
  intro _
  apply bind_ne_panic (hattempt _)
  intro _
  apply bind_ne_panic (ofOption_ne_panic _ _)
  intro metadata
  apply bind_ne_panic (fromPassphraseAndMetadata_ne_panic _ _ _)
  intro keyData
  exact ok_ne_panic _

theorem openWalletPrepare_eq_ok {salt : Salt env.crates.saltBytes}
    {keyData : KeyDerivationData env.crates.saltBytes}
    {rekeyData : Option (KeyDerivationData env.crates.saltBytes)}
    (h : s.openWalletPrepare walletHandle config credentials salt answers =
      .ok (keyData, rekeyData, s')) :
    s.isIdFromConfigNotUsed config = .ok () ∧ ∃ directory file metadata,
      s.openStorageAndFetchMetadata config credentials answers =
        .ok (directory, file, metadata, keyData) ∧
      credentials.rekey.map (fun rekey =>
        fromPassphraseWithNewSalt env rekey credentials.rekeyDerivationMethod salt) =
          rekeyData ∧
      s'.pendingForOpen.lookup walletHandle =
        some ⟨config.id, directory, file, metadata, rekeyData⟩ := by
  obtain ⟨_, hid, h⟩ := bind_eq_ok_iff.mp h
  obtain ⟨⟨directory, file, metadata, keyData'⟩, hfetch, h⟩ := bind_eq_ok_iff.mp h
  cases h
  exact ⟨hid, directory, file, metadata, hfetch, rfl, lookup_insert _⟩

theorem exists_openWalletPrepare {answers : Answers} {directory : Directory}
    {metadata : Metadata} {keyData : KeyDerivationData env.crates.saltBytes}
    {rekeyData : Option (KeyDerivationData env.crates.saltBytes)}
    (hid : s.isIdFromConfigNotUsed config = .ok ())
    (hfetch : s.openStorageAndFetchMetadata config credentials answers =
      .ok (directory, file, metadata, keyData))
    (walletHandle : ℤ) {salt : Salt env.crates.saltBytes}
    (hmap : credentials.rekey.map (fun rekey =>
      fromPassphraseWithNewSalt env rekey credentials.rekeyDerivationMethod salt) = rekeyData) :
    ∃ s' : WalletService env,
      s.openWalletPrepare walletHandle config credentials salt answers =
        .ok (keyData, rekeyData, s') ∧
      s'.paths = s.paths ∧ s'.wallets = s.wallets ∧
      s'.pendingForOpen.lookup walletHandle =
        some ⟨config.id, directory, file, metadata, rekeyData⟩ := by
  rw [openWalletPrepare, hid, ok_bind, hfetch, ← hmap]
  exact ⟨_, rfl, rfl, rfl, lookup_insert _⟩

theorem openContinue_cases {pending : PendingOpen env}
    (hpending : t.pendingForOpen.lookup walletHandle = some pending)
    (keyResult : IndyResult (Key × Option Key)) (random : Randomness) (answers : Answers) :
    (∃ key rekey keys metadata, keyResult = .ok (key, rekey) ∧
      restoreKeys env.base pending.metadata key = .ok keys ∧
      rotate rekey pending.rekeyData keys random answers = .ok metadata ∧
      t.openContinue walletHandle keyResult random answers = (.ok (),
        { t.setStorageMetadata pending.file metadata with
          wallets := t.wallets.insert walletHandle ⟨pending.id, pending.directory, keys⟩
          pendingForOpen := t.pendingForOpen.erase walletHandle })) ∨
    (t.openContinue walletHandle keyResult random answers).1 ≠ .ok () ∧
      ∃ pendingForOpen, (t.openContinue walletHandle keyResult random answers).2 =
        { t with pendingForOpen } := by
  cases keyResult with
  | err e => exact .inr ⟨err_ne_ok _ _, t.pendingForOpen, rfl⟩
  | panic => exact .inr ⟨panic_ne_ok _, t.pendingForOpen, rfl⟩
  | ok keyResult =>
    obtain ⟨key, rekey⟩ := keyResult
    rw [openContinue, openWalletContinue, hpending]
    dsimp only
    cases hrestore : restoreKeys env.base pending.metadata key with
    | err e => exact .inr ⟨err_ne_ok _ _, _, rfl⟩
    | panic => exact .inr ⟨panic_ne_ok _, _, rfl⟩
    | ok keys =>
      rw [ok_bind]
      cases hrotate : rotate rekey pending.rekeyData keys random answers with
      | err e => exact .inr ⟨err_ne_ok _ _, _, rfl⟩
      | panic => exact .inr ⟨panic_ne_ok _, _, rfl⟩
      | ok metadata =>
        refine .inl ⟨key, rekey, keys, metadata, rfl, hrestore, hrotate, ?_⟩
        cases metadata with
        | none => rfl
        | some metadata => rfl

/-- Which keys a passphrase opens is settled by the metadata, once the id is free. -/
theorem opens_iff (salt : Salt env.crates.saltBytes) (random : Randomness) :
    s.Opens config credentials keys ↔ s.isIdFromConfigNotUsed config = .ok () ∧
      ∃ file, s.Stored config credentials file ∧ unlock env credentials.key
        credentials.keyDerivationMethod (s.files file).metadata = .ok keys := by
  constructor
  · intro h
    obtain ⟨opened, hopened, hlookup⟩ := h 0 salt random
    rw [openWallet] at hopened
    cases hprepare : s.openWalletPrepare 0 config { credentials with rekey := none } salt {} with
    | err e =>
      rw [hprepare] at hopened
      cases hopened
    | panic =>
      rw [hprepare] at hopened
      cases hopened
    | ok prepared =>
      obtain ⟨keyData, rekeyData, s'⟩ := prepared
      rw [hprepare] at hopened
      dsimp only at hopened
      obtain ⟨hid, directory, file, metadata, hfetch, -, hpending⟩ :=
        openWalletPrepare_eq_ok hprepare
      obtain ⟨hdirectory, hfile, -, -, hmetadata, hkeyData⟩ :=
        openStorageAndFetchMetadata_eq_ok_iff.mp hfetch
      refine ⟨hid, file, ⟨directory, hdirectory, hfile⟩, ?_⟩
      obtain ⟨key, rekey, keys', written, hderive, hrestore, -, hcontinue⟩ | ⟨hnot, -⟩ :=
        openContinue_cases hpending (deriveKeys env keyData rekeyData) random {}
      · rw [hcontinue] at hopened
        cases hopened
        rw [lookup_insert] at hlookup
        cases hlookup
        rw [unlock, hmetadata, ofOption_some, ok_bind, hkeyData, ok_bind,
          (deriveKeys_eq_ok hderive).1, ok_bind]
        exact hrestore
      · exact absurd (congrArg Prod.fst hopened) hnot
  · rintro ⟨hid, file, ⟨directory, hdirectory, hfile⟩, hunlock⟩ walletHandle salt random
    obtain ⟨metadata, hmetadata, hunlock⟩ := bind_eq_ok_iff.mp hunlock
    obtain ⟨keyData, hkeyData, hunlock⟩ := bind_eq_ok_iff.mp hunlock
    obtain ⟨key, hkey, hrestore⟩ := bind_eq_ok_iff.mp hunlock
    have hfetch : s.openStorageAndFetchMetadata config { credentials with rekey := none } {} =
        .ok (directory, file, metadata, keyData) :=
      openStorageAndFetchMetadata_eq_ok_iff.mpr ⟨hdirectory, hfile, rfl, rfl,
        ofOption_eq_ok.mp hmetadata, hkeyData⟩
    have hderive : deriveKeys env keyData none = .ok (key, none) := by
      rw [deriveKeys, hkey]
      rfl
    obtain ⟨s', hprepare, -, -, hpending⟩ :=
      @exists_openWalletPrepare _ _ _ _ _ _ _ _ _ none hid hfetch walletHandle salt rfl
    rw [openWallet, hprepare]
    dsimp only
    rw [hderive, openContinue, openWalletContinue, hpending]
    dsimp only
    rw [hrestore, ok_bind]
    exact ⟨_, rfl, congrArg _ (lookup_insert _)⟩

theorem opens_congr (hpaths : t.paths = s.paths) (hfiles : t.files = s.files)
    (hwallets : t.wallets = s.wallets) (salt : Salt env.crates.saltBytes) (random : Randomness) :
    t.Opens config credentials keys ↔ s.Opens config credentials keys := by
  rw [opens_iff salt random, opens_iff salt random]
  unfold Stored isIdFromConfigNotUsed
  rw [hpaths, hfiles, hwallets]

/-- A passphrase that stored metadata give an error to opens no wallet. -/
theorem refuses_of_unlock {e : IndyError} (hstored : s.Stored config credentials file)
    (hunlock : unlock env credentials.key credentials.keyDerivationMethod
      (s.files file).metadata = .err e) : s.Refuses config credentials := by
  intro walletHandle rekey rekeyDerivationMethod salt random answers
  obtain ⟨directory, hdirectory, hfile⟩ := hstored
  rw [openWallet]
  cases hprepare : s.openWalletPrepare walletHandle config
      { credentials with rekey, rekeyDerivationMethod } salt answers with
  | err e => exact ⟨e, rfl⟩
  | panic =>
    obtain hid | ⟨_, -, hpanic⟩ := bind_eq_panic_iff.mp hprepare
    · exact absurd hid (isIdFromConfigNotUsed_ne_panic config)
    · obtain hpanic | ⟨_, -, hpanic⟩ := bind_eq_panic_iff.mp hpanic
      · exact absurd hpanic (openStorageAndFetchMetadata_ne_panic hdirectory answers)
      · cases hpanic
  | ok prepared =>
    obtain ⟨keyData, rekeyData, s'⟩ := prepared
    obtain ⟨-, directory', file', metadata, hfetch, -, hpending⟩ :=
      openWalletPrepare_eq_ok hprepare
    obtain ⟨hdirectory', hfile', -, -, hmetadata, hkeyData⟩ :=
      openStorageAndFetchMetadata_eq_ok_iff.mp hfetch
    cases hdirectory.symm.trans hdirectory'
    cases hfile.symm.trans hfile'
    rw [unlock, hmetadata, ofOption_some, ok_bind, hkeyData, ok_bind]
      at hunlock
    dsimp only
    cases hderive : deriveKeys env keyData rekeyData with
    | err e => exact ⟨e, rfl⟩
    | panic => exact absurd hderive (deriveKeys_ne_panic keyData rekeyData)
    | ok keyResult =>
      obtain ⟨key, newKey⟩ := keyResult
      rw [(deriveKeys_eq_ok hderive).1, ok_bind] at hunlock
      rw [openContinue, openWalletContinue, hpending]
      dsimp only
      rw [hunlock]
      exact ⟨e, rfl⟩

theorem not_refuses_of_opens (h : s.Opens config credentials keys)
    (salt : Salt env.crates.saltBytes) (random : Randomness) : ¬ s.Refuses config credentials := by
  intro hrefuses
  obtain ⟨opened, hopened, -⟩ := h 0 salt random
  obtain ⟨e, herr⟩ := hrefuses 0 none credentials.rekeyDerivationMethod salt random {}
  rw [hopened] at herr
  cases herr

theorem unlock_rotated {rekey : String} {salt : Salt env.crates.saltBytes} {newKey : Key}
    {random : Randomness} {metadata : Option Bytes}
    (hkey : (fromPassphraseWithNewSalt env rekey credentials.rekeyDerivationMethod
      salt).calcMasterKey env.crates = .ok newKey)
    (hrotate : rotate (some newKey) (some (fromPassphraseWithNewSalt env rekey
      credentials.rekeyDerivationMethod salt)) keys random answers = .ok metadata) :
    ∃ stored, metadata = some stored ∧
      unlock env rekey credentials.rekeyDerivationMethod stored = .ok keys ∧
      (Apart env credentials rekey salt random keys → ¬ credentials.Same rekey →
        ∃ e, unlock env credentials.key credentials.keyDerivationMethod stored = .err e) := by
  obtain ⟨hnone, -⟩ | ⟨masterKey, keyData, stored, hmaster, hdata, rfl, hprepared⟩ :=
    rotate_cases hrotate
  · cases hnone with
    | inl h => cases h
    | inr h => cases h
  · cases hmaster
    cases hdata
    refine ⟨stored, rfl, unlock_prepareMetadata hkey hprepared, fun hapart hne => ?_⟩
    have hapart' : Apart env credentials rekey salt { random with keys } keys :=
      ⟨hapart.base58, hapart.pwhash, hapart.foreign⟩
    exact unlock_foreign hapart' hne hkey hprepared

/-- A successful opening with a new key sets that key, and one that fails changes nothing stored. -/
theorem rekey_exact {rekey : String} {salt : Salt env.crates.saltBytes} {random : Randomness}
    {answers answers' : Answers} {keyData : KeyDerivationData env.crates.saltBytes}
    {rekeyData : Option (KeyDerivationData env.crates.saltBytes)} {t' : WalletService env}
    {result : IndyResult Unit} (hrekey : credentials.rekey = some rekey)
    (hprepare : s.openWalletPrepare walletHandle config credentials salt answers =
      .ok (keyData, rekeyData, s'))
    (hwaiting : t.pendingForOpen.lookup walletHandle = s'.pendingForOpen.lookup walletHandle)
    (hcontinue : t.openContinue walletHandle (deriveKeys env keyData rekeyData) random answers' =
      (result, t')) :
    (result ≠ .ok () → t'.paths = t.paths ∧ t'.files = t.files ∧
      ∀ config credentials keys, t'.Opens config credentials keys ↔
        t.Opens config credentials keys) ∧
    (result = .ok () → ∃ keys file stored, s.Opens config credentials keys ∧
      (t'.wallets.lookup walletHandle).map OpenWallet.keys = some keys ∧
      s.Stored config credentials file ∧
      t'.files = Function.update t.files file { t.files file with metadata := stored } ∧
      ∀ u : WalletService env, u.isIdFromConfigNotUsed config = .ok () →
        u.Stored config credentials file →
        (u.files file).metadata = (t'.files file).metadata →
        u.Opens config (credentials.renewed rekey) keys ∧
        (Apart env credentials rekey salt random keys →
          (u.Refuses config credentials ↔ ¬ credentials.Same rekey))) := by
  obtain ⟨hid, directory, file, metadata, hfetch, hmap, hpending⟩ :=
    openWalletPrepare_eq_ok hprepare
  obtain ⟨hdirectory, hfile, -, -, hmetadata, hkeyData⟩ :=
    openStorageAndFetchMetadata_eq_ok_iff.mp hfetch
  rw [hrekey, Option.map_some] at hmap
  subst hmap
  obtain ⟨key, newKey, keys, written, hderive, hrestore, hrotate, hopened⟩ |
      ⟨hnot, pending, hrest⟩ :=
    openContinue_cases (hwaiting.trans hpending) (deriveKeys env keyData _) random answers'
  · rw [hcontinue] at hopened
    cases hopened
    refine ⟨fun h => absurd rfl h, fun _ => ?_⟩
    obtain ⟨hkey, hnewKey⟩ := deriveKeys_eq_ok hderive
    obtain ⟨hnone, -⟩ | ⟨newData, newMaster, hnewData, rfl, hmaster⟩ := hnewKey
    · cases hnone
    · cases hnewData
      obtain ⟨stored, rfl, hnew, hold⟩ := unlock_rotated hmaster hrotate
      have hunlock : unlock env credentials.key credentials.keyDerivationMethod
          (s.files file).metadata = .ok keys := by
        rw [unlock, hmetadata, ofOption_some, ok_bind, hkeyData,
          ok_bind, hkey, ok_bind]
        exact hrestore
      refine ⟨keys, file, stored, (opens_iff salt random).mpr
        ⟨hid, file, ⟨directory, hdirectory, hfile⟩, hunlock⟩,
        congrArg _ (lookup_insert _), ⟨directory, hdirectory, hfile⟩, rfl, ?_⟩
      intro u huid hstored hsame
      have hbytes : (u.files file).metadata = stored := by
        rw [hsame]
        dsimp only [setStorageMetadata]
        rw [Function.update_self]
      rw [← hbytes] at hnew
      refine ⟨(opens_iff salt random).mpr ⟨huid, file, hstored, hnew⟩, fun hapart =>
        ⟨fun hrefuses hequal => ?_, fun hne => ?_⟩⟩
      · rw [← hequal.1, ← hequal.2] at hnew
        exact not_refuses_of_opens ((opens_iff salt random).mpr ⟨huid, file, hstored, hnew⟩)
          salt random hrefuses
      · obtain ⟨e, hforeign⟩ := hold hapart hne
        rw [← hbytes] at hforeign
        exact refuses_of_unlock hstored hforeign
  · rw [hcontinue] at hnot hrest
    dsimp only at hnot hrest
    refine ⟨fun _ => ?_, fun h => absurd h hnot⟩
    rw [hrest]
    exact ⟨rfl, rfl, fun _ _ _ => opens_congr rfl rfl rfl salt random⟩

end WalletService

/-! ### A wallet with a raw key -/

/-- A cipher that writes the key before the data. -/
def keyedCrypto : WalletCrypto where
  encrypt := fun data key _ => key.bytes ++ data
  decrypt := fun data key _ =>
    if data.take Wallet.keyBytes = key.bytes then some (data.drop Wallet.keyBytes) else none
  authenticate := fun _ _ => Wallet.zeroTag
  decrypt_encrypt := by
    intro data key nonce
    have htake : (key.bytes ++ data).take Wallet.keyBytes = key.bytes :=
      List.take_left' key.length_eq
    have hdrop : (key.bytes ++ data).drop Wallet.keyBytes = data :=
      List.drop_left' key.length_eq
    rw [if_pos htake, hdrop]

theorem keyedCrypto_foreign {key' : Key} (h : key ≠ key') (data : Bytes) (nonce : Nonce) :
    keyedCrypto.decrypt (keyedCrypto.encrypt data key nonce) key' nonce = none := by
  have htake : (key.bytes ++ data).take Wallet.keyBytes = key.bytes :=
    List.take_left' key.length_eq
  refine if_neg ?_
  change (key.bytes ++ data).take Wallet.keyBytes ≠ key'.bytes
  rw [htake]
  intro hbytes
  cases key
  cases key'
  cases hbytes
  exact h rfl

def oneKey : Key := ⟨List.replicate 31 0 ++ [1], rfl⟩

/-- The passphrase whose bytes are those of the key. -/
def onePassphrase : String := "11111111111111111111111111111112"

/-- The metadata of one set of keys under a raw key. -/
def rawMetadata (key : Key) : Metadata :=
  .raw (Wallet.encryptAsNotSearchable keyedCrypto (List.replicate 224 0) key Wallet.zeroNonce)

def rawMetadataText (key : Key) : Bytes := Bytes.ofText (metadataToJson (rawMetadata key)).text

theorem rawMetadataText_ne : rawMetadataText oneKey ≠ rawMetadataText Wallet.zeroKey := by
  intro h
  have htext := congrArg String.toList (Bytes.ofText_injective h)
  rw [Json.toList_text, Json.toList_text] at htext
  revert htext
  decide +kernel

theorem rawMetadata_ne :
    metadataToJson (rawMetadata oneKey) ≠ metadataToJson (rawMetadata Wallet.zeroKey) :=
  fun h => rawMetadataText_ne (congrArg (Bytes.ofText ∘ Json.text) h)

/-- The texts of the metadata under one of two keys. -/
def rawCodecs : Codecs where
  keysToVec := Imports.zeroKeysCrates.keysToVec
  keysFromSlice := Imports.zeroKeysCrates.keysFromSlice
  keysFromSlice_toVec := Imports.zeroKeysCrates.keysFromSlice_toVec
  jsonToVec := fun j =>
    if j = metadataToJson (rawMetadata Wallet.zeroKey) then some (rawMetadataText Wallet.zeroKey)
    else if j = metadataToJson (rawMetadata oneKey) then some (rawMetadataText oneKey)
    else none
  jsonFromSlice := fun bytes =>
    if bytes = rawMetadataText Wallet.zeroKey then
      some (metadataToJson (rawMetadata Wallet.zeroKey))
    else if bytes = rawMetadataText oneKey then some (metadataToJson (rawMetadata oneKey))
    else none
  jsonFromSlice_toVec := by
    intro metadata bytes h
    by_cases hzero : metadataToJson metadata = metadataToJson (rawMetadata Wallet.zeroKey)
    · rw [if_pos hzero] at h
      rw [if_pos (Option.some.inj h).symm, hzero]
    · rw [if_neg hzero] at h
      obtain ⟨hone, hbytes⟩ := Option.ite_none_right_eq_some.mp h
      rw [← Option.some.inj hbytes, if_neg rawMetadataText_ne, if_pos rfl, hone]

/-- Storages in the directory of the id, and the Base58 of the library. -/
def rawEnvironment : Environment where
  types := Imports.pathEnvironment.types
  crates :=
    { Wallet.packedCrates Wallet.shortRecord with
      base58 := fun s => (Crypto.rustBase58.fromBase58 s).toOption }
  codecs := rawCodecs
  wc := keyedCrypto

/-- A wallet whose raw key is of zeros. -/
def rawWallet : WalletService rawEnvironment where
  paths := fun directory => if directory = ["wallet", "w"] then some 0 else none
  files := fun _ => (Wallet.Store.create (rawMetadataText Wallet.zeroKey)).db

/-- The passphrase of zeros is replaced. -/
def rawCredentials (rekey : String) : Credentials where
  key := Wallet.rawPassphrase
  rekey := some rekey
  keyDerivationMethod := .raw
  rekeyDerivationMethod := .raw

theorem length_zeroSalt :
    (List.replicate 32 (0 : UInt8)).length = rawEnvironment.crates.saltBytes := rfl

def zeroSalt : Salt rawEnvironment.crates.saltBytes := ⟨List.replicate 32 0, length_zeroSalt⟩

def zeroRandom : Randomness :=
  ⟨Wallet.zeroKeys, Wallet.zeroNonce, fun _ => Wallet.zeroRandomness⟩

theorem rawKey_zero :
    (KeyDerivationData.raw Wallet.rawPassphrase).calcMasterKey rawEnvironment.crates =
      .ok Wallet.zeroKey := by
  have hbytes : (Crypto.rustBase58.fromBase58 Wallet.rawPassphrase).toOption =
      some Wallet.zeroKey.bytes := by
    rfl
  change (Outcome.ofOption _ (Crypto.rustBase58.fromBase58 Wallet.rawPassphrase).toOption >>=
    _) = _
  rw [hbytes]
  rfl

theorem rawKey_one :
    (KeyDerivationData.raw onePassphrase).calcMasterKey rawEnvironment.crates = .ok oneKey := by
  have hbytes : (Crypto.rustBase58.fromBase58 onePassphrase).toOption = some oneKey.bytes := by
    rfl
  change (Outcome.ofOption _ (Crypto.rustBase58.fromBase58 onePassphrase).toOption >>= _) = _
  rw [hbytes]
  rfl

theorem jsonToVec_zero :
    rawCodecs.jsonToVec (metadataToJson (rawMetadata Wallet.zeroKey)) =
      some (rawMetadataText Wallet.zeroKey) := by
  dsimp only [rawCodecs]
  rw [if_pos rfl]

theorem jsonToVec_one :
    rawCodecs.jsonToVec (metadataToJson (rawMetadata oneKey)) =
      some (rawMetadataText oneKey) := by
  dsimp only [rawCodecs]
  rw [if_neg rawMetadata_ne, if_pos rfl]

theorem keysToVec_zero : rawEnvironment.base.metadataCrates.keysToVec Wallet.zeroKeys =
    some (List.replicate 224 0) := by
  dsimp only [Environment.base, Codecs.metadataCrates, rawEnvironment, rawCodecs,
    Imports.zeroKeysCrates]
  rw [if_pos rfl]

theorem rawMetadata_prepared
    (hvec : rawCodecs.jsonToVec (metadataToJson (rawMetadata key)) = some (rawMetadataText key))
    (passphrase : String) :
    prepareMetadata rawEnvironment.base key (.raw passphrase)
      { zeroRandom with keys := Wallet.zeroKeys } = .ok (rawMetadataText key) := by
  have hserialize : Imports.serializeEncrypted rawEnvironment.base Wallet.zeroKeys key
      Wallet.zeroNonce = .ok (Wallet.encryptAsNotSearchable keyedCrypto (List.replicate 224 0) key
        Wallet.zeroNonce) := by
    rw [Imports.serializeEncrypted, keysToVec_zero]
    rfl
  refine bind_eq_ok_iff.mpr ⟨_, hserialize, ?_⟩
  exact ofOption_eq_ok.mpr hvec

theorem rawWallet_fetched (rekey : String) :
    rawWallet.openStorageAndFetchMetadata ⟨"w", none, none⟩ (rawCredentials rekey) {} =
      .ok (["wallet", "w"], 0, rawMetadata Wallet.zeroKey, .raw Wallet.rawPassphrase) := by
  have hdirectory : getDirectory rawEnvironment.base ⟨"w", none, none⟩
      (rawCredentials rekey).storage = .ok ["wallet", "w"] := by
    rw [getDirectory, Imports.getStorageType]
    exact congrArg (· >>= _) (if_pos (Finset.mem_singleton_self _))
  have hpath : rawWallet.paths ["wallet", "w"] = some 0 := by
    dsimp only [rawWallet]
    rw [if_pos rfl]
  have hvec : rawCodecs.metadataCrates.metadataToVec (rawMetadata Wallet.zeroKey) =
      some (rawMetadataText Wallet.zeroKey) := by
    dsimp only [Codecs.metadataCrates]
    exact jsonToVec_zero
  exact WalletService.openStorageAndFetchMetadata_eq_ok_iff.mpr ⟨hdirectory, hpath, rfl, rfl,
    rawCodecs.metadataCrates.metadataFromSlice_toVec _ _ hvec, rfl⟩

theorem exists_rekeyed {newKey : Key}
    (hkey : (KeyDerivationData.raw rekey).calcMasterKey rawEnvironment.crates = .ok newKey)
    (hvec : rawCodecs.jsonToVec (metadataToJson (rawMetadata newKey)) =
      some (rawMetadataText newKey)) :
    ∃ s' t' u : WalletService rawEnvironment,
      rawWallet.openWalletPrepare 1 ⟨"w", none, none⟩ (rawCredentials rekey) zeroSalt {} =
        .ok (.raw Wallet.rawPassphrase, some (.raw rekey), s') ∧
      s'.openContinue 1 (deriveKeys rawEnvironment (.raw Wallet.rawPassphrase) (some (.raw rekey)))
        zeroRandom {} = (.ok (), t') ∧
      t'.closeWallet 1 = .ok u ∧ u.paths = rawWallet.paths ∧ u.files = t'.files ∧
      (u.files 0).metadata = rawMetadataText newKey ∧
      u.isIdFromConfigNotUsed ⟨"w", none, none⟩ = .ok () := by
  have hid : rawWallet.isIdFromConfigNotUsed ⟨"w", none, none⟩ = .ok () := rfl
  have hderive : deriveKeys rawEnvironment (.raw Wallet.rawPassphrase) (some (.raw rekey)) =
      .ok (Wallet.zeroKey, some newKey) := by
    rw [deriveKeys, rawKey_zero, ok_bind]
    dsimp only
    rw [hkey]
    rfl
  have hrestore : restoreKeys rawEnvironment.base (rawMetadata Wallet.zeroKey) Wallet.zeroKey =
      .ok Wallet.zeroKeys := by
    rw [restoreKeys, toIndy_eq_ok]
    refine bind_eq_ok_iff.mpr ⟨List.replicate 224 0,
      Wallet.decryptMerged_encryptAsNotSearchable _ _ _ _, ?_⟩
    exact ofOption_eq_ok.mpr
      (rawEnvironment.base.metadataCrates.keysFromSlice_toVec _ _ keysToVec_zero)
  have hrotate : @WalletService.rotate rawEnvironment (some newKey) (some (.raw rekey))
      Wallet.zeroKeys zeroRandom {} = .ok (some (rawMetadataText newKey)) := by
    have hwritten := rawMetadata_prepared hvec rekey
    rw [WalletService.rotate]
    refine bind_eq_ok_iff.mpr ⟨rawMetadataText newKey, hwritten, rfl⟩
  obtain ⟨s', hprepare, hpaths, hwallets, hpending⟩ :=
    @WalletService.exists_openWalletPrepare _ _ _ _ _ _ _ _ _ (some (.raw rekey)) hid
      (rawWallet_fetched rekey) 1 zeroSalt rfl
  obtain ⟨t', hcontinue, hpaths', hstored, hwallets'⟩ : ∃ t' : WalletService rawEnvironment,
      s'.openContinue 1 (deriveKeys rawEnvironment (.raw Wallet.rawPassphrase)
        (some (.raw rekey))) zeroRandom {} = (.ok (), t') ∧ t'.paths = s'.paths ∧
      (t'.files 0).metadata = rawMetadataText newKey ∧
      t'.wallets = s'.wallets.insert 1 ⟨"w", ["wallet", "w"], Wallet.zeroKeys⟩ := by
    rw [hderive, WalletService.openContinue, WalletService.openWalletContinue, hpending]
    dsimp only
    rw [hrestore, ok_bind, hrotate]
    refine ⟨_, rfl, rfl, ?_, rfl⟩
    exact congrArg Wallet.Db.metadata (Function.update_self 0 _ s'.files)
  refine ⟨s', t', { t' with wallets := t'.wallets.erase 1 }, hprepare, hcontinue, ?_,
    hpaths'.trans hpaths, rfl, hstored, ?_⟩
  · rw [WalletService.closeWallet, if_pos]
    rw [hwallets']
    exact mem_insert _ |>.mpr (.inl rfl)
  · rw [WalletService.isIdFromConfigNotUsed, hwallets', hwallets]
    rfl

theorem rawApart (rekey : String) (keys : Keys) :
    Apart rawEnvironment (rawCredentials rekey) rekey zeroSalt zeroRandom keys where
  base58 := by
    intro a b bytes ha hb
    have hencode : ∀ s, (Crypto.rustBase58.fromBase58 s).toOption = some bytes →
        Crypto.rustBase58.toBase58 bytes = s := by
      intro s hs
      cases hdecode : Crypto.rustBase58.fromBase58 s with
      | ok decoded =>
        rw [hdecode] at hs
        cases hs
        exact Crypto.rustBase58_encode_decode s _ hdecode
      | error e =>
        rw [hdecode] at hs
        cases hs
    exact (hencode a ha).symm.trans (hencode b hb)
  pwhash := by
    intro key h
    cases h
  foreign := fun bytes key key' _ _ _ hne => keyedCrypto_foreign hne bytes zeroRandom.nonce

theorem rekey_exact_raw :
    ∃ (s' t' u : WalletService rawEnvironment) (keys : Keys),
      rawWallet.openWalletPrepare 1 ⟨"w", none, none⟩ (rawCredentials onePassphrase) zeroSalt {} =
        .ok (.raw Wallet.rawPassphrase, some (.raw onePassphrase), s') ∧
      s'.openContinue 1 (deriveKeys rawEnvironment (.raw Wallet.rawPassphrase)
        (some (.raw onePassphrase))) zeroRandom {} = (.ok (), t') ∧
      t'.closeWallet 1 = .ok u ∧
      rawWallet.Opens ⟨"w", none, none⟩ (rawCredentials onePassphrase) keys ∧
      u.Opens ⟨"w", none, none⟩ ((rawCredentials onePassphrase).renewed onePassphrase) keys ∧
      u.Refuses ⟨"w", none, none⟩ (rawCredentials onePassphrase) := by
  obtain ⟨s', t', u, hprepare, hcontinue, hclose, hpaths, hfiles, -, hid⟩ :=
    exists_rekeyed rawKey_one jsonToVec_one
  obtain ⟨-, hok⟩ := WalletService.rekey_exact rfl hprepare rfl hcontinue
  obtain ⟨keys, file, stored, hopens, -, ⟨directory, hdirectory, hpath⟩, -, hall⟩ := hok rfl
  obtain ⟨hnew, hold⟩ := hall u hid ⟨directory, hdirectory, by rw [hpaths, hpath]⟩ (by rw [hfiles])
  have hdiffer : ¬ (rawCredentials onePassphrase).Same onePassphrase := by
    rintro ⟨hkey, -⟩
    revert hkey
    decide
  exact ⟨s', t', u, keys, hprepare, hcontinue, hclose, hopens, hnew,
    (hold (rawApart onePassphrase keys)).mpr hdiffer⟩

/-- A wallet whose key is replaced by itself opens with the old key. -/
theorem sameKey_opens :
    ∃ s' t' u : WalletService rawEnvironment,
      rawWallet.openWalletPrepare 1 ⟨"w", none, none⟩ (rawCredentials Wallet.rawPassphrase)
          zeroSalt {} =
        .ok (.raw Wallet.rawPassphrase, some (.raw Wallet.rawPassphrase), s') ∧
      s'.openContinue 1 (deriveKeys rawEnvironment (.raw Wallet.rawPassphrase)
        (some (.raw Wallet.rawPassphrase))) zeroRandom {} = (.ok (), t') ∧
      t'.closeWallet 1 = .ok u ∧
      u.Opens ⟨"w", none, none⟩ (rawCredentials Wallet.rawPassphrase) Wallet.zeroKeys ∧
      ¬ u.Refuses ⟨"w", none, none⟩ (rawCredentials Wallet.rawPassphrase) := by
  obtain ⟨s', t', u, hprepare, hcontinue, hclose, hpaths, -, hstored, hid⟩ :=
    exists_rekeyed rawKey_zero jsonToVec_zero
  obtain ⟨hdirectory, hpath, -⟩ := WalletService.openStorageAndFetchMetadata_eq_ok_iff.mp
    (rawWallet_fetched Wallet.rawPassphrase)
  have hunlock : unlock rawEnvironment Wallet.rawPassphrase .raw (u.files 0).metadata =
      .ok Wallet.zeroKeys := by
    rw [hstored]
    exact @unlock_prepareMetadata rawEnvironment Wallet.rawPassphrase .raw zeroSalt _ _ _
      rawKey_zero (rawMetadata_prepared jsonToVec_zero Wallet.rawPassphrase)
  have hopens : u.Opens ⟨"w", none, none⟩ (rawCredentials Wallet.rawPassphrase)
      Wallet.zeroKeys :=
    (WalletService.opens_iff zeroSalt zeroRandom).mpr
      ⟨hid, 0, ⟨["wallet", "w"], hdirectory, by rw [hpaths, hpath]⟩, hunlock⟩
  exact ⟨s', t', u, hprepare, hcontinue, hclose, hopens,
    WalletService.not_refuses_of_opens hopens zeroSalt zeroRandom⟩

end IndySdk.Rekeying
