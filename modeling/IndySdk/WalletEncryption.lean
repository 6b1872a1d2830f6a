import IndySdk.AssocMap
import IndySdk.Bytes
import IndySdk.Errors

/-!
# Encryption of wallet records

Searchable data (types, names, tag names and the values of encrypted tags) is sealed under a
nonce taken from the data itself, so that equal data has equal ciphertexts; values are sealed
under fresh keys and nonces. The sealing and the authentication functions come from a third-party
library and enter as a `WalletCrypto`.
-/

namespace IndySdk.Wallet

open Outcome List

def keyBytes : ℕ := 32

def nonceBytes : ℕ := 12

def hmacTagBytes : ℕ := 32

structure Key where
  bytes : Bytes
  length_eq : bytes.length = keyBytes

structure HmacKey where
  bytes : Bytes
  length_eq : bytes.length = keyBytes

structure Nonce where
  bytes : Bytes
  length_eq : bytes.length = nonceBytes

structure HmacTag where
  bytes : Bytes
  length_eq : bytes.length = hmacTagBytes

/-- Authenticated encryption and message authentication. -/
structure WalletCrypto where
  encrypt : Bytes → Key → Nonce → Bytes
  decrypt : Bytes → Key → Nonce → Option Bytes
  authenticate : Bytes → HmacKey → HmacTag
  decrypt_encrypt : ∀ data key nonce, decrypt (encrypt data key nonce) key nonce = some data

structure Keys where
  typeKey : Key
  nameKey : Key
  valueKey : Key
  itemHmacKey : HmacKey
  tagNameKey : Key
  tagValueKey : Key
  tagsHmacKey : HmacKey

structure EncryptedValue where
  data : Bytes
  key : Bytes

inductive Tag where
  | encrypted (name value : Bytes)
  | plainText (name : Bytes) (value : String)
  deriving DecidableEq

inductive TagName where
  | ofEncrypted (name : Bytes)
  | ofPlain (name : Bytes)
  deriving DecidableEq

structure StorageRecord where
  id : Bytes
  value : Option EncryptedValue
  type : Option Bytes
  tags : Option (List Tag)

structure WalletRecord where
  type : Option String
  id : String
  value : Option String
  tags : Option (AssocMap String String)
  deriving Inhabited

def Key.fromSlice (b : Bytes) : IndyResult Key :=
  if h : b.length = keyBytes then .ok ⟨b, h⟩
  else .err (errMsg .invalidStructure "Invalid bytes for _" ["Key"])

/-- The nonce that stands at the front of an authentication tag. -/
def HmacTag.nonce (tag : HmacTag) : Nonce :=
  ⟨tag.bytes.take nonceBytes, by rw [length_take, tag.length_eq]; rfl⟩

variable (wc : WalletCrypto)

def encryptAsSearchable (data : Bytes) (key : Key) (hmacKey : HmacKey) : Bytes :=
  let nonce := (wc.authenticate data hmacKey).nonce
  nonce.bytes ++ wc.encrypt data key nonce

def encryptAsNotSearchable (data : Bytes) (key : Key) (nonce : Nonce) : Bytes :=
  nonce.bytes ++ wc.encrypt data key nonce

def decrypt (data : Bytes) (key : Key) (nonce : Nonce) : IndyResult Bytes :=
  ofOption (errMsg .invalidStructure "Unable to open sodium chacha20poly1305_ietf")
    (wc.decrypt data key nonce)

/-- Slicing the nonce off data that is shorter than a nonce aborts the thread. -/
def decryptMerged (joinedData : Bytes) (key : Key) : IndyResult Bytes :=
  if h : nonceBytes ≤ joinedData.length then
    decrypt wc (joinedData.drop nonceBytes) key
      ⟨joinedData.take nonceBytes, by rw [length_take]; omega⟩
  else .panic

/-- The random material of one value encryption. -/
structure ValueRandomness where
  valueKey : Key
  dataNonce : Nonce
  keyNonce : Nonce

def EncryptedValue.encrypt (data : String) (key : Key) (random : ValueRandomness) :
    EncryptedValue where
  data := encryptAsNotSearchable wc (Bytes.ofText data) random.valueKey random.dataNonce
  key := encryptAsNotSearchable wc random.valueKey.bytes key random.keyNonce

def EncryptedValue.decrypt (v : EncryptedValue) (key : Key) : IndyResult String := do
  let valueKeyBytes ← decryptMerged wc v.key key
  let valueKey ← toIndy .invalidStructure "Invalid value key" (Key.fromSlice valueKeyBytes)
  let data ← decryptMerged wc v.data valueKey
  ofOption (errMsg .invalidStructure "Invalid UTF8 string inside of value")
    (Bytes.toText data)

/-- Names with a leading tilde belong to tags whose values are stored in plaintext. -/
def isPlain (tagName : String) : Bool := tagName.toList.head? = some '~'

variable (keys : Keys)

def encryptTagName (tagName : String) : TagName :=
  if isPlain tagName then
    .ofPlain (encryptAsSearchable wc ((Bytes.ofText tagName).drop 1) keys.tagNameKey
      keys.tagsHmacKey)
  else
    .ofEncrypted (encryptAsSearchable wc (Bytes.ofText tagName) keys.tagNameKey keys.tagsHmacKey)

def encryptTagNames (tagNames : List String) : List TagName :=
  tagNames.map (encryptTagName wc keys)

def encryptTag (tagName tagValue : String) : Tag :=
  if isPlain tagName then
    .plainText (encryptAsSearchable wc ((Bytes.ofText tagName).drop 1) keys.tagNameKey
      keys.tagsHmacKey) tagValue
  else
    .encrypted
      (encryptAsSearchable wc (Bytes.ofText tagName) keys.tagNameKey keys.tagsHmacKey)
      (encryptAsSearchable wc (Bytes.ofText tagValue) keys.tagValueKey keys.tagsHmacKey)

def encryptTags (tags : AssocMap String String) : List Tag :=
  tags.toPairs.map (fun t => encryptTag wc keys t.1 t.2)

def decryptTagText (e : Bytes) (key : Key) : IndyResult String := do
  let b ← toIndy .walletEncryptionError "Unable to decrypt tag name" (decryptMerged wc e key)
  ofOption (errMsg .walletEncryptionError "Tag name is invalid utf8") (Bytes.toText b)

def decryptTag : Tag → IndyResult (String × String)
  | .plainText ename value => do
    let name ← decryptTagText wc ename keys.tagNameKey
    pure ("~" ++ name, value)
  | .encrypted ename evalue => do
    let name ← decryptTagText wc ename keys.tagNameKey
    let value ← decryptTagText wc evalue keys.tagValueKey
    pure (name, value)

def insertDecrypted (tags : AssocMap String String) (etag : Tag) :
    IndyResult (AssocMap String String) := do
  let t ← decryptTag wc keys etag
  pure (tags.insert t.1 t.2)

def decryptTags : Option (List Tag) → IndyResult (Option (AssocMap String String))
  | none => pure none
  | some etags => some <$> etags.foldlM (insertDecrypted wc keys) ∅

def decryptStorageRecord (record : StorageRecord) : IndyResult WalletRecord := do
  let nameBytes ← decryptMerged wc record.id keys.nameKey
  let name ← ofOption (errMsg .walletEncryptionError "Record is invalid utf8")
    (Bytes.toText nameBytes)
  let value ← match record.value with
    | some value => some <$> value.decrypt wc keys.valueKey
    | none => pure none
  let type ← match record.type with
    | some type => do
      let typeBytes ← decryptMerged wc type keys.typeKey
      some <$> ofOption (errMsg .walletEncryptionError "Record type is invalid utf8")
        (Bytes.toText typeBytes)
    | none => pure none
  let tags ← decryptTags wc keys record.tags
  pure ⟨type, name, value, tags⟩

theorem decryptMerged_append (data : Bytes) (key : Key) (nonce : Nonce) :
    decryptMerged wc (nonce.bytes ++ wc.encrypt data key nonce) key = .ok data := by
  have hl := nonce.length_eq
  have hd : (nonce.bytes ++ wc.encrypt data key nonce).drop nonceBytes =
      wc.encrypt data key nonce := by
    rw [← hl, drop_left]
  have ht : (nonce.bytes ++ wc.encrypt data key nonce).take nonceBytes = nonce.bytes := by
    rw [← hl, take_left]
  rw [decryptMerged, dif_pos (by rw [length_append]; omega)]
  simp only [decrypt, hd, ht, wc.decrypt_encrypt, ofOption_some]

@[simp] theorem decryptMerged_encryptAsSearchable (data : Bytes) (key : Key) (hmacKey : HmacKey) :
    decryptMerged wc (encryptAsSearchable wc data key hmacKey) key = .ok data :=
  decryptMerged_append wc data key _

@[simp] theorem decryptMerged_encryptAsNotSearchable (data : Bytes) (key : Key) (nonce : Nonce) :
    decryptMerged wc (encryptAsNotSearchable wc data key nonce) key = .ok data :=
  decryptMerged_append wc data key nonce

theorem encryptAsSearchable_inj {a b : Bytes} {key : Key} {hmacKey : HmacKey} :
    encryptAsSearchable wc a key hmacKey = encryptAsSearchable wc b key hmacKey ↔ a = b := by
  refine ⟨fun h => ?_, fun h => h ▸ rfl⟩
  have ha := decryptMerged_encryptAsSearchable wc a key hmacKey
  rw [h, decryptMerged_encryptAsSearchable] at ha
  exact (Outcome.ok.inj ha).symm

theorem EncryptedValue.decrypt_encrypt (data : String) (key : Key) (random : ValueRandomness) :
    (EncryptedValue.encrypt wc data key random).decrypt wc key = .ok data := by
  have hk : Key.fromSlice random.valueKey.bytes = .ok random.valueKey :=
    dif_pos random.valueKey.length_eq
  simp only [EncryptedValue.decrypt, EncryptedValue.encrypt, decryptMerged_encryptAsNotSearchable,
    ok_bind, hk, toIndy, Bytes.toText_ofText, ofOption_some]

theorem exists_of_isPlain {tagName : String} (h : isPlain tagName) :
    ∃ s, tagName = "~" ++ s ∧ (Bytes.ofText tagName).drop 1 = Bytes.ofText s := by
  have hh := of_decide_eq_true h
  cases hl : tagName.toList with
  | nil =>
    rw [hl] at hh
    cases hh
  | cons c l =>
    rw [hl, head?_cons, Option.some.injEq] at hh
    subst hh
    have he : tagName = "~" ++ String.ofList l := by
      have ht : String.ofList tagName.toList = tagName := String.ofList_toList
      rw [← ht, hl, ← singleton_append, String.ofList_append]
    refine ⟨String.ofList l, he, ?_⟩
    rw [he, Bytes.ofText_append]
    rfl

theorem decryptTagText_encryptAsSearchable (s : String) (key : Key) (hmacKey : HmacKey) :
    decryptTagText wc (encryptAsSearchable wc (Bytes.ofText s) key hmacKey) key = .ok s := by
  simp only [decryptTagText, decryptMerged_encryptAsSearchable, toIndy, ok_bind,
    Bytes.toText_ofText, ofOption_some]

theorem decryptTag_encryptTag (tagName tagValue : String) :
    decryptTag wc keys (encryptTag wc keys tagName tagValue) = .ok (tagName, tagValue) := by
  by_cases h : isPlain tagName
  · obtain ⟨s, rfl, hs⟩ := exists_of_isPlain h
    simp only [encryptTag, h, if_true, hs, decryptTag, decryptTagText_encryptAsSearchable,
      ok_bind, pure_eq_ok]
  · simp only [encryptTag, if_neg h, decryptTag, decryptTagText_encryptAsSearchable,
      ok_bind, pure_eq_ok]

/-- The stored name of a tag, which with the item is the key of its row. -/
def Tag.name : Tag → TagName
  | .encrypted name _ => .ofEncrypted name
  | .plainText name _ => .ofPlain name

@[simp] theorem encryptTag_name (tagName tagValue : String) :
    (encryptTag wc keys tagName tagValue).name = encryptTagName wc keys tagName := by
  by_cases h : isPlain tagName
  · rw [encryptTag, encryptTagName, if_pos h, if_pos h, Tag.name]
  · rw [encryptTag, encryptTagName, if_neg h, if_neg h, Tag.name]

theorem encryptTag_inj {n n' v v' : String} :
    encryptTag wc keys n v = encryptTag wc keys n' v' ↔ n = n' ∧ v = v' := by
  refine ⟨fun h => ?_, fun h => by rw [h.1, h.2]⟩
  have hd := decryptTag_encryptTag wc keys n v
  rw [h, decryptTag_encryptTag] at hd
  simpa using (Outcome.ok.inj hd).symm

theorem encryptTagName_inj {n n' : String} :
    encryptTagName wc keys n = encryptTagName wc keys n' ↔ n = n' := by
  refine ⟨fun h => ?_, fun h => h ▸ rfl⟩
  by_cases hn : isPlain n <;> by_cases hn' : isPlain n'
  · obtain ⟨s, rfl, hs⟩ := exists_of_isPlain hn
    obtain ⟨s', rfl, hs'⟩ := exists_of_isPlain hn'
    rw [encryptTagName, encryptTagName, if_pos hn, if_pos hn', hs, hs', TagName.ofPlain.injEq,
      encryptAsSearchable_inj] at h
    rw [Bytes.ofText_injective h]
  · rw [encryptTagName, encryptTagName, if_pos hn, if_neg hn'] at h
    cases h
  · rw [encryptTagName, encryptTagName, if_neg hn, if_pos hn'] at h
    cases h
  · rw [encryptTagName, encryptTagName, if_neg hn, if_neg hn', TagName.ofEncrypted.injEq,
      encryptAsSearchable_inj] at h
    exact Bytes.ofText_injective h

theorem mem_encryptTags {tags : AssocMap String String} {tag : Tag} :
    tag ∈ encryptTags wc keys tags ↔
      ∃ n v, tags.lookup n = some v ∧ tag = encryptTag wc keys n v := by
  simp only [encryptTags, mem_map]
  constructor
  · rintro ⟨⟨n, v⟩, hm, rfl⟩
    exact ⟨n, v, AssocMap.mem_toPairs.mp hm, rfl⟩
  · rintro ⟨n, v, hm, rfl⟩
    exact ⟨(n, v), AssocMap.mem_toPairs.mpr hm, rfl⟩

theorem pairwise_encryptTags (tags : AssocMap String String) :
    (encryptTags wc keys tags).Pairwise (fun s t => s.name ≠ t.name) := by
  rw [encryptTags, AssocMap.toPairs, map_map, pairwise_map]
  have hk : (tags.entries.map Sigma.fst).Pairwise (· ≠ ·) := tags.nodupKeys
  refine (pairwise_map.mp hk).imp (fun hne h => hne ?_)
  simpa [encryptTagName_inj] using h

/-- The decrypted form of some stored tags has the names and values that were encrypted. -/
def Decrypts (etags : List Tag) (tags : String → Option String) : Prop :=
  ∀ etag, etag ∈ etags ↔ ∃ n v, tags n = some v ∧ etag = encryptTag wc keys n v

theorem foldlM_insertDecrypted {etags : List Tag} (acc : AssocMap String String)
    (hp : etags.Pairwise (fun s t => s.name ≠ t.name))
    (he : ∀ etag ∈ etags, ∃ n v, etag = encryptTag wc keys n v) :
    ∃ tags, etags.foldlM (insertDecrypted wc keys) acc = .ok tags ∧
      ∀ n v, tags.lookup n = some v ↔ encryptTag wc keys n v ∈ etags ∨
        (acc.lookup n = some v ∧ ∀ etag ∈ etags, etag.name ≠ encryptTagName wc keys n) := by
  induction etags generalizing acc with
  | nil => exact ⟨acc, rfl, fun n v => by simp⟩
  | cons etag etags ih =>
    obtain ⟨n₀, v₀, rfl⟩ := he etag mem_cons_self
    obtain ⟨hne, hp⟩ := pairwise_cons.mp hp
    obtain ⟨tags, hfold, hlook⟩ :=
      ih (acc.insert n₀ v₀) hp (fun s hs => he s (mem_cons_of_mem _ hs))
    refine ⟨tags, ?_, fun n v => ?_⟩
    · simp only [foldlM_cons, insertDecrypted, decryptTag_encryptTag, ok_bind,
        pure_eq_ok]
      exact hfold
    · rw [hlook, mem_cons, encryptTag_inj, forall_mem_cons, encryptTag_name, Ne,
        encryptTagName_inj]
      by_cases hn : n = n₀
      · subst hn
        have hfree : ∀ etag ∈ etags, etag.name ≠ encryptTagName wc keys n := fun etag hm =>
          fun h => hne etag hm (by rw [encryptTag_name, h])
        rw [AList.lookup_insert]
        simp only [Option.some.injEq, true_and, not_true_eq_false, false_and, and_false, or_false]
        constructor
        · rintro (hm | ⟨rfl, -⟩)
          · exact .inr hm
          · exact .inl rfl
        · rintro (rfl | hm)
          · exact .inr ⟨rfl, hfree⟩
          · exact .inl hm
      · rw [AList.lookup_insert_ne hn]
        simp only [hn, Ne.symm hn, false_and, false_or, not_false_eq_true, true_and]

theorem decryptTags_of_decrypts {etags : List Tag} {tags : String → Option String}
    (hp : etags.Pairwise (fun s t => s.name ≠ t.name)) (hd : Decrypts wc keys etags tags) :
    ∃ m, decryptTags wc keys (some etags) = .ok (some m) ∧ ∀ n, m.lookup n = tags n := by
  have he : ∀ etag ∈ etags, ∃ n v, etag = encryptTag wc keys n v := fun etag hm => by
    obtain ⟨n, v, -, h⟩ := (hd etag).mp hm
    exact ⟨n, v, h⟩
  obtain ⟨m, hm, hlook⟩ := foldlM_insertDecrypted wc keys ∅ hp he
  refine ⟨m, by rw [decryptTags, hm, map_ok], fun n => Option.ext fun v => ?_⟩
  rw [hlook, AList.lookup_empty, hd]
  constructor
  · rintro (⟨n', v', ht, h⟩ | ⟨h, -⟩)
    · obtain ⟨rfl, rfl⟩ := (encryptTag_inj wc keys).mp h
      exact ht
    · cases h
  · exact fun ht => .inl ⟨n, v, ht, rfl⟩

end IndySdk.Wallet
