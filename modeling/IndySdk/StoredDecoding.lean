import IndySdk.WalletRoundTrip

/-!
# Decoding what a storage returns

A nonce is sliced off every part of a stored record before the part is opened. The parts are
opened in turn up to the first that cannot be opened or read, so a part that is shorter than a
nonce does harm only when all parts before it are sound.
-/

namespace IndySdk.Wallet

open Outcome List
open Chacha20Poly1305Ietf (tagBytes SealLengths)

/-- A sealed part of a record and what is asked of its content. -/
structure Part where
  sealedBytes : Bytes
  key : Key
  accepts : Bytes → Bool

/-- What is asked of the content of most parts. -/
def isText (data : Bytes) : Bool := (Bytes.toText data).isSome

namespace EncryptedValue

def encryptedKeyLen : ℕ := tagBytes + nonceBytes + keyBytes

def toBytes (v : EncryptedValue) : Bytes := v.key ++ v.data

def fromBytes (joinedData : Bytes) : IndyResult EncryptedValue :=
  if joinedData.length < encryptedKeyLen then
    .err (errMsg .invalidStructure "Unable to split value_key from value: value too short")
  else .ok ⟨joinedData.drop encryptedKeyLen, joinedData.take encryptedKeyLen⟩

theorem fromBytes_ne_panic (joinedData : Bytes) : fromBytes joinedData ≠ .panic := by
  rw [fromBytes]
  split
  · exact err_ne_panic _
  · exact ok_ne_panic _

theorem fromBytes_toBytes {v : EncryptedValue} (h : v.key.length = encryptedKeyLen) :
    fromBytes v.toBytes = .ok v := by
  have henough : ¬(v.key ++ v.data).length < encryptedKeyLen := by
    rw [length_append]
    omega
  rw [fromBytes, toBytes, if_neg henough, ← h, drop_left, take_left]

theorem length_key_of_fromBytes {joinedData : Bytes} {v : EncryptedValue}
    (h : fromBytes joinedData = .ok v) : v.key.length = encryptedKeyLen := by
  rw [fromBytes] at h
  split at h
  · cases h
  · cases h
    rw [length_take]
    omega

theorem length_key_encrypt {wc : WalletCrypto} (hlengths : SealLengths wc) (data : String)
    (key : Key) (random : ValueRandomness) :
    (encrypt wc data key random).key.length = encryptedKeyLen := by
  change (encryptAsNotSearchable wc random.valueKey.bytes key random.keyNonce).length = _
  rw [encryptAsNotSearchable, length_append, hlengths, random.keyNonce.length_eq,
    random.valueKey.length_eq]
  rfl

end EncryptedValue

variable (wc : WalletCrypto)

/-- The content of sealed bytes that are long enough. -/
def unsealed (sealedBytes : Bytes) (key : Key) : Option Bytes :=
  if h : nonceBytes ≤ sealedBytes.length then
    wc.decrypt (sealedBytes.drop nonceBytes) key
      ⟨sealedBytes.take nonceBytes, length_take_of_le h⟩
  else none

/-- The part can be opened and read. -/
def Part.Opens (p : Part) : Prop :=
  ∃ data, unsealed wc p.sealedBytes p.key = some data ∧ p.accepts data

/-- Among parts that are opened in turn, a part that is too short for its nonce stands behind one
that cannot be opened or read. -/
def Guarded (parts : List Part) : Prop :=
  ∀ before p after, parts = before ++ p :: after → (∀ q ∈ before, q.Opens wc) →
    nonceBytes ≤ p.sealedBytes.length

variable {wc}

theorem guarded_nil : Guarded wc [] := by
  intro before p after h
  cases before <;> cases h

theorem guarded_cons {p : Part} {parts : List Part} : Guarded wc (p :: parts) ↔
    nonceBytes ≤ p.sealedBytes.length ∧ (p.Opens wc → Guarded wc parts) := by
  constructor
  · intro h
    refine ⟨h [] p parts rfl (fun q hq => absurd hq not_mem_nil), ?_⟩
    intro hp before q after heq hbefore
    refine h (p :: before) q after (congrArg (p :: ·) heq) ?_
    exact forall_mem_cons.mpr ⟨hp, hbefore⟩
  · rintro ⟨hlength, hrest⟩ before q after heq hbefore
    cases before with
    | nil =>
      injection heq with hp _
      rw [← hp]
      exact hlength
    | cons first before =>
      injection heq with hp heq
      obtain ⟨hfirst, hbefore⟩ := forall_mem_cons.mp hbefore
      exact hrest (hp ▸ hfirst) before q after heq hbefore

theorem guarded_append {parts parts' : List Part} : Guarded wc (parts ++ parts') ↔
    Guarded wc parts ∧ ((∀ p ∈ parts, p.Opens wc) → Guarded wc parts') := by
  induction parts with
  | nil =>
    rw [nil_append, and_iff_right guarded_nil]
    exact ⟨fun h _ => h, fun h => h (fun _ hp => absurd hp not_mem_nil)⟩
  | cons p parts ih =>
    rw [cons_append, guarded_cons, guarded_cons, ih, forall_mem_cons]
    constructor
    · rintro ⟨hlength, hrest⟩
      exact ⟨⟨hlength, fun hp => (hrest hp).1⟩, fun hall => (hrest hall.1).2 hall.2⟩
    · rintro ⟨⟨hlength, hrest⟩, hthen⟩
      exact ⟨hlength, fun hp => ⟨hrest hp, fun hall => hthen ⟨hp, hall⟩⟩⟩

variable (wc) in
/-- The computation opens the parts in turn: it gives a value when all of them open, and aborts
unless they are guarded. -/
structure OpensAll {α : Type} (x : IndyResult α) (parts : List Part) : Prop where
  ok_iff : (∃ a, x = .ok a) ↔ ∀ p ∈ parts, p.Opens wc
  panic_iff : x ≠ .panic ↔ Guarded wc parts

namespace OpensAll

variable {α β : Type}

theorem pure (a : α) : OpensAll wc (.ok a) [] where
  ok_iff := iff_of_true ⟨a, rfl⟩ (fun _ hp => absurd hp not_mem_nil)
  panic_iff := iff_of_true (ok_ne_panic a) guarded_nil

theorem bind {x : IndyResult α} {f : α → IndyResult β} {parts parts' : List Part}
    (hx : OpensAll wc x parts) (hf : ∀ a, x = .ok a → OpensAll wc (f a) parts') :
    OpensAll wc (x >>= f) (parts ++ parts') where
  ok_iff := by
    constructor
    · rintro ⟨b, hb⟩
      obtain ⟨a, ha, hfa⟩ := bind_eq_ok_iff.mp hb
      rw [forall_mem_append]
      exact ⟨hx.ok_iff.mp ⟨a, ha⟩, (hf a ha).ok_iff.mp ⟨b, hfa⟩⟩
    · intro h
      rw [forall_mem_append] at h
      obtain ⟨a, ha⟩ := hx.ok_iff.mpr h.1
      obtain ⟨b, hb⟩ := (hf a ha).ok_iff.mpr h.2
      exact ⟨b, bind_eq_ok_iff.mpr ⟨a, ha, hb⟩⟩
  panic_iff := by
    rw [guarded_append, Ne, bind_eq_panic_iff, not_or, ← Ne, hx.panic_iff]
    refine and_congr_right (fun _ => ?_)
    constructor
    · intro h hall
      obtain ⟨a, ha⟩ := hx.ok_iff.mpr hall
      exact (hf a ha).panic_iff.mp (fun hp => h ⟨a, ha, hp⟩)
    · rintro h ⟨a, ha, hp⟩
      exact (hf a ha).panic_iff.mpr (h (hx.ok_iff.mp ⟨a, ha⟩)) hp

theorem map {x : IndyResult α} {parts : List Part} (hx : OpensAll wc x parts) (f : α → β) :
    OpensAll wc (f <$> x) parts where
  ok_iff := by
    rw [← hx.ok_iff]
    constructor
    · rintro ⟨b, hb⟩
      obtain ⟨a, ha, -⟩ := map_eq_ok_iff.mp hb
      exact ⟨a, ha⟩
    · rintro ⟨a, ha⟩
      exact ⟨f a, map_eq_ok_iff.mpr ⟨a, ha, rfl⟩⟩
  panic_iff := by rw [Ne, map_eq_panic_iff, ← Ne, hx.panic_iff]

end OpensAll

variable (wc) in
/-- The computation gives what is sealed, and aborts when the nonce cannot be sliced off. -/
structure Unseals (x : IndyResult Bytes) (sealedBytes : Bytes) (key : Key) : Prop where
  ok_iff : ∀ data, x = .ok data ↔ unsealed wc sealedBytes key = some data
  panic_iff : x ≠ .panic ↔ nonceBytes ≤ sealedBytes.length

theorem unseals_decryptMerged (sealedBytes : Bytes) (key : Key) :
    Unseals wc (decryptMerged wc sealedBytes key) sealedBytes key := by
  rw [decryptMerged]
  by_cases h : nonceBytes ≤ sealedBytes.length
  · rw [dif_pos h]
    refine ⟨fun data => ?_, iff_of_true (ofOption_ne_panic _ _) h⟩
    rw [decrypt, ofOption_eq_ok, unsealed, dif_pos h]
  · rw [dif_neg h]
    refine ⟨fun data => iff_of_false (panic_ne_ok data) ?_, iff_of_false (by simp) h⟩
    rw [unsealed, dif_neg h]
    exact Option.some_ne_none data ∘ Eq.symm

theorem Unseals.toIndy {x : IndyResult Bytes} {sealedBytes : Bytes} {key : Key}
    {kind : IndyErrorKind} {msg : String} (hx : Unseals wc x sealedBytes key) :
    Unseals wc (toIndy kind msg x) sealedBytes key where
  ok_iff data := by rw [toIndy_eq_ok, hx.ok_iff]
  panic_iff := by
    rw [← hx.panic_iff]
    cases x with
    | ok data => exact iff_of_true (ok_ne_panic data) (ok_ne_panic data)
    | err e => exact iff_of_true (err_ne_panic _) (err_ne_panic e)
    | panic => exact Iff.rfl

theorem Unseals.opensAll {α : Type} {x : IndyResult Bytes} {p : Part}
    (hx : Unseals wc x p.sealedBytes p.key) {read : Bytes → IndyResult α}
    (hread : ∀ data, (∃ a, read data = .ok a) ↔ p.accepts data)
    (hsafe : ∀ data, read data ≠ .panic) : OpensAll wc (x >>= read) [p] where
  ok_iff := by
    rw [forall_mem_singleton]
    constructor
    · rintro ⟨a, ha⟩
      obtain ⟨data, hopen, hget⟩ := bind_eq_ok_iff.mp ha
      exact ⟨data, (hx.ok_iff data).mp hopen, (hread data).mp ⟨a, hget⟩⟩
    · rintro ⟨data, hopen, haccepts⟩
      obtain ⟨a, ha⟩ := (hread data).mpr haccepts
      exact ⟨a, bind_eq_ok_iff.mpr ⟨data, (hx.ok_iff data).mpr hopen, ha⟩⟩
  panic_iff := by
    rw [guarded_cons, and_iff_left (fun _ => guarded_nil), ← hx.panic_iff, Ne,
      bind_eq_panic_iff, not_or, and_iff_left]
    rintro ⟨data, -, hpanic⟩
    exact hsafe data hpanic

theorem Unseals.text {x : IndyResult Bytes} {sealedBytes : Bytes} {key : Key}
    (hx : Unseals wc x sealedBytes key) (e : IndyError) :
    OpensAll wc (x >>= fun data => ofOption e (Bytes.toText data))
      [⟨sealedBytes, key, isText⟩] := by
  refine hx.opensAll (fun data => ?_) (fun data => ofOption_ne_panic _ _)
  change _ ↔ (Bytes.toText data).isSome
  rw [Option.isSome_iff_exists]
  exact exists_congr (fun a => ofOption_eq_ok)

/-! ### The parts of a record -/

theorem Key.fromSlice_eq_ok {data : Bytes} {key : Key} :
    Key.fromSlice data = .ok key ↔ ∃ h : data.length = keyBytes, ⟨data, h⟩ = key := by
  rw [Key.fromSlice]
  split
  · rename_i h
    rw [Outcome.ok.injEq, exists_prop_of_true h]
  · rename_i h
    exact iff_of_false (err_ne_ok _ _) (fun hkey => h hkey.1)

theorem Key.fromSlice_ok_iff {data : Bytes} :
    (∃ key, Key.fromSlice data = .ok key) ↔ data.length = keyBytes := by
  constructor
  · rintro ⟨key, hkey⟩
    exact (Key.fromSlice_eq_ok.mp hkey).1
  · exact fun h => ⟨⟨data, h⟩, Key.fromSlice_eq_ok.mpr ⟨h, rfl⟩⟩

/-- The parts of a value: the key it is sealed under, and the value when this key is one. -/
def EncryptedValue.parts (wc : WalletCrypto) (v : EncryptedValue) (key : Key) : List Part :=
  ⟨v.key, key, fun data => data.length = keyBytes⟩ ::
    match unsealed wc v.key key with
    | some data => if h : data.length = keyBytes then [⟨v.data, ⟨data, h⟩, isText⟩] else []
    | none => []

def Tag.parts (keys : Keys) : Tag → List Part
  | .plainText name _ => [⟨name, keys.tagNameKey, isText⟩]
  | .encrypted name value =>
    [⟨name, keys.tagNameKey, isText⟩, ⟨value, keys.tagValueKey, isText⟩]

/-- The parts of a record in the order in which they are opened. -/
def StorageRecord.parts (wc : WalletCrypto) (keys : Keys) (record : StorageRecord) : List Part :=
  [⟨record.id, keys.nameKey, isText⟩] ++
    (match record.value with
      | some value => value.parts wc keys.valueKey
      | none => []) ++
    (match record.type with
      | some type => [⟨type, keys.typeKey, isText⟩]
      | none => []) ++
    (record.tags.getD []).flatMap (Tag.parts keys)

theorem EncryptedValue.decrypt_opensAll (v : EncryptedValue) (key : Key) :
    OpensAll wc (v.decrypt wc key) (v.parts wc key) := by
  have hkey : OpensAll wc
      (decryptMerged wc v.key key >>= fun data =>
        toIndy .invalidStructure "Invalid value key" (Key.fromSlice data))
      [⟨v.key, key, fun data => data.length = keyBytes⟩] := by
    refine (unseals_decryptMerged v.key key).opensAll (fun data => ?_) (fun data => ?_)
    · rw [decide_eq_true_iff]
      exact (exists_congr (fun _ => toIndy_eq_ok)).trans Key.fromSlice_ok_iff
    · rw [Key.fromSlice]
      split
      · exact ok_ne_panic _
      · exact err_ne_panic _
  have hassoc : v.decrypt wc key =
      (decryptMerged wc v.key key >>= fun data =>
        toIndy .invalidStructure "Invalid value key" (Key.fromSlice data)) >>= fun valueKey =>
          decryptMerged wc v.data valueKey >>= fun data =>
            ofOption (errMsg .invalidStructure "Invalid UTF8 string inside of value")
              (Bytes.toText data) := (bind_assoc _ _ _).symm
  rw [hassoc]
  refine hkey.bind (fun valueKey hvalueKey => ?_)
  obtain ⟨data, hdata, hslice⟩ := bind_eq_ok_iff.mp hvalueKey
  obtain ⟨hlength, rfl⟩ := Key.fromSlice_eq_ok.mp (toIndy_eq_ok.mp hslice)
  rw [((unseals_decryptMerged v.key key).ok_iff data).mp hdata]
  dsimp only
  rw [dif_pos hlength]
  exact (unseals_decryptMerged v.data _).text _

theorem decryptTag_opensAll (keys : Keys) (tag : Tag) :
    OpensAll wc (decryptTag wc keys tag) (tag.parts keys) := by
  cases tag with
  | plainText name value =>
    exact ((unseals_decryptMerged name _).toIndy.text _).map (fun n => ("~" ++ n, value))
  | encrypted name value =>
    have hvalue (n : String) : OpensAll wc
        ((fun v => (n, v)) <$> decryptTagText wc value keys.tagValueKey)
        [⟨value, keys.tagValueKey, isText⟩] :=
      ((unseals_decryptMerged value _).toIndy.text _).map (fun v => (n, v))
    exact ((unseals_decryptMerged name _).toIndy.text _).bind (fun n _ => hvalue n)

theorem foldlM_insertDecrypted_opensAll (keys : Keys) (tags : AssocMap String String)
    (etags : List Tag) :
    OpensAll wc (etags.foldlM (insertDecrypted wc keys) tags) (etags.flatMap (Tag.parts keys)) := by
  induction etags generalizing tags with
  | nil => exact OpensAll.pure tags
  | cons etag etags ih =>
    rw [foldlM_cons, flatMap_cons]
    refine OpensAll.bind ?_ (fun tags _ => ih tags)
    exact (decryptTag_opensAll keys etag).map (fun t => tags.insert t.1 t.2)

theorem decryptTags_opensAll (keys : Keys) (etags : Option (List Tag)) :
    OpensAll wc (decryptTags wc keys etags) ((etags.getD []).flatMap (Tag.parts keys)) := by
  cases etags with
  | none => exact OpensAll.pure none
  | some etags => exact (foldlM_insertDecrypted_opensAll keys ∅ etags).map some

/-- The value of a record, when it was fetched. -/
def StorageRecord.decryptValue (wc : WalletCrypto) (keys : Keys) (record : StorageRecord) :
    IndyResult (Option String) :=
  match record.value with
  | some value => some <$> value.decrypt wc keys.valueKey
  | none => pure none

def StorageRecord.decryptType (wc : WalletCrypto) (keys : Keys) (record : StorageRecord) :
    IndyResult (Option String) :=
  match record.type with
  | some type => some <$> (decryptMerged wc type keys.typeKey >>= fun typeBytes =>
      ofOption (errMsg .walletEncryptionError "Record type is invalid utf8")
        (Bytes.toText typeBytes))
  | none => pure none

theorem decryptStorageRecord_eq (keys : Keys) (record : StorageRecord) :
    decryptStorageRecord wc keys record =
      (decryptMerged wc record.id keys.nameKey >>= fun nameBytes =>
        ofOption (errMsg .walletEncryptionError "Record is invalid utf8")
          (Bytes.toText nameBytes)) >>= fun name =>
      record.decryptValue wc keys >>= fun value =>
      record.decryptType wc keys >>= fun type =>
      (fun tags => ⟨type, name, value, tags⟩) <$> decryptTags wc keys record.tags := by
  obtain ⟨id, value, type, tags⟩ := record
  rw [bind_assoc]
  cases value <;> cases type <;>
    simp only [decryptStorageRecord, StorageRecord.decryptValue, StorageRecord.decryptType,
      map_eq_pure_bind, bind_assoc, pure_bind]

theorem decryptStorageRecord_opensAll (keys : Keys) (record : StorageRecord) :
    OpensAll wc (decryptStorageRecord wc keys record) (record.parts wc keys) := by
  rw [decryptStorageRecord_eq, StorageRecord.parts, append_assoc, append_assoc]
  refine ((unseals_decryptMerged record.id keys.nameKey).text _).bind (fun name _ => ?_)
  refine OpensAll.bind ?_ (fun value _ => OpensAll.bind ?_ (fun type _ => ?_))
  · rw [StorageRecord.decryptValue]
    cases record.value with
    | none => exact OpensAll.pure none
    | some value => exact (value.decrypt_opensAll keys.valueKey).map some
  · rw [StorageRecord.decryptType]
    cases record.type with
    | none => exact OpensAll.pure none
    | some type => exact ((unseals_decryptMerged type keys.typeKey).text _).map some
  · exact (decryptTags_opensAll keys record.tags).map _

/-- A stored record or value is decoded without a panic exactly when no part that is reached is
too short for a nonce. Splitting never panics, and it takes apart what was joined when the key has
its length, as the key of every encrypted value has. -/
theorem storedDecoding_iff (hlengths : SealLengths wc) (keys : Keys) (record : StorageRecord)
    (v : EncryptedValue) (key : Key) (joinedData : Bytes) (data : String)
    (random : ValueRandomness) :
    (decryptStorageRecord wc keys record ≠ .panic ↔ Guarded wc (record.parts wc keys)) ∧
    (v.decrypt wc key ≠ .panic ↔ Guarded wc (v.parts wc key)) ∧
    EncryptedValue.fromBytes joinedData ≠ .panic ∧
    (EncryptedValue.fromBytes v.toBytes = .ok v ↔
      v.key.length = EncryptedValue.encryptedKeyLen) ∧
    (EncryptedValue.encrypt wc data key random).key.length = EncryptedValue.encryptedKeyLen :=
  ⟨(decryptStorageRecord_opensAll keys record).panic_iff, (v.decrypt_opensAll key).panic_iff,
    EncryptedValue.fromBytes_ne_panic joinedData,
    ⟨EncryptedValue.length_key_of_fromBytes, EncryptedValue.fromBytes_toBytes⟩,
    EncryptedValue.length_key_encrypt hlengths data key random⟩

theorem storedDecoding_iff_padded :
    (decryptStorageRecord paddedCrypto zeroKeys ⟨[1, 2, 3], none, none, none⟩ ≠ .panic ↔
      Guarded paddedCrypto (StorageRecord.parts paddedCrypto zeroKeys
        ⟨[1, 2, 3], none, none, none⟩)) ∧
    (EncryptedValue.decrypt paddedCrypto ⟨[], []⟩ zeroKey ≠ .panic ↔
      Guarded paddedCrypto (EncryptedValue.parts paddedCrypto ⟨[], []⟩ zeroKey)) ∧
    EncryptedValue.fromBytes [] ≠ .panic ∧
    (EncryptedValue.fromBytes (EncryptedValue.toBytes ⟨[], []⟩) = .ok ⟨[], []⟩ ↔
      ([] : Bytes).length = EncryptedValue.encryptedKeyLen) ∧
    (EncryptedValue.encrypt paddedCrypto "v" zeroKey zeroRandomness).key.length =
      EncryptedValue.encryptedKeyLen :=
  storedDecoding_iff paddedCrypto_lengths _ _ _ _ _ _ _

/-- A name of three bytes ends the thread, and so does a value that is nothing but its key. -/
theorem shortParts_panic :
    decryptStorageRecord paddedCrypto zeroKeys ⟨[1, 2, 3], none, none, none⟩ = .panic ∧
    ∃ v, EncryptedValue.fromBytes (List.replicate 60 0) = .ok v ∧
      v.decrypt paddedCrypto zeroKey = .panic :=
  ⟨rfl, _, rfl, by rfl⟩

end IndySdk.Wallet
