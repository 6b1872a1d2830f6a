import IndySdk.WalletImport

/-!
# Round trips of exported wallets

An exported wallet comes back as it was exactly when the encoding of each of its records is shorter
than four gigabytes. A record whose encoding is exactly that long is written with the length zero,
which ends the stream before the record.
-/

namespace IndySdk.Wallet

open ChunkedStream RecordMap Outcome List Option
open Chacha20Poly1305Ietf (Reader SealLengths Writer tagBytes)

variable {crates : ExportCrates} {wc : WalletCrypto} {keys keys' : Keys}
  {order order' : IterationOrder}

/-- A file imports into a new wallet, which then lists some records, in any order. -/
def Restores (crates : ExportCrates) (wc : WalletCrypto) (keys : Keys) (order : IterationOrder)
    (overflowChecks : Bool) (random : ℕ → ValueRandomness) (metadata file : Bytes)
    (passphrase : String) (records : List WalletRecord) : Prop :=
  ∃ db restored, importFile crates wc keys overflowChecks random file passphrase
      (Store.create metadata).db = (.ok (), db) ∧
    getAll wc keys order db = .ok restored ∧
    (restored.map WalletRecord.view).Perm (records.map WalletRecord.view)

variable {records : List WalletRecord}

theorem Exported.forall_mem_iff {encodings : List Bytes} (h : Exported crates records encodings)
    (P : Bytes → Prop) :
    (∀ bytes ∈ encodings, P bytes) ↔
      ∀ record ∈ records, ∀ bytes, exportRecord crates record = .ok bytes → P bytes := by
  induction h with
  | nil => simp
  | @cons record bytes records encodings hrecord hothers ih =>
    rw [forall_mem_cons, forall_mem_cons, ih]
    refine and_congr_left (fun _ => ?_)
    constructor
    · intro hbytes bytes' hrecord'
      rw [hrecord] at hrecord'
      obtain rfl := Outcome.ok.inj hrecord'
      exact hbytes
    · intro hall
      exact hall bytes hrecord

theorem readLength_ne_none {encodings : List Bytes}
    (h : ∀ bytes ∈ encodings, bytes.length < 256 ^ 4) : readLength encodings ≠ none := by
  induction encodings with
  | nil =>
    intro hnone
    cases hnone
  | cons bytes encodings ih =>
    obtain ⟨hlt, hothers⟩ := forall_mem_cons.mp h
    rw [readLength, if_pos hlt]
    split
    · intro hnone
      cases hnone
    · rw [Ne, map_eq_none_iff]
      exact ih hothers

/-- What an import of an exported file leaves is decided by the lengths of the encodings. -/
theorem restores_iff (hlaws : crates.Lawful) (hlengths : SealLengths wc) {n : ℕ} (hn : 0 < n)
    (hsize : n + tagBytes < 2 ^ 63) {db : Db} {m : RecordMap} (hdb : Represents wc keys db m)
    {keyData : KeyDerivationData crates.saltBytes} {key : Key}
    (hkey : keyData.calcMasterKey crates = .ok key) {nonce : Nonce} {time : ℕ} {file : Bytes}
    (hexport : exportWith crates wc keys order n db 0 key keyData nonce time = .ok file)
    (hrecords : getAll wc keys order db = .ok records) (overflowChecks : Bool)
    (random : ℕ → ValueRandomness) (metadata : Bytes) :
    Restores crates wc keys' order' overflowChecks random metadata file keyData.passphrase
        records ↔
      ∀ record ∈ records, ∀ bytes, exportRecord crates record = .ok bytes →
        bytes.length < 256 ^ 4 := by
  obtain ⟨header, records', encodings, chunks, hheader, hrecords', hexported, hcut, hflatten,
    rfl⟩ := exportWith_spec hn hexport
  rw [hrecords] at hrecords'
  obtain rfl := Outcome.ok.inj hrecords'
  obtain ⟨r, hyields, himport⟩ := importFile_of_yields hlengths hlaws hheader hkey hsize hcut
    (.inl rfl) hflatten keys' overflowChecks random (Store.create metadata).db
  rw [append_nil] at himport
  have hencodes := hexported.encodes
  rw [← hexported.forall_mem_iff, Restores, front] at *
  cases hlength : readLength encodings with
  | none =>
    constructor
    · rintro ⟨db', restored, hok, -⟩
      refine absurd ?_ (readRecords_ne_ok hlengths hlaws keys' random hencodes hlength hyields 0
        (Store.create metadata).db)
      rw [← himport, hok]
    · intro hsmall
      exact absurd hlength (readLength_ne_none hsmall)
  | some length =>
    obtain ⟨data, added, rest, hsplit, hdata, -⟩ :=
      exists_framed_of_readLength hlaws hencodes hlength
    obtain ⟨-, hprefix, hcount⟩ := framed_stream hlaws hencodes hsplit hdata
    rw [hsplit] at hyields
    rw [readRecords_of_framed hlengths random hdata hyields] at himport
    obtain ⟨m', hlists⟩ : ∃ m, RecordMap.Lists (records.map WalletRecord.view) m := by
      obtain ⟨l, hget, hl⟩ := @getAll_lists _ _ order _ _ hdb
      rw [hrecords] at hget
      obtain rfl := Outcome.ok.inj hget
      exact ⟨m, hl⟩
    have hkeys := hlists.pairwise.sublist hprefix.sublist
    obtain ⟨db', restored, hall, hget, hperm⟩ :=
      @addAll_create wc keys' order' metadata random added hkeys
    rw [← hcount]
    constructor
    · rintro ⟨db'', restored', hok, hget', hperm'⟩
      rw [himport, hall] at hok
      obtain rfl : db' = db'' := congrArg Prod.snd hok
      rw [hget] at hget'
      obtain rfl := Outcome.ok.inj hget'
      have hsame := (hperm.symm.trans hperm').length_eq
      rw [length_map] at hsame
      exact hsame
    · intro hsame
      have hall' : added.map ExportRecord.view = records.map WalletRecord.view := by
        refine hprefix.eq_of_length ?_
        rw [length_map]
        exact hsame
      rw [hall'] at hperm
      exact ⟨db', restored, himport.trans hall, hget, hperm⟩

/-- The round trip of a wallet with its default chunk size: it succeeds exactly when the lengths of
the encodings can be written. -/
theorem export_restores_iff (hlaws : crates.Lawful) (hlengths : SealLengths wc) {db : Db}
    {m : RecordMap} (hdb : Represents wc keys db m)
    {keyData : KeyDerivationData crates.saltBytes} {key : Key}
    (hkey : keyData.calcMasterKey crates = .ok key) {nonce : Nonce} {time : ℕ} {file : Bytes}
    (hexport : exportContinue crates wc keys order db 0 key keyData nonce time = .ok file)
    {records : List WalletRecord} (hrecords : getAll wc keys order db = .ok records)
    (overflowChecks : Bool) (random : ℕ → ValueRandomness) (metadata : Bytes) :
    Restores crates wc keys' order' overflowChecks random metadata file keyData.passphrase
        records ↔
      ∀ record ∈ records, ∀ bytes, exportRecord crates record = .ok bytes →
        bytes.length < 2 ^ 32 :=
  restores_iff hlaws hlengths (by decide) (by decide) hdb hkey hexport hrecords overflowChecks
    random metadata

/-! ### One record -/

/-- A sealing function that appends a tag of zeros, for evaluating exports. -/
def paddedCrypto : WalletCrypto where
  encrypt := fun data _ _ => data ++ List.replicate tagBytes 0
  decrypt := fun data _ _ =>
    if tagBytes ≤ data.length then some (data.take (data.length - tagBytes)) else none
  authenticate := fun _ _ => zeroTag
  decrypt_encrypt := by
    intro data key nonce
    have hlength : (data ++ List.replicate tagBytes (0 : UInt8)).length =
        data.length + tagBytes := by
      rw [length_append, length_replicate]
    rw [hlength, if_pos (Nat.le_add_left _ _), Nat.add_sub_cancel, take_left]

theorem paddedCrypto_lengths : SealLengths paddedCrypto := by
  intro data key nonce
  exact (length_append).trans (congrArg _ length_replicate)

instance : DecidableEq ExportRecord := fun r s =>
  decidable_of_iff (r.type = s.type ∧ r.id = s.id ∧ r.value = s.value ∧
    r.tags.entries = s.tags.entries) (by
      obtain ⟨type, id, value, tags⟩ := r
      obtain ⟨type', id', value', tags'⟩ := s
      rw [ExportRecord.mk.injEq, AList.ext_iff])

instance : DecidableEq WalletRecord := fun r s =>
  decidable_of_iff (r.type = s.type ∧ r.id = s.id ∧ r.value = s.value ∧
    r.tags.map AList.entries = s.tags.map AList.entries) (by
      obtain ⟨type, id, value, tags⟩ := r
      obtain ⟨type', id', value', tags'⟩ := s
      rw [WalletRecord.mk.injEq, (map_injective (fun _ _ => AList.ext)).eq_iff])

/-- Encodings of one header and one record. -/
def singleCrates (header : Header) (headerBytes : Bytes) (record : ExportRecord)
    (recordBytes : Bytes) : ExportCrates where
  saltBytes := 32
  hash := fun _ => List.replicate hashBytes 0
  length_hash := fun _ => rfl
  base58 := fun s => if s.toList.all (· = '1') then some (List.replicate s.length 0) else none
  pwhash := fun _ _ _ => none
  headerToVec := fun h => if h = header then some headerBytes else none
  headerFromSlice := fun b => if b = headerBytes then some header else none
  recordToVec := fun r => if r = record then some recordBytes else none
  recordFromSlice := fun b => if b = recordBytes then some record else none

theorem singleCrates_lawful {header : Header} {headerBytes : Bytes} {record : ExportRecord}
    {recordBytes : Bytes} (hheader : headerBytes ≠ []) (hlt : headerBytes.length < 256 ^ 4)
    (hrecord : recordBytes ≠ []) :
    (singleCrates header headerBytes record recordBytes).Lawful := by
  refine ⟨?_, ?_, ?_⟩
  · intro h b hb
    obtain ⟨rfl, hsome⟩ := ite_none_right_eq_some.mp hb
    obtain rfl := Option.some.inj hsome
    exact ⟨if_pos rfl, hheader, hlt⟩
  · intro r b hb
    obtain ⟨rfl, hsome⟩ := ite_none_right_eq_some.mp hb
    obtain rfl := Option.some.inj hsome
    exact ⟨hrecord, r, if_pos rfl, rfl, rfl, rfl, fun _ => rfl⟩
  · intro r b k hb hk
    obtain ⟨rfl, hsome⟩ := ite_none_right_eq_some.mp hb
    obtain rfl := Option.some.inj hsome
    refine if_neg ?_
    intro htake
    have hlength := congrArg List.length htake
    rw [length_take_of_le hk.le] at hlength
    exact hk.ne hlength

/-- The encoding of a text: its length, in the shortest form, and its bytes. -/
def packText (s : String) : Bytes :=
  let b := Bytes.ofText s
  (if b.length < 32 then [UInt8.ofNat (0xa0 + b.length)]
    else if b.length < 2 ^ 8 then 0xd9 :: Bytes.ofNat 1 b.length
    else if b.length < 2 ^ 16 then 0xda :: Bytes.ofNat 2 b.length
    else 0xdb :: Bytes.ofNat 4 b.length) ++ b

/-- The encoding of a record of four fields with few tags. -/
def packRecord (r : ExportRecord) : Bytes :=
  0x94 :: (packText r.type ++ packText r.id ++ packText r.value ++
    UInt8.ofNat (0x80 + r.tags.toPairs.length) ::
      r.tags.toPairs.flatMap (fun t => packText t.1 ++ packText t.2))

/-- The base 58 text of a key of zeros. -/
def rawPassphrase : String := "11111111111111111111111111111111"

def rawHeader : Header := ⟨.chaCha20Poly1305IETFRaw zeroNonce.bytes chunkSize, 0, 0⟩

def packedRawHeader : Bytes :=
  [0x93, 0x92, 0x02, 0x92, 0x9c] ++ List.replicate 12 0 ++ [0xcd, 0x04, 0x00, 0x00, 0x00]

def packedCrates (record : ExportRecord) : ExportCrates :=
  singleCrates rawHeader packedRawHeader record (packRecord record)

theorem packedCrates_lawful (record : ExportRecord) : (packedCrates record).Lawful :=
  singleCrates_lawful (by decide) (by decide) (cons_ne_nil _ _)

theorem packedCrates_key (record : ExportRecord) :
    (KeyDerivationData.raw rawPassphrase).calcMasterKey (packedCrates record) = .ok zeroKey := by
  have hbytes : (if rawPassphrase.toList.all (· = '1')
      then some (List.replicate rawPassphrase.length (0 : UInt8)) else none) =
        some (List.replicate 32 0) := by
    rfl
  change (ofOption _ (if rawPassphrase.toList.all (· = '1')
    then some (List.replicate rawPassphrase.length (0 : UInt8)) else none) >>= _) = _
  rw [hbytes]
  rfl

/-- A wallet after one record was added to it. -/
def singleDb (wc : WalletCrypto) (record : ExportRecord) : Db :=
  (add wc zeroKeys record.type record.id record.value record.tags zeroRandomness
    (Store.create []).db).2

theorem singleDb_represents (wc : WalletCrypto) (record : ExportRecord) :
    Represents wc zeroKeys (singleDb wc record)
      (Function.update empty (record.type, record.id)
        (some ⟨record.value, fun n => record.tags.lookup n⟩)) := by
  have hnew : Represents wc zeroKeys (Store.create []).db empty :=
    represents_create []
  have hnone : empty (record.type, record.id) = none := rfl
  obtain ⟨db, hadd, hrep, -⟩ :=
    add_fresh hnew (tagsOfItems_create []) hnone record.value record.tags zeroRandomness
  rw [singleDb, hadd]
  exact hrep

def shortRecord : ExportRecord := ⟨"t", "n", "v", AList.insert "a" "1" ∅⟩

/-- A file of one record of fourteen bytes is restored. -/
theorem shortRecord_restored :
    Restores (packedCrates shortRecord) paddedCrypto zeroKeys .inserted true
      (fun _ => zeroRandomness) []
      (front packedRawHeader ++ (List.replicate 32 0 ++ stream [packRecord shortRecord]) ++
        List.replicate tagBytes 0) rawPassphrase
      [⟨some "t", "n", some "v", some (AList.insert "a" "1" ∅)⟩] := by
  have hexport : exportContinue (packedCrates shortRecord) paddedCrypto zeroKeys .inserted
      (singleDb paddedCrypto shortRecord) 0 zeroKey (.raw rawPassphrase) zeroNonce 0 =
        .ok (front packedRawHeader ++ (List.replicate 32 0 ++ stream [packRecord shortRecord]) ++
          List.replicate tagBytes 0) := by
    decide +kernel
  have hrecords : getAll paddedCrypto zeroKeys .inserted (singleDb paddedCrypto shortRecord) =
      .ok [⟨some "t", "n", some "v", some (AList.insert "a" "1" ∅)⟩] := by
    decide +kernel
  refine (export_restores_iff (packedCrates_lawful shortRecord) paddedCrypto_lengths
    (singleDb_represents paddedCrypto shortRecord)
    (packedCrates_key shortRecord) hexport hrecords true
    (fun _ => zeroRandomness) []).mpr ?_
  intro record hmem bytes hbytes
  rw [mem_singleton.mp hmem] at hbytes
  have hpacked : exportRecord (packedCrates shortRecord)
      ⟨some "t", "n", some "v", some (AList.insert "a" "1" ∅)⟩ =
        .ok (packRecord shortRecord) := by
    decide +kernel
  rw [hpacked] at hbytes
  rw [← Outcome.ok.inj hbytes]
  decide +kernel

/-! ### A record whose length takes more than four bytes -/

theorem exists_exportWith {n version time : ℕ} {db : Db} {key : Key}
    {keyData : KeyDerivationData crates.saltBytes} {nonce : Nonce} {header : Bytes}
    (hheader : crates.headerToVec ⟨keyData.encryptionMethod nonce n, time, version⟩ = some header)
    (hrecords : getAll wc keys order db = .ok records)
    (hencoded : ∀ record ∈ records, ∃ bytes, exportRecord crates record = .ok bytes) :
    ∃ file, exportWith crates wc keys order n db version key keyData nonce time = .ok file := by
  have hwrite : ∀ (stored : List StorageRecord) (records : List WalletRecord) (w : Writer),
      stored.mapM (decryptStorageRecord wc keys) = .ok records →
      (∀ record ∈ records, ∃ bytes, exportRecord crates record = .ok bytes) →
      ∃ w', writeRecords crates wc keys w stored = .ok w' := by
    intro stored
    induction stored with
    | nil =>
      intro records w _ _
      exact ⟨w, rfl⟩
    | cons first stored ih =>
      intro records w hrecords hencoded
      rw [mapM_cons] at hrecords
      obtain ⟨record, hrecord, hrecords⟩ := bind_eq_ok_iff.mp hrecords
      obtain ⟨others, hothers, hrecords⟩ := bind_eq_ok_iff.mp hrecords
      cases hrecords
      obtain ⟨⟨bytes, hbytes⟩, hencoded⟩ := forall_mem_cons.mp hencoded
      obtain ⟨w', hw'⟩ := ih others (writeFrame wc w bytes) hothers hencoded
      refine ⟨w', ?_⟩
      rw [writeRecords, hrecord, ok_bind, hbytes, ok_bind]
      exact hw'
  rw [exportWith, hheader, ofOption_some, ok_bind]
  obtain ⟨w', hw'⟩ := hwrite _ records ((Writer.new
    (LittleEndian.encode 4 header.length ++ header) key nonce n).write wc (crates.hash header))
    hrecords hencoded
  dsimp only
  rw [hw', ok_bind]
  exact ⟨_, rfl⟩

/-- A record whose value is a letter again and again. -/
def repeatedRecord (k : ℕ) : ExportRecord :=
  ⟨"t", "n", String.ofList (List.replicate k 'a'), ∅⟩

theorem length_ofText_replicate (k : ℕ) :
    (Bytes.ofText (String.ofList (List.replicate k 'a'))).length = k := by
  induction k with
  | zero => rfl
  | succ k ih =>
    have hsplit : String.ofList (List.replicate (k + 1) 'a') =
        String.ofList ['a'] ++ String.ofList (List.replicate k 'a') := by
      rw [← String.ofList_append]
      rfl
    rw [hsplit, Bytes.ofText_append, length_append, ih, Nat.add_comm]
    rfl

theorem length_packRecord_repeated {k : ℕ} (h : 2 ^ 16 ≤ k) :
    (packRecord (repeatedRecord k)).length = k + 11 := by
  have hvalue : (packText (String.ofList (List.replicate k 'a'))).length = k + 5 := by
    rw [packText, length_ofText_replicate, if_neg (by omega), if_neg (by omega), if_neg (by omega),
      length_append, length_ofText_replicate, Nat.add_comm]
    rfl
  have htype : (packText "t").length = 2 := by decide +kernel
  have hid : (packText "n").length = 2 := by rfl
  rw [packRecord, repeatedRecord]
  dsimp only
  rw [length_cons, length_append, length_append, length_append, htype, hid,
    hvalue]
  change 2 + 2 + (k + 5) + 1 + 1 = k + 11
  omega

theorem eq_empty_of_lookup {tags : AssocMap String String} (h : ∀ n, tags.lookup n = none) :
    tags = ∅ := by
  apply AList.ext
  cases hentries : tags.entries with
  | nil => rfl
  | cons t rest =>
    have hmem : ⟨t.1, t.2⟩ ∈ tags.entries := by
      rw [hentries]
      exact mem_cons_self
    have hlookup := AList.mem_lookup_iff.mpr hmem
    rw [h] at hlookup
    cases hlookup

theorem getAll_singleDb {record : ExportRecord} (htags : record.tags = ∅) :
    getAll wc zeroKeys .inserted (singleDb wc record) =
      .ok [⟨some record.type, record.id, some record.value, some ∅⟩] := by
  obtain ⟨l, hget, hl⟩ := @getAll_lists _ _ .inserted _ _ (singleDb_represents wc record)
  have hview : l.map WalletRecord.view = [record.view] := by
    refine perm_singleton.mp
      ((perm_ext_iff_of_nodup hl.1 (nodup_singleton _)).mpr ?_)
    intro r
    rw [hl.2, mem_singleton]
    constructor
    · rintro ⟨type, name, e, he, rfl⟩
      by_cases hkey : (type, name) = (record.type, record.id)
      · cases hkey
        rw [Function.update_self] at he
        rw [← Option.some.inj he]
        rfl
      · rw [Function.update_of_ne hkey] at he
        cases he
    · rintro rfl
      exact ⟨record.type, record.id, _, Function.update_self .., rfl⟩
  obtain ⟨r, rfl, hr⟩ := map_eq_singleton_iff.mp hview
  obtain ⟨type, id, value, tags⟩ := r
  simp only [WalletRecord.view, ExportRecord.view, fullRecord, Record.mk.injEq,
    htags, AList.lookup_empty] at hr
  obtain ⟨rfl, rfl, rfl, hr⟩ := hr
  obtain ⟨tags, rfl, hnone⟩ := map_eq_some_iff.mp hr
  rw [hget, eq_empty_of_lookup (congrFun hnone)]

theorem long_record_lost {k : ℕ} (h : 2 ^ 32 ≤ k + 11) : ∃ file,
    exportContinue (packedCrates (repeatedRecord k)) paddedCrypto zeroKeys .inserted
        (singleDb paddedCrypto (repeatedRecord k)) 0 zeroKey
        (.raw rawPassphrase) zeroNonce 0 = .ok file ∧
      ¬ Restores (packedCrates (repeatedRecord k)) paddedCrypto zeroKeys .inserted true
        (fun _ => zeroRandomness) [] file rawPassphrase
        [⟨some "t", "n", some (repeatedRecord k).value, some ∅⟩] := by
  have hrecords : getAll paddedCrypto zeroKeys .inserted
    (singleDb paddedCrypto (repeatedRecord k)) =
      .ok [⟨some "t", "n", some (repeatedRecord k).value, some ∅⟩] := getAll_singleDb rfl
  have hpacked : exportRecord (packedCrates (repeatedRecord k))
      ⟨some "t", "n", some (repeatedRecord k).value, some ∅⟩ =
        .ok (packRecord (repeatedRecord k)) := by
    change ofOption _ ((packedCrates (repeatedRecord k)).recordToVec (repeatedRecord k)) = _
    have hencode : (packedCrates (repeatedRecord k)).recordToVec (repeatedRecord k) =
        some (packRecord (repeatedRecord k)) := if_pos rfl
    rw [hencode]
    rfl
  have hheader : (packedCrates (repeatedRecord k)).headerToVec rawHeader =
      some packedRawHeader := by
    change (if rawHeader = rawHeader then some packedRawHeader else none) = _
    exact if_pos rfl
  have hencoded : ∀ record ∈ ([⟨some "t", "n", some (repeatedRecord k).value, some ∅⟩] :
      List WalletRecord), ∃ bytes, exportRecord (packedCrates (repeatedRecord k)) record =
        .ok bytes := by
    intro record hmem
    rw [mem_singleton.mp hmem]
    exact ⟨_, hpacked⟩
  obtain ⟨file, hexport⟩ : ∃ file, exportContinue (packedCrates (repeatedRecord k)) paddedCrypto
      zeroKeys .inserted (singleDb paddedCrypto (repeatedRecord k)) 0 zeroKey
        (.raw rawPassphrase) zeroNonce 0 =
        .ok file := exists_exportWith hheader hrecords hencoded
  refine ⟨file, hexport, ?_⟩
  intro hrestores
  have hlt := (restores_iff (packedCrates_lawful (repeatedRecord k)) paddedCrypto_lengths
    (by decide) (by decide) (singleDb_represents _ _) (packedCrates_key _) hexport hrecords true
    (fun _ => zeroRandomness) []).mp hrestores _ (mem_singleton_self _) _ hpacked
  rw [length_packRecord_repeated (by omega)] at hlt
  omega

/-- A record whose value has 4294967285 letters is encoded in exactly four gigabytes, and its file
does not bring it back. -/
theorem longRecord_not_restored : ∃ file,
    exportContinue (packedCrates (repeatedRecord 4294967285)) paddedCrypto zeroKeys .inserted
        (singleDb paddedCrypto (repeatedRecord 4294967285)) 0 zeroKey
        (.raw rawPassphrase) zeroNonce 0 =
        .ok file ∧
      ¬ Restores (packedCrates (repeatedRecord 4294967285)) paddedCrypto zeroKeys .inserted true
        (fun _ => zeroRandomness) [] file rawPassphrase
        [⟨some "t", "n", some (repeatedRecord 4294967285).value, some ∅⟩] :=
  long_record_lost (by norm_num)

end IndySdk.Wallet
