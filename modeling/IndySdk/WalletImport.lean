import IndySdk.ExportStream

/-!
# Importing an exported wallet

An import into a new wallet adds records under row ids that have no tags, so it stores what it
reads. Whether it reads everything that was exported depends on the lengths of the encoded records
alone, since a length that takes more than four bytes is written without its high part.
-/

namespace IndySdk.Wallet

open Outcome LittleEndian SQLiteStorage RecordMap Function List
open ChunkedStream
open Chacha20Poly1305Ietf (Reader SealLengths Writer increment sealing tagBytes)

variable {crates : ExportCrates} {wc : WalletCrypto} {keys : Keys} {order : IterationOrder}
  {m : RecordMap}

/-! ### Wallets that records are added to -/

theorem RecordMap.Lists.insert {l : List Record} (h : RecordMap.Lists l m) {type name : String}
    (hnone : m (type, name) = none) (e : Entry) :
    RecordMap.Lists (l ++ [fullRecord type name e])
      (Function.update m (type, name) (some e)) := by
  constructor
  · refine nodup_append.mpr ⟨h.1, nodup_singleton _, ?_⟩
    rintro r hr r' hr' rfl
    rw [mem_singleton.mp hr'] at hr
    obtain ⟨type', name', e', he', hrecord⟩ := (h.2 _).mp hr
    obtain ⟨rfl, rfl⟩ := fullRecord_inj hrecord
    rw [hnone] at he'
    cases he'
  · intro r
    rw [mem_append, mem_singleton, h.2]
    constructor
    · rintro (⟨type', name', e', he', rfl⟩ | rfl)
      · refine ⟨type', name', e', ?_, rfl⟩
        rw [update_of_ne, he']
        intro hkey
        rw [hkey, hnone] at he'
        cases he'
      · exact ⟨type, name, e, update_self .., rfl⟩
    · rintro ⟨type', name', e', he', rfl⟩
      by_cases hkey : (type', name') = (type, name)
      · cases hkey
        rw [update_self] at he'
        cases he'
        exact .inr rfl
      · rw [update_of_ne hkey] at he'
        exact .inl ⟨type', name', e', he', rfl⟩

theorem RecordMap.Lists.pairwise {l : List Record} (h : RecordMap.Lists l m) :
    l.Pairwise (fun r s => (r.type, r.id) ≠ (s.type, s.id)) := by
  refine h.1.imp_of_mem ?_
  intro r s hr hs hne heq
  obtain ⟨type, name, e, he, rfl⟩ := (h.2 r).mp hr
  obtain ⟨type', name', e', he', rfl⟩ := (h.2 s).mp hs
  simp only [fullRecord, Prod.mk.injEq, Option.some.injEq] at heq
  obtain ⟨rfl, rfl⟩ := heq
  rw [he] at he'
  cases he'
  exact hne rfl

/-- Every stored tag belongs to a stored item. -/
def TagsOfItems (db : Db) : Prop :=
  ∀ j tag, db.tags.Holds j tag → ∃ r ∈ db.items.rows, r.id = j

theorem TagsOfItems.nextRowFree {db : Db} (h : TagsOfItems db) : NextRowFree db := by
  intro tag htag
  obtain ⟨r, hr, hid⟩ := h _ tag htag
  exact rowIdOf_ne hr hid

theorem tagsOfItems_create (metadata : Bytes) : TagsOfItems (Store.create metadata).db := by
  intro j tag htag
  cases tag <;> cases htag

theorem add_fresh {db : Db} (h : Represents wc keys db m) (hitems : TagsOfItems db)
    {type name : String} (hnone : m (type, name) = none) (value : String)
    (tags : AssocMap String String) (random : ValueRandomness) :
    ∃ db', add wc keys type name value tags random db = (.ok (), db') ∧
      Represents wc keys db' (Function.update m (type, name)
        (some ⟨value, fun n => tags.lookup n⟩)) ∧ TagsOfItems db' := by
  have hfree := hitems.nextRowFree
  have hs : TagsAre wc keys db.tags (rowIdOf db) (fun _ => none) := by
    intro tag
    refine ⟨fun htag => absurd htag (hfree tag), ?_⟩
    rintro ⟨n, v, hn, -⟩
    cases hn
  obtain ⟨⟨n, hn, -⟩, -⟩ | ⟨-, db', hadd, hrep⟩ := add_cases h hnone hs value tags random
  · cases hn
  · refine ⟨db', hadd, ?_, ?_⟩
    · have hoverlay : overlay (fun n => tags.lookup n) (fun _ => none) =
          fun n => tags.lookup n := funext (fun n => Option.or_none)
      rwa [hoverlay] at hrep
    · obtain ⟨items, hrows, hstored⟩ := add_of_none (h.selectItem_of_none hnone)
        (EncryptedValue.encrypt wc value keys.valueKey random) (encryptTags wc keys tags)
      rw [add, hstored] at hadd
      obtain ht | ⟨tables, ht⟩ := TagTables.insertTags_cases db.tags (rowIdOf db)
        (encryptTags wc keys tags)
      · rw [ht] at hadd
        cases hadd
      · rw [ht] at hadd
        cases hadd
        intro j tag htag
        rw [hrows]
        obtain hold | ⟨rfl, -⟩ := ((TagTables.insertTags_ok ht).1 j tag).mp htag
        · obtain ⟨r, hr, hid⟩ := hitems j tag hold
          exact ⟨r, mem_append_left _ hr, hid⟩
        · exact ⟨_, mem_append_right _ (mem_singleton_self _), rfl⟩

/-- Records under new keys are all stored. -/
theorem addAll_fresh (random : ℕ → ValueRandomness) {records : List ExportRecord}
    (hkeys : (records.map ExportRecord.view).Pairwise
      (fun r s => (r.type, r.id) ≠ (s.type, s.id)))
    {db : Db} {m : RecordMap} {l : List Record} (h : Represents wc keys db m)
    (hitems : TagsOfItems db) (hlists : RecordMap.Lists l m)
    (hnew : ∀ r ∈ records, m (r.type, r.id) = none) (added : ℕ) :
    ∃ db' m', addAll wc keys random added records db = (.ok (), db') ∧ Represents wc keys db' m' ∧
      RecordMap.Lists (l ++ records.map ExportRecord.view) m' := by
  induction records generalizing db m l added with
  | nil =>
    refine ⟨db, m, rfl, h, ?_⟩
    rw [map_nil, append_nil]
    exact hlists
  | cons record records ih =>
    rw [map_cons] at hkeys
    obtain ⟨hne, hkeys⟩ := pairwise_cons.mp hkeys
    have hnone := hnew record mem_cons_self
    obtain ⟨db₁, hadd, hrep, hitems₁⟩ :=
      add_fresh h hitems hnone record.value record.tags (random added)
    have hnew₁ : ∀ r ∈ records, Function.update m (record.type, record.id)
        (some ⟨record.value, fun n => record.tags.lookup n⟩) (r.type, r.id) = none := by
      intro r hr
      rw [update_of_ne]
      · exact hnew r (mem_cons_of_mem _ hr)
      · intro heq
        obtain ⟨htype, hid⟩ := Prod.mk.inj heq
        refine hne r.view (mem_map_of_mem hr) ?_
        rw [ExportRecord.view, ExportRecord.view, htype, hid]
        rfl
    obtain ⟨db', m', hall, hrep', hlists'⟩ :=
      ih hkeys hrep hitems₁ (hlists.insert hnone _) hnew₁ (added + 1)
    refine ⟨db', m', ?_, hrep', ?_⟩
    · rw [addAll, hadd]
      exact hall
    · rw [append_assoc] at hlists'
      exact hlists'

theorem addAll_create (metadata : Bytes) (random : ℕ → ValueRandomness)
    {records : List ExportRecord}
    (hkeys : (records.map ExportRecord.view).Pairwise
      (fun r s => (r.type, r.id) ≠ (s.type, s.id))) :
    ∃ db' l, addAll wc keys random 0 records (Store.create metadata).db = (.ok (), db') ∧
      getAll wc keys order db' = .ok l ∧
      (l.map WalletRecord.view).Perm (records.map ExportRecord.view) := by
  have hempty : RecordMap.Lists [] empty := by
    refine ⟨nodup_nil, fun r => ⟨fun hr => absurd hr not_mem_nil, ?_⟩⟩
    rintro ⟨type, name, e, he, -⟩
    cases he
  obtain ⟨db', m', hall, hrep, hlists⟩ := addAll_fresh random hkeys
    (represents_create metadata) (tagsOfItems_create metadata) hempty (fun _ _ => rfl) 0
  obtain ⟨l, hget, hl⟩ := @getAll_lists _ _ order _ _ hrep
  refine ⟨db', l, hall, hget, ?_⟩
  rw [nil_append] at hlists
  refine (perm_ext_iff_of_nodup hl.1 hlists.1).mpr ?_
  intro r
  rw [hl.2, hlists.2]

/-! ### Files that were exported -/

theorem encodes_of_exportRecord {record : WalletRecord} {bytes : Bytes}
    (h : exportRecord crates record = .ok bytes) : Encodes crates bytes record.view := by
  obtain ⟨type, htype, h⟩ := bind_eq_ok_iff.mp h
  obtain ⟨value, hvalue, h⟩ := bind_eq_ok_iff.mp h
  obtain ⟨tags, htags, h⟩ := bind_eq_ok_iff.mp h
  refine ⟨_, ofOption_eq_ok.mp h, ?_⟩
  rw [WalletRecord.view, ofOption_eq_ok.mp htype, ofOption_eq_ok.mp hvalue,
    ofOption_eq_ok.mp htags]
  rfl

/-- The encodings that are written for some records. -/
def Exported (crates : ExportCrates) (records : List WalletRecord) (encodings : List Bytes) :
    Prop :=
  List.Forall₂ (fun record bytes => exportRecord crates record = .ok bytes) records encodings

theorem Exported.encodes {records : List WalletRecord} {encodings : List Bytes}
    (h : Exported crates records encodings) :
    List.Forall₂ (Encodes crates) encodings (records.map WalletRecord.view) := by
  rw [List.forall₂_map_right_iff]
  exact (h.imp (fun _ _ => encodes_of_exportRecord)).flip

theorem writeFrame_given {front : Bytes} {start : Nonce} {w : Writer} {data : Bytes}
    (h : w.Given wc front start data) (bytes : Bytes) :
    (writeFrame wc w bytes).Given wc front start (data ++ frame bytes) ∧
      (writeFrame wc w bytes).chunkSize = w.chunkSize ∧ (writeFrame wc w bytes).key = w.key := by
  obtain ⟨hlength, hsize, hkey⟩ := Writer.given_write h (encode 4 bytes.length)
  obtain ⟨hbytes, hsize', hkey'⟩ := Writer.given_write hlength bytes
  rw [append_assoc] at hbytes
  exact ⟨hbytes, hsize'.trans hsize, hkey'.trans hkey⟩

theorem writeRecords_given {front : Bytes} {start : Nonce} {stored : List StorageRecord}
    {w w' : Writer} {data : Bytes} (h : w.Given wc front start data)
    (hwrite : writeRecords crates wc keys w stored = .ok w') :
    ∃ records encodings, stored.mapM (decryptStorageRecord wc keys) = .ok records ∧
      Exported crates records encodings ∧
      w'.Given wc front start (data ++ encodings.flatMap frame) ∧
      w'.chunkSize = w.chunkSize ∧ w'.key = w.key := by
  induction stored generalizing w data with
  | nil =>
    cases hwrite
    refine ⟨[], [], rfl, .nil, ?_, rfl, rfl⟩
    rw [flatMap_nil, append_nil]
    exact h
  | cons first stored ih =>
    obtain ⟨record, hrecord, hwrite⟩ := bind_eq_ok_iff.mp hwrite
    obtain ⟨bytes, hbytes, hwrite⟩ := bind_eq_ok_iff.mp hwrite
    obtain ⟨hframe, hsize, hkey⟩ := writeFrame_given h bytes
    obtain ⟨records, encodings, hrecords, hexported, hgiven, hsize', hkey'⟩ := ih hframe hwrite
    refine ⟨record :: records, bytes :: encodings, ?_, .cons hbytes hexported, ?_,
      hsize'.trans hsize, hkey'.trans hkey⟩
    · rw [mapM_cons, hrecord, ok_bind, hrecords]
      rfl
    · rw [flatMap_cons, ← append_assoc]
      exact hgiven

variable {keyData : KeyDerivationData crates.saltBytes} {nonce : Nonce}

theorem exportWith_spec {n version time : ℕ} (hn : 0 < n) {db : Db} {key : Key} {file : Bytes}
    (h : exportWith crates wc keys order n db version key keyData nonce time = .ok file) :
    ∃ header records encodings chunks,
      crates.headerToVec ⟨keyData.encryptionMethod nonce n, time, version⟩ = some header ∧
      getAll wc keys order db = .ok records ∧ Exported crates records encodings ∧
      Cut n chunks ∧ chunks.flatten = crates.hash header ++ stream encodings ∧
      file = encode 4 header.length ++ header ++
        sealAll (sealing wc key) increment nonce chunks := by
  obtain ⟨header, hheader, h⟩ := bind_eq_ok_iff.mp h
  obtain ⟨writer, hwriter, h⟩ := bind_eq_ok_iff.mp h
  obtain rfl := Outcome.ok.inj h
  have hnew : (Writer.new (encode 4 header.length ++ header) key nonce n).Given wc
      (encode 4 header.length ++ header) nonce [] := Writer.given_new hn
  obtain ⟨hstart, hsize, hkey⟩ := Writer.given_write hnew (crates.hash header)
  obtain ⟨records, encodings, hrecords, hexported, hgiven, hsize', hkey'⟩ :=
    writeRecords_given hstart hwriter
  obtain ⟨hend, hsize'', hkey''⟩ := Writer.given_write hgiven (encode 4 0)
  obtain ⟨chunks, hcut, hflatten, hinner⟩ := Writer.flush_inner hend
  rw [hsize'', hsize', hsize] at hcut
  rw [hkey'', hkey', hkey] at hinner
  refine ⟨header, records, encodings, chunks, ofOption_eq_ok.mp hheader, hrecords,
    hexported, hcut, ?_, hinner⟩
  rw [hflatten, nil_append, append_assoc]
  rfl

/-! ### Imports of exported files -/

theorem importKeyDerivationData_encryptionMethod {saltSize : ℕ}
    (keyData : KeyDerivationData saltSize) (nonce : Nonce) (n : ℕ) :
    importKeyDerivationData keyData.passphrase (keyData.encryptionMethod nonce n) =
      .ok (keyData, nonce, n) := by
  have hnonce : Nonce.fromSlice nonce.bytes = .ok nonce := dif_pos nonce.length_eq
  have hsalt : ∀ salt : Salt saltSize, Salt.fromSlice salt.bytes = .ok salt :=
    fun salt => dif_pos salt.length_eq
  cases keyData with
  | raw passphrase =>
    simp only [importKeyDerivationData, KeyDerivationData.encryptionMethod, hnonce, toIndy,
      ok_bind, KeyDerivationData.passphrase, Outcome.pure_eq_ok]
  | argon2iMod passphrase salt =>
    simp only [importKeyDerivationData, KeyDerivationData.encryptionMethod, hnonce, hsalt, toIndy,
      ok_bind, KeyDerivationData.passphrase, Outcome.pure_eq_ok,
      EncryptionMethod.keyDerivationMethod, saltedKeyData]
  | argon2iInt passphrase salt =>
    simp only [importKeyDerivationData, KeyDerivationData.encryptionMethod, hnonce, hsalt, toIndy,
      ok_bind, KeyDerivationData.passphrase, Outcome.pure_eq_ok,
      EncryptionMethod.keyDerivationMethod, saltedKeyData]

theorem readExact_append (first rest : Bytes) :
    readExact first.length (first ++ rest) = .ok (first, rest) := by
  rw [readExact, if_pos (by rw [length_append]; exact Nat.le_add_right _ _), take_left,
    drop_left]

/-- The plaintext part of an exported file. -/
def front (header : Bytes) : Bytes := encode 4 header.length ++ header

theorem preparse_front (hlaws : crates.Lawful) {n time : ℕ} {header : Bytes}
    (h : crates.headerToVec ⟨keyData.encryptionMethod nonce n, time, 0⟩ = some header)
    (rest : Bytes) :
    preparseFileToImport crates (front header ++ rest) keyData.passphrase =
      .ok ⟨rest, keyData, nonce, n, header⟩ := by
  obtain ⟨hdecode, hne, hlt⟩ := hlaws.header _ _ h
  have hvalue : value (encode 4 header.length) = header.length := by
    rw [value_encode, Nat.mod_eq_of_lt hlt]
  have hpos : header.length ≠ 0 := by
    rw [Ne, length_eq_zero_iff]
    exact hne
  have hfour := readExact_append (encode 4 header.length) (header ++ rest)
  rw [length_encode] at hfour
  rw [preparseFileToImport, front, append_assoc, mapIoErr_eq_ok.mpr hfour, ok_bind]
  dsimp only
  rw [hvalue, if_neg hpos, mapIoErr_eq_ok.mpr (readExact_append header rest), ok_bind]
  dsimp only
  rw [hdecode, ofOption_some, ok_bind]
  dsimp only
  rw [if_neg (by decide), importKeyDerivationData_encryptionMethod, ok_bind]
  rfl

theorem importFile_of_yields (hlengths : SealLengths wc) (hlaws : crates.Lawful) {n time : ℕ}
    {header : Bytes}
    (hheader : crates.headerToVec ⟨keyData.encryptionMethod nonce n, time, 0⟩ = some header)
    {key : Key} (hkey : keyData.calcMasterKey crates = .ok key) (hsize : n + tagBytes < 2 ^ 63)
    {chunks : List Bytes} {extra pending : Bytes} (hcut : Cut n chunks)
    (hclosed : extra = [] ∨ Full n chunks)
    (hflatten : chunks.flatten = crates.hash header ++ pending) (keys' : Keys)
    (overflowChecks : Bool) (random : ℕ → ValueRandomness) (db : Db) :
    ∃ r : Reader, r.Yields wc n extra pending ∧
      importFile crates wc keys' overflowChecks random
        (front header ++ (sealAll (sealing wc key) increment nonce chunks ++ extra))
        keyData.passphrase db = readRecords crates wc keys' random r 0 db := by
  have hnew : Reader.Yields wc n extra ⟨[], n + tagBytes, key, nonce,
      sealAll (sealing wc key) increment nonce chunks ++ extra⟩ chunks.flatten :=
    Reader.yields_new hcut hclosed
  rw [hflatten] at hnew
  obtain ⟨r, hread, hyields⟩ := read_append hlengths hnew
  rw [crates.length_hash] at hread
  refine ⟨r, hyields, ?_⟩
  have hopen : openStream crates wc overflowChecks key
      ⟨sealAll (sealing wc key) increment nonce chunks ++ extra, keyData, nonce, n, header⟩ =
        .ok r := by
    rw [openStream, Reader.new_eq_ok hsize, ok_bind, mapIoErr_eq_ok.mpr hread,
      ok_bind]
    exact if_neg (not_not.mpr rfl)
  rw [importFile, preparse_front hlaws hheader]
  dsimp only
  rw [hkey]
  dsimp only
  rw [finishImport, hopen]

end IndySdk.Wallet
