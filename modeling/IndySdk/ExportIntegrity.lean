import IndySdk.WalletRoundTrip

/-!
# Export files that were changed

An import accepts a file other than the exported one exactly when the file goes on as the exported
one up to the end of the chunk with the zero length, and that chunk is full: whatever stands behind
a full chunk is not read. That the sealed chunks cannot be forged enters as an assumption on the
file that is imported.
-/

namespace IndySdk.Wallet

open ChunkedStream List
open Chacha20Poly1305Ietf (Reader SealLengths increment sealing tagBytes)

variable {crates : ExportCrates} {wc : WalletCrypto} {keys keys' : Keys} {order : IterationOrder}

/-- The end of the chunk up to which an import reads: `length` bytes behind the hash. -/
def endOfRead (header : Bytes) (n length : ℕ) : ℕ :=
  (front header).length + (hashBytes + length + (n - 1)) / n * (n + tagBytes)

/-- What authenticated encryption promises of a file for the holder of a passphrase: a piece of it
that opens under the key that the file names is a chunk of the exported plaintext under its own
nonce, no nonce being used twice; another header names another key, or its hash is not in the
exported plaintext. -/
structure Unforged (crates : ExportCrates) (wc : WalletCrypto) (n : ℕ) (key : Key) (nonce : Nonce)
    (header plaintext : Bytes) (passphrase : String) (file : Bytes) : Prop where
  nonces : (plaintext.length + (n - 1)) / n < 256 ^ nonceBytes
  opens : ∀ p key', preparseFileToImport crates file passphrase = .ok p →
    p.keyData.calcMasterKey crates = .ok key' → ∀ cipher nonce' data, cipher <:+: p.reader →
    wc.decrypt cipher key' nonce' = some data → key' = key ∧ ∃ j, n * j < plaintext.length ∧
      data = (plaintext.drop (n * j)).take n ∧ nonce' = increment^[j] nonce ∧
      cipher = wc.encrypt data key' nonce'
  header : ∀ p key', preparseFileToImport crates file passphrase = .ok p →
    p.keyData.calcMasterKey crates = .ok key' → p.headerBytes ≠ header →
    key' ≠ key ∨ ¬ crates.hash p.headerBytes <:+: plaintext

/-! ### What is read of a file -/

theorem readExact_eq_ok {length : ℕ} {input first rest : Bytes}
    (h : readExact length input = .ok (first, rest)) :
    input = first ++ rest ∧ first.length = length := by
  rw [readExact] at h
  split at h
  · rename_i hle
    cases h
    exact ⟨(take_append_drop _ _).symm, length_take_of_le hle⟩
  · cases h

theorem preparse_eq_ok {file : Bytes} {passphrase : String} {p : Preparsed crates.saltBytes}
    (h : preparseFileToImport crates file passphrase = .ok p) :
    ∃ header, crates.headerFromSlice p.headerBytes = some header ∧
      file = front p.headerBytes ++ p.reader ∧
      importKeyDerivationData passphrase header.encryptionMethod =
        .ok (p.keyData, p.nonce, p.chunkSize) := by
  obtain ⟨⟨length, rest⟩, hlength, hbody⟩ := Outcome.bind_eq_ok_iff.mp h
  obtain ⟨hfile, hfour⟩ := readExact_eq_ok (mapIoErr_eq_ok.mp hlength)
  dsimp only at hbody
  split at hbody
  · cases hbody
  · obtain ⟨⟨headerBytes, reader⟩, hheader, hbody⟩ := Outcome.bind_eq_ok_iff.mp hbody
    obtain ⟨hrest, hcount⟩ := readExact_eq_ok (mapIoErr_eq_ok.mp hheader)
    obtain ⟨header, hdecode, hbody⟩ := Outcome.bind_eq_ok_iff.mp hbody
    split at hbody
    · cases hbody
    · obtain ⟨⟨keyData, nonce, chunkSize⟩, hdata, hbody⟩ := Outcome.bind_eq_ok_iff.mp hbody
      cases hbody
      refine ⟨header, Outcome.ofOption_eq_ok.mp hdecode, ?_, hdata⟩
      have hencoded := LittleEndian.encode_value length
      rw [hfour, ← hcount] at hencoded
      rw [hfile, hrest, front, hencoded, append_assoc]

/-- An import that succeeds has opened the stream and read the records. -/
theorem importFile_eq_ok {overflowChecks : Bool} {random : ℕ → ValueRandomness} {file : Bytes}
    {passphrase : String} {db : Db}
    (h : (importFile crates wc keys overflowChecks random file passphrase db).1 = .ok ()) :
    ∃ p key r, preparseFileToImport crates file passphrase = .ok p ∧
      p.keyData.calcMasterKey crates = .ok key ∧
      openStream crates wc overflowChecks key p = .ok r ∧
      (readRecords crates wc keys random r 0 db).1 = .ok () := by
  rw [importFile] at h
  cases hp : preparseFileToImport crates file passphrase with
  | err e =>
    rw [hp] at h
    cases h
  | panic =>
    rw [hp] at h
    cases h
  | ok p =>
    rw [hp] at h
    dsimp only at h
    cases hkey : p.keyData.calcMasterKey crates with
    | err e =>
      rw [hkey] at h
      cases h
    | panic =>
      rw [hkey] at h
      cases h
    | ok key =>
      rw [hkey] at h
      dsimp only at h
      rw [finishImport] at h
      cases hopen : openStream crates wc overflowChecks key p with
      | err e =>
        rw [hopen] at h
        cases h
      | panic =>
        rw [hopen] at h
        cases h
      | ok r =>
        rw [hopen] at h
        exact ⟨p, key, r, rfl, hkey, hopen, h⟩

theorem openStream_eq_ok {overflowChecks : Bool} {key : Key} {p : Preparsed crates.saltBytes}
    {r : Reader} (h : openStream crates wc overflowChecks key p = .ok r) :
    ∃ r₀ : Reader, (Reader.new overflowChecks p.reader key p.nonce p.chunkSize :
        IndyResult Reader) = .ok r₀ ∧
      r₀.read wc hashBytes = .ok (crates.hash p.headerBytes, r) := by
  obtain ⟨r₀, hnew, h⟩ := Outcome.bind_eq_ok_iff.mp h
  obtain ⟨⟨headerHash, r₁⟩, hread, h⟩ := Outcome.bind_eq_ok_iff.mp h
  dsimp only at h
  split at h
  · cases h
  · rename_i heq
    cases h
    refine ⟨r₀, hnew, ?_⟩
    rw [not_not.mp heq]
    exact mapIoErr_eq_ok.mp hread

variable {n : ℕ} {key : Key} {nonce : Nonce} {header plaintext : Bytes} {passphrase : String}
  {file : Bytes} {chunks : List Bytes}

theorem Unforged.opensOnly (h : Unforged crates wc n key nonce header plaintext passphrase file)
    (hcut : Cut n chunks) (hflatten : chunks.flatten = plaintext)
    {p : Preparsed crates.saltBytes} {key' : Key}
    (hp : preparseFileToImport crates file passphrase = .ok p)
    (hkey : p.keyData.calcMasterKey crates = .ok key') :
    Reader.OpensOnly wc key' nonce chunks p.reader ∧
      (key' ≠ key → Reader.OpensOnly wc key' nonce [] p.reader) := by
  constructor
  · intro cipher nonce' data hcipher hopen
    obtain ⟨-, j, hj, rfl, hnonce, hsealed⟩ :=
      h.opens p key' hp hkey cipher nonce' data hcipher hopen
    subst hflatten
    exact ⟨j, hcut.getElem?_of_lt hj, hnonce, hsealed⟩
  · intro hne cipher nonce' data hcipher hopen
    exact absurd (h.opens p key' hp hkey cipher nonce' data hcipher hopen).1 hne

/-- A stream is only opened for the header that was exported. -/
theorem Unforged.headerBytes_eq (hn : 0 < n)
    (h : Unforged crates wc n key nonce header plaintext passphrase file) (hcut : Cut n chunks)
    (hflatten : chunks.flatten = plaintext) {p : Preparsed crates.saltBytes} {key' : Key}
    {overflowChecks : Bool} {r : Reader}
    (hp : preparseFileToImport crates file passphrase = .ok p)
    (hkey : p.keyData.calcMasterKey crates = .ok key')
    (hopen : openStream crates wc overflowChecks key' p = .ok r) : p.headerBytes = header := by
  by_contra hne
  obtain ⟨r₀, hnew, hread⟩ := openStream_eq_ok hopen
  obtain ⟨hrest, hkey₀, -, hinner⟩ := Reader.new_fields hnew
  obtain ⟨⟨more, last⟩, hfill, hdone⟩ := Outcome.bind_eq_ok_iff.mp hread
  rw [hrest, drop_nil] at hfill
  rw [hrest] at hdone
  have hmore : more = crates.hash p.headerBytes := by
    cases hdone
    rfl
  have hnonempty : more ≠ [] := by
    intro hnil
    have hlength := crates.length_hash p.headerBytes
    rw [← hmore, hnil] at hlength
    cases hlength
  obtain ⟨hopens, hother⟩ := h.opensOnly hcut hflatten hp hkey
  have hsuffix : r₀.inner <:+ p.reader := by
    rw [hinner]
  have hfew : chunks.length < 256 ^ nonceBytes := by
    rw [← hcut.length_eq hn, hflatten]
    exact h.nonces
  have hinfix : ∀ chunks : List Bytes, chunks.length < 256 ^ nonceBytes →
      Reader.OpensOnly wc key' nonce chunks p.reader →
      ∃ j < chunks.length, more <+: (chunks.drop j).flatten := by
    intro chunks hfew hopens
    rw [← hkey₀] at hopens
    obtain hnil | ⟨j, hj, -, hprefix⟩ :=
      Reader.fill_prefix (r := { r₀ with restBuffer := [] }) hfew hopens hsuffix hfill
    · exact absurd hnil hnonempty
    · exact ⟨j, hj, hprefix⟩
  obtain hkeyne | hhash := h.header p key' hp hkey hne
  · obtain ⟨j, hj, -⟩ := hinfix [] (by decide) (hother hkeyne)
    cases hj
  · obtain ⟨j, -, hprefix⟩ := hinfix chunks hfew hopens
    refine hhash ?_
    rw [← hmore, ← hflatten, ← take_append_drop j chunks, flatten_append]
    exact hprefix.isInfix.trans (suffix_append _ _).isInfix

/-! ### Which files are accepted -/

/-- An import that succeeds has read chunks of the exported file, up to the zero length. -/
theorem accepted_of_import (hlaws : crates.Lawful) (hlengths : SealLengths wc) (hn : 0 < n)
    (hsize : n + tagBytes < 2 ^ 63) {keyData : KeyDerivationData crates.saltBytes} {time : ℕ}
    (hheader : crates.headerToVec ⟨keyData.encryptionMethod nonce n, time, 0⟩ = some header)
    (hkey : keyData.calcMasterKey crates = .ok key) {encodings : List Bytes} {views : List Record}
    (hencodes : List.Forall₂ (Encodes crates) encodings views) (hcut : Cut n chunks)
    (hflatten : chunks.flatten = crates.hash header ++ stream encodings)
    (hunforged : Unforged crates wc n key nonce header (crates.hash header ++ stream encodings)
      keyData.passphrase file)
    {overflowChecks : Bool} {random : ℕ → ValueRandomness} {db : Db}
    (himport : (importFile crates wc keys overflowChecks random file keyData.passphrase db).1 =
      .ok ()) :
    ∃ length i inner, readLength encodings = some length ∧
      (hashBytes + length + (n - 1)) / n = i ∧ i ≤ chunks.length ∧
      file = front header ++
        (sealAll (sealing wc key) increment nonce (chunks.take i) ++ inner) ∧
      (inner = [] ∨ Full n (chunks.take i)) := by
  obtain ⟨p, key', r, hp, hkey', hopen, hread⟩ := importFile_eq_ok himport
  obtain ⟨header', hdecode, hfile, hdata⟩ := preparse_eq_ok hp
  have hbytes := hunforged.headerBytes_eq hn hcut hflatten hp hkey' hopen
  rw [hbytes, (hlaws.header _ _ hheader).1] at hdecode
  obtain rfl := Option.some.inj hdecode
  rw [importKeyDerivationData_encryptionMethod] at hdata
  obtain ⟨reader, keyData', nonce', chunkSize', headerBytes⟩ := p
  simp only [Outcome.ok.injEq, Prod.mk.injEq] at hdata
  obtain ⟨rfl, rfl, rfl⟩ := hdata
  dsimp only at hbytes hfile
  subst hbytes
  rw [hkey] at hkey'
  obtain rfl := Outcome.ok.inj hkey'
  have hopens := (hunforged.opensOnly hcut hflatten hp hkey).1
  have hfew : chunks.length < 256 ^ nonceBytes := by
    rw [← hcut.length_eq hn, hflatten]
    exact hunforged.nonces
  obtain ⟨r₀, hnew, hhash⟩ := openStream_eq_ok hopen
  rw [Reader.new_eq_ok hsize] at hnew
  obtain rfl := Outcome.ok.inj hnew
  have hstart : Reader.Follows wc n key nonce chunks reader ⟨[], n + tagBytes, key, nonce, reader⟩
      chunks.flatten := Reader.follows_new
  obtain ⟨-, -, hfollows⟩ := hstart.read hlengths hfew hopens hhash
  rw [hflatten, drop_left' (crates.length_hash headerBytes)] at hfollows
  cases hdone : readRecords crates wc keys random r 0 db with
  | mk result db' =>
    rw [hdone] at hread
    obtain rfl : result = .ok () := hread
    obtain ⟨data, records, rest, r', hsplit, hdata, -, hkey', i, hbehind, hpending⟩ :=
      framed_of_readRecords hlengths hfew hopens hfollows hdone
    have hlength := (framed_stream hlaws hencodes hsplit hdata).1
    refine ⟨data.length, i, r'.inner, hlength, ?_, hbehind.le, ?_, hbehind.closed⟩
    · refine hbehind.count hcut ?_
      have htotal := congrArg List.length hflatten
      have hboth : (chunks.take i).flatten.length + (chunks.drop i).flatten.length =
          chunks.flatten.length := by
        rw [← length_append, ← flatten_append, take_append_drop]
      rw [hsplit, hpending, length_append, length_append, length_append,
        crates.length_hash] at htotal
      omega
    · have hinput := hbehind.input
      rw [hkey'] at hinput
      exact hfile.trans (congrArg _ hinput)

theorem import_of_accepted (hlaws : crates.Lawful) (hlengths : SealLengths wc)
    (hsize : n + tagBytes < 2 ^ 63) {keyData : KeyDerivationData crates.saltBytes} {time : ℕ}
    (hheader : crates.headerToVec ⟨keyData.encryptionMethod nonce n, time, 0⟩ = some header)
    (hkey : keyData.calcMasterKey crates = .ok key) {encodings : List Bytes} {views : List Record}
    (hencodes : List.Forall₂ (Encodes crates) encodings views)
    (hkeys : views.Pairwise (fun r s => (r.type, r.id) ≠ (s.type, s.id))) {length : ℕ}
    (hlength : readLength encodings = some length) {extra behind : Bytes} (hcut : Cut n chunks)
    (hclosed : extra = [] ∨ Full n chunks)
    (hflatten : chunks.flatten ++ behind = crates.hash header ++ stream encodings)
    (henough : hashBytes + length ≤ chunks.flatten.length) (keys : Keys) (overflowChecks : Bool)
    (random : ℕ → ValueRandomness) (metadata : Bytes) :
    (importFile crates wc keys overflowChecks random
      (front header ++ (sealAll (sealing wc key) increment nonce chunks ++ extra))
      keyData.passphrase (Store.create metadata).db).1 = .ok () := by
  obtain ⟨data, records, rest, hsplit, hdata, rfl⟩ :=
    exists_framed_of_readLength hlaws hencodes hlength
  obtain ⟨-, hprefix, -⟩ := framed_stream hlaws hencodes hsplit hdata
  have hread : ∃ rest', chunks.flatten = crates.hash header ++ (data ++ rest') := by
    rw [hsplit, ← append_assoc] at hflatten
    have hpart : crates.hash header ++ data <+: chunks.flatten := by
      refine prefix_of_prefix_length_le (prefix_append _ rest) ?_ ?_
      · rw [← hflatten]
        exact prefix_append _ _
      · rw [length_append, crates.length_hash]
        exact henough
    obtain ⟨rest', hrest⟩ := hpart
    exact ⟨rest', by rw [← hrest, append_assoc]⟩
  obtain ⟨rest', hread⟩ := hread
  obtain ⟨r, hyields, himport⟩ := importFile_of_yields hlengths hlaws hheader hkey hsize hcut
    hclosed hread keys overflowChecks random (Store.create metadata).db
  obtain ⟨db', l, hall, -, -⟩ := @addAll_create wc keys .inserted metadata random records
    (hkeys.sublist hprefix.sublist)
  rw [himport, readRecords_of_framed hlengths random hdata hyields, hall]

theorem Exported.unique {records : List WalletRecord} {encodings encodings' : List Bytes}
    (h : Exported crates records encodings) (h' : Exported crates records encodings') :
    encodings = encodings' := by
  induction h generalizing encodings' with
  | nil =>
    cases h'
    rfl
  | cons hrecord _ ih =>
    cases h' with
    | cons hrecord' hothers =>
      rw [hrecord] at hrecord'
      rw [Outcome.ok.inj hrecord', ih hothers]

/-- A sealing function whose tags name the length of the text and the nonce. -/
def markedTag (nonce : Nonce) (length : ℕ) : Bytes :=
  0xab :: 0xcd :: (LittleEndian.encode 2 length ++ nonce.bytes)

theorem length_markedTag (nonce : Nonce) (length : ℕ) :
    (markedTag nonce length).length = tagBytes := by
  rw [markedTag, length_cons, length_cons, length_append,
    LittleEndian.length_encode, nonce.length_eq]
  rfl

def markedCrypto : WalletCrypto where
  encrypt := fun data _ nonce => data ++ markedTag nonce data.length
  decrypt := fun cipher _ nonce =>
    if cipher.drop (cipher.length - tagBytes) = markedTag nonce (cipher.length - tagBytes) then
      some (cipher.take (cipher.length - tagBytes))
    else none
  authenticate := fun _ _ => zeroTag
  decrypt_encrypt := by
    intro data key nonce
    rw [length_append, length_markedTag, Nat.add_sub_cancel, drop_left, take_left,
      if_pos rfl]

theorem markedCrypto_lengths : SealLengths markedCrypto := by
  intro data key nonce
  exact length_append.trans (congrArg _ (length_markedTag nonce data.length))

theorem ofText_replicate (k : ℕ) :
    Bytes.ofText (String.ofList (List.replicate k 'a')) = List.replicate k 0x61 := by
  induction k with
  | zero => rfl
  | succ k ih =>
    have hsplit : String.ofList (replicate (k + 1) 'a') =
        String.ofList ['a'] ++ String.ofList (List.replicate k 'a') := by
      rw [← String.ofList_append]
      rfl
    rw [hsplit, Bytes.ofText_append, ih]
    rfl

theorem exportRecord_packed (record : ExportRecord) :
    exportRecord (packedCrates record) ⟨some record.type, record.id, some record.value,
      some record.tags⟩ = .ok (packRecord record) := by
  change Outcome.ofOption _ (if _ then _ else _) = _
  rw [if_pos rfl]
  rfl

theorem packRecord_filled : packRecord (repeatedRecord 975) =
    0x94 :: 0xa1 :: 0x74 :: 0xa1 :: 0x6e :: 0xda :: 0x03 :: 0xcf ::
      (List.replicate 975 0x61 ++ [0x80]) := by
  have hvalue : packText (repeatedRecord 975).value =
      0xda :: 0x03 :: 0xcf :: List.replicate 975 0x61 := by
    rw [repeatedRecord, packText, ofText_replicate, length_replicate, if_neg (by decide),
      if_neg (by decide), if_pos (by decide)]
    rfl
  rw [packRecord, hvalue]
  rfl

/-- The plaintext of a file with one record, of a length that fills one chunk. -/
def filledPlaintext : Bytes := List.replicate 32 0 ++ stream [packRecord (repeatedRecord 975)]

def filledFile : Bytes :=
  front packedRawHeader ++ (filledPlaintext ++ markedTag zeroNonce chunkSize)

theorem length_filledPlaintext : filledPlaintext.length = chunkSize := by
  rw [filledPlaintext, stream, flatMap_singleton, frame, packRecord_filled]
  simp only [length_append, length_cons, length_replicate, length_nil,
    LittleEndian.length_encode, chunkSize]

theorem unmarked_filledPlaintext : 0xab ∉ filledPlaintext := by
  have hlength : (packRecord (repeatedRecord 975)).length = 984 := by
    rw [packRecord_filled]
    simp only [length_append, length_cons, length_replicate, length_nil]
  rw [filledPlaintext, stream, flatMap_singleton, frame, hlength, packRecord_filled]
  decide +kernel

def filledRecords : List WalletRecord :=
  [⟨some "t", "n", some (repeatedRecord 975).value, some ∅⟩]

theorem filledRecords_listed :
    getAll markedCrypto zeroKeys .inserted (singleDb markedCrypto (repeatedRecord 975)) =
      .ok filledRecords :=
  getAll_singleDb rfl

theorem filledRecords_exported :
    Exported (packedCrates (repeatedRecord 975)) filledRecords
      [packRecord (repeatedRecord 975)] :=
  .cons (exportRecord_packed (repeatedRecord 975)) .nil

theorem rawHeader_packed :
    (packedCrates (repeatedRecord 975)).headerToVec rawHeader = some packedRawHeader := by
  rfl

theorem filledFile_exported :
    exportContinue (packedCrates (repeatedRecord 975)) markedCrypto zeroKeys .inserted
      (singleDb markedCrypto (repeatedRecord 975)) 0 zeroKey (.raw rawPassphrase) zeroNonce 0 =
        .ok filledFile := by
  have hencoded : ∀ record ∈ filledRecords, ∃ bytes,
      exportRecord (packedCrates (repeatedRecord 975)) record = .ok bytes := by
    intro record hmem
    rw [mem_singleton.mp hmem]
    exact ⟨packRecord (repeatedRecord 975), exportRecord_packed (repeatedRecord 975)⟩
  obtain ⟨file, hexport⟩ : ∃ file, exportContinue (packedCrates (repeatedRecord 975)) markedCrypto
      zeroKeys .inserted (singleDb markedCrypto (repeatedRecord 975)) 0 zeroKey
        (.raw rawPassphrase) zeroNonce 0 = .ok file :=
    exists_exportWith rawHeader_packed filledRecords_listed hencoded
  obtain ⟨header, records, encodings, chunks, hheader, hrecords, hexported, hcut,
    hflatten, hfile⟩ :=
    exportWith_spec (by decide) hexport
  obtain rfl := Option.some.inj (rawHeader_packed.symm.trans hheader)
  obtain rfl := Outcome.ok.inj (filledRecords_listed.symm.trans hrecords)
  obtain rfl := filledRecords_exported.unique hexported
  have hplain : chunks.flatten = filledPlaintext := hflatten
  have hcount := hcut.length_eq (by decide)
  rw [hplain, length_filledPlaintext] at hcount
  obtain ⟨chunk, rfl⟩ := length_eq_one_iff.mp hcount.symm
  rw [flatten_singleton] at hplain
  rw [hexport, hfile, hplain, filledFile, ← length_filledPlaintext, sealAll, sealAll,
    append_nil]
  rfl

theorem append_cons_inj {α : Type} {x : α} {a b c d : List α} (hc : x ∉ c) (hd : x ∉ d)
    (h : a ++ x :: b = c ++ x :: d) : a = c ∧ b = d := by
  induction c generalizing a with
  | nil =>
    cases a with
    | nil => exact ⟨rfl, (List.cons.inj h).2⟩
    | cons y a =>
      refine absurd ?_ hd
      rw [← (List.cons.inj h).2]
      exact mem_append_right _ mem_cons_self
  | cons z c ih =>
    cases a with
    | nil => exact absurd ((List.cons.inj h).1 ▸ mem_cons_self) hc
    | cons y a =>
      obtain ⟨rfl, hrest⟩ := List.cons.inj h
      obtain ⟨rfl, rfl⟩ := ih (fun hmem => hc (mem_cons_of_mem _ hmem)) hrest
      exact ⟨rfl, rfl⟩

theorem markedCrypto_opens {cipher data : Bytes} {key : Key} {nonce : Nonce}
    (h : markedCrypto.decrypt cipher key nonce = some data) :
    cipher = data ++ markedTag nonce data.length := by
  obtain ⟨htag, hdata⟩ := Option.ite_none_right_eq_some.mp h
  have hlength := congrArg List.length htag
  rw [length_markedTag, length_drop] at hlength
  have hcount : (cipher.length - tagBytes) = data.length := by
    rw [← Option.some.inj hdata, length_take_of_le (Nat.sub_le _ _)]
  rw [← hcount, ← htag, ← Option.some.inj hdata, take_append_drop]

theorem markedCrypto_opens_chunk {cipher data rest : Bytes} {nonce' : Nonce}
    (hword : plaintext.length < 2 ^ 16) (hplain : 0xab ∉ plaintext)
    (hrest : 0xab ∉ 0xcd :: (LittleEndian.encode 2 plaintext.length ++ (nonce.bytes ++ rest)))
    (hcipher : cipher <:+: plaintext ++ (markedTag nonce plaintext.length ++ rest))
    (hopen : markedCrypto.decrypt cipher key nonce' = some data) :
    data = plaintext ∧ nonce' = nonce := by
  obtain ⟨before, behind, hsplit⟩ := hcipher
  rw [markedCrypto_opens hopen] at hsplit
  have hmarks : (before ++ data) ++ 0xab :: (0xcd :: (LittleEndian.encode 2 data.length ++
      (nonce'.bytes ++ behind))) = plaintext ++ 0xab ::
        (0xcd :: (LittleEndian.encode 2 plaintext.length ++ (nonce.bytes ++ rest))) := by
    simpa [markedTag, append_assoc] using hsplit
  obtain ⟨hdata, htag⟩ := append_cons_inj hplain hrest hmarks
  obtain ⟨hcount, htag⟩ := append_inj (List.cons.inj htag).2
    (by rw [LittleEndian.length_encode, LittleEndian.length_encode])
  have hbytes := (append_inj htag (by rw [nonce'.length_eq, nonce.length_eq])).1
  have hle := congrArg List.length hdata
  rw [length_append] at hle
  have hsame : data.length = plaintext.length := by
    have hvalue := congrArg LittleEndian.value hcount
    rwa [LittleEndian.value_encode, LittleEndian.value_encode, Nat.mod_eq_of_lt (by omega),
      Nat.mod_eq_of_lt (by omega)] at hvalue
  have hnil : before = [] := length_eq_zero_iff.mp (by omega)
  rw [hnil, nil_append] at hdata
  refine ⟨hdata, ?_⟩
  cases nonce'
  cases nonce
  rw [Nonce.mk.injEq]
  exact hbytes

theorem marked_unforged {crates : ExportCrates} (hlaws : crates.Lawful)
    {keyData : KeyDerivationData crates.saltBytes} {time : ℕ} {rest : Bytes}
    (hheader : crates.headerToVec ⟨keyData.encryptionMethod nonce n, time, 0⟩ = some header)
    (hkey : keyData.calcMasterKey crates = .ok key) (hn : 0 < n) (hword : n < 2 ^ 16)
    (hlength : plaintext.length = n) (hplain : 0xab ∉ plaintext)
    (hrest : 0xab ∉ 0xcd :: (LittleEndian.encode 2 n ++ (nonce.bytes ++ rest))) :
    Unforged crates markedCrypto n key nonce header plaintext keyData.passphrase
      (front header ++ (plaintext ++ (markedTag nonce n ++ rest))) := by
  have hpre := preparse_front hlaws hheader (plaintext ++ (markedTag nonce n ++ rest))
  subst hlength
  refine ⟨?_, ?_, ?_⟩
  · rw [Nat.div_eq_of_lt_le (k := 1) (by omega) (by omega)]
    decide
  · intro p key' hp hkey' cipher nonce' data hcipher hopen
    obtain rfl := Outcome.ok.inj (hpre.symm.trans hp)
    obtain rfl := Outcome.ok.inj (hkey.symm.trans hkey')
    have hsealed := markedCrypto_opens hopen
    obtain ⟨rfl, rfl⟩ := markedCrypto_opens_chunk hword hplain hrest hcipher hopen
    refine ⟨rfl, 0, ?_, ?_, rfl, hsealed⟩
    · rw [Nat.mul_zero]
      exact hn
    · rw [Nat.mul_zero, drop_zero, take_length]
  · intro p key' hp hkey' hne
    obtain rfl := Outcome.ok.inj (hpre.symm.trans hp)
    exact absurd rfl hne

end IndySdk.Wallet
