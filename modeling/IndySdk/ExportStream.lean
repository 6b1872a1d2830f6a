import IndySdk.WalletExport

/-!
# The records of an export stream

The stream of an export is a sequence of frames, each a length and that many bytes, and a zero
length. `Framed` says which bytes an import takes for a sequence of records; what an import does is
stated over it, for readers that yield some bytes and for readers that can yield nothing else.
-/

namespace IndySdk.Wallet

open Outcome LittleEndian List
open Chacha20Poly1305Ietf (Reader SealLengths)

def frame (b : Bytes) : Bytes := encode 4 b.length ++ b

/-- The plaintext behind the hash of the header. -/
def stream (encodings : List Bytes) : Bytes :=
  encodings.flatMap frame ++ encode 4 0

/-- What the encodings of the third-party libraries promise: decoding undoes encoding, up to the
order of the tags, and no part of an encoding is one. A header is far shorter than four gigabytes.
-/
structure ExportCrates.Lawful (crates : ExportCrates) : Prop where
  header : ∀ header bytes, crates.headerToVec header = some bytes →
    crates.headerFromSlice bytes = some header ∧ bytes ≠ [] ∧ bytes.length < 256 ^ 4
  record : ∀ record bytes, crates.recordToVec record = some bytes → bytes ≠ [] ∧
    ∃ decoded, crates.recordFromSlice bytes = some decoded ∧ decoded.type = record.type ∧
      decoded.id = record.id ∧ decoded.value = record.value ∧
      ∀ n, decoded.tags.lookup n = record.tags.lookup n
  part : ∀ record bytes k, crates.recordToVec record = some bytes → k < bytes.length →
    crates.recordFromSlice (bytes.take k) = none

/-- The bytes are some records and the zero length after them. -/
inductive Framed (crates : ExportCrates) : Bytes → List ExportRecord → Prop where
  | done : Framed crates (encode 4 0) []
  | record {bytes data : Bytes} {record : ExportRecord} {records : List ExportRecord}
    (hne : bytes ≠ []) (hlt : bytes.length < 256 ^ 4)
    (hdecode : crates.recordFromSlice bytes = some record) (hrest : Framed crates data records) :
    Framed crates (frame bytes ++ data) (record :: records)

variable {crates : ExportCrates} {wc : WalletCrypto} {keys : Keys}

/-- The records added to a wallet one after the other. -/
def addAll (wc : WalletCrypto) (keys : Keys) (random : ℕ → ValueRandomness) :
    ℕ → List ExportRecord → Db → IndyResult Unit × Db
  | _, [], db => (.ok (), db)
  | added, record :: records, db =>
    match add wc keys record.type record.id record.value record.tags (random added) db with
    | (.ok (), db) => addAll wc keys random (added + 1) records db
    | (.err e, db) => (.err e, db)
    | (.panic, db) => (.panic, db)

/-! ### One round of the loop -/

theorem readRecords_eq (random : ℕ → ValueRandomness) (r : Reader) (added : ℕ) (db : Db) :
    readRecords crates wc keys random r added db =
      match nextRecord crates wc r with
      | .err e => (.err e, db)
      | .panic => (.panic, db)
      | .ok (none, _) => (.ok (), db)
      | .ok (some record, r') =>
        match add wc keys record.type record.id record.value record.tags (random added) db with
        | (.ok (), db) => readRecords crates wc keys random r' (added + 1) db
        | (.err e, db) => (.err e, db)
        | (.panic, db) => (.panic, db) := by
  rw [readRecords]
  split
  · rename_i hnext
    simp only [hnext]
  · rename_i hnext
    simp only [hnext]
  · rename_i hnext
    simp only [hnext]
  · rename_i hnext
    rewrite [hnext]
    rfl

section Yields

variable {n : ℕ} {extra rest : Bytes} {r : Reader}

theorem read_append (hlengths : SealLengths wc) {bytes : Bytes}
    (h : r.Yields wc n extra (bytes ++ rest)) :
    ∃ r', r.read wc bytes.length = .ok (bytes, r') ∧ r'.Yields wc n extra rest := by
  have hle : bytes.length ≤ (bytes ++ rest).length := by
    rw [length_append]
    exact Nat.le_add_right _ _
  obtain ⟨r', hread, hyields⟩ := h.read hlengths hle
  rw [take_left] at hread
  rw [drop_left] at hyields
  exact ⟨r', hread, hyields⟩

theorem nextRecord_end (crates : ExportCrates) (hlengths : SealLengths wc)
    (h : r.Yields wc n extra (encode 4 0 ++ rest)) :
    ∃ r', nextRecord crates wc r = .ok (none, r') ∧ r'.Yields wc n extra rest := by
  obtain ⟨r', hread, hyields⟩ := read_append hlengths h
  rw [length_encode] at hread
  refine ⟨r', ?_, hyields⟩
  rw [nextRecord, mapIoErr_eq_ok.mpr hread, ok_bind]
  exact if_pos rfl

theorem nextRecord_frame (crates : ExportCrates) (hlengths : SealLengths wc) {bytes : Bytes}
    (hne : bytes ≠ []) (hlt : bytes.length < 256 ^ 4)
    (h : r.Yields wc n extra (frame bytes ++ rest)) :
    ∃ r' : Reader, r'.Yields wc n extra rest ∧ nextRecord crates wc r =
      (Outcome.ofOption (errMsg .invalidStructure "Record is malformed msgpack")
        (crates.recordFromSlice bytes) >>= fun record => pure (some record, r')) := by
  rw [frame, append_assoc] at h
  obtain ⟨r₁, hread₁, hyields₁⟩ := read_append hlengths h
  obtain ⟨r₂, hread₂, hyields₂⟩ := read_append hlengths hyields₁
  rw [length_encode] at hread₁
  have hvalue : value (encode 4 bytes.length) = bytes.length := by
    rw [value_encode, Nat.mod_eq_of_lt hlt]
  have hpos : bytes.length ≠ 0 := by
    rw [Ne, length_eq_zero_iff]
    exact hne
  refine ⟨r₂, hyields₂, ?_⟩
  rw [nextRecord, mapIoErr_eq_ok.mpr hread₁, ok_bind]
  dsimp only
  rw [hvalue, if_neg hpos, mapIoErr_eq_ok.mpr hread₂, ok_bind]

theorem readRecords_of_framed (hlengths : SealLengths wc) (random : ℕ → ValueRandomness)
    {data : Bytes} {records : List ExportRecord} (hdata : Framed crates data records)
    (h : r.Yields wc n extra (data ++ rest)) (added : ℕ) (db : Db) :
    readRecords crates wc keys random r added db = addAll wc keys random added records db := by
  induction hdata generalizing r added db with
  | done =>
    obtain ⟨r', hnext, -⟩ := nextRecord_end crates hlengths h
    rw [readRecords_eq, hnext, addAll]
  | @record bytes data record records hne hlt hdecode hrest ih =>
    rw [append_assoc] at h
    obtain ⟨r', hyields, hnext⟩ := nextRecord_frame crates hlengths hne hlt h
    rw [hdecode, ofOption_some, ok_bind] at hnext
    rw [readRecords_eq, hnext, addAll]
    dsimp only [Outcome.pure_eq_ok]
    split
    · exact ih hyields _ _
    · rfl
    · rfl

end Yields

section Follows

variable {n : ℕ} {key : Key} {start : Nonce} {chunks : List Bytes} {input pending : Bytes}
  {r r' : Reader}

theorem nextRecord_inv (hlengths : SealLengths wc) (hfew : chunks.length < 256 ^ nonceBytes)
    (hopens : Reader.OpensOnly wc key start chunks input)
    (h : r.Follows wc n key start chunks input pending) {x : Option ExportRecord}
    (hnext : nextRecord crates wc r = .ok (x, r')) :
    (x = none ∧ ∃ rest, pending = encode 4 0 ++ rest ∧
        r'.Follows wc n key start chunks input rest) ∨
      ∃ record bytes rest, x = some record ∧ bytes ≠ [] ∧ bytes.length < 256 ^ 4 ∧
        crates.recordFromSlice bytes = some record ∧ pending = frame bytes ++ rest ∧
        r'.Follows wc n key start chunks input rest := by
  obtain ⟨⟨length, r₁⟩, hlength, hnext⟩ := bind_eq_ok_iff.mp hnext
  obtain ⟨rfl, hfour, hfollows⟩ := h.read hlengths hfew hopens (mapIoErr_eq_ok.mp hlength)
  have hsplit := (take_append_drop 4 pending).symm
  have hencoded := encode_value (pending.take 4)
  have hbound := value_lt (pending.take 4)
  rw [length_take_of_le hfour] at hencoded hbound
  dsimp only at hnext
  split at hnext
  · rename_i hzero
    cases hnext
    rw [hzero] at hencoded
    rw [← hencoded] at hsplit
    exact .inl ⟨rfl, _, hsplit, hfollows⟩
  · rename_i hpos
    obtain ⟨⟨bytes, r₂⟩, hbytes, hnext⟩ := bind_eq_ok_iff.mp hnext
    obtain ⟨rfl, hlong, hfollows₂⟩ :=
      hfollows.read hlengths hfew hopens (mapIoErr_eq_ok.mp hbytes)
    obtain ⟨record, hdecode, hnext⟩ := bind_eq_ok_iff.mp hnext
    cases hnext
    have hcount := length_take_of_le hlong
    refine .inr ⟨record, _, _, rfl, ?_, hcount.trans_lt hbound,
      ofOption_eq_ok.mp hdecode, ?_, hfollows₂⟩
    · rw [Ne, ← length_eq_zero_iff, hcount]
      exact hpos
    · rw [frame, hcount, hencoded, append_assoc, take_append_drop]
      exact hsplit

/-- An import that succeeds has read some records, and added them. -/
theorem framed_of_readRecords (hlengths : SealLengths wc)
    (hfew : chunks.length < 256 ^ nonceBytes)
    (hopens : Reader.OpensOnly wc key start chunks input) {random : ℕ → ValueRandomness}
    {added : ℕ} {db db' : Db} (h : r.Follows wc n key start chunks input pending)
    (hread : readRecords crates wc keys random r added db = (.ok (), db')) :
    ∃ data records rest, ∃ r' : Reader, pending = data ++ rest ∧ Framed crates data records ∧
      addAll wc keys random added records db = (.ok (), db') ∧
      r'.Follows wc n key start chunks input rest := by
  induction hlength : pending.length using Nat.strong_induction_on
    generalizing pending r added db with
  | _ length ih =>
    rw [readRecords_eq] at hread
    cases hnext : nextRecord crates wc r with
    | err e =>
      rw [hnext] at hread
      cases hread
    | panic =>
      rw [hnext] at hread
      cases hread
    | ok next =>
      obtain ⟨x, r₁⟩ := next
      rw [hnext] at hread
      obtain ⟨rfl, rest, rfl, hrest⟩ | ⟨record, bytes, rest, rfl, hne, hlt, hdecode, rfl, hrest⟩ :=
        nextRecord_inv hlengths hfew hopens h hnext
      · cases hread
        exact ⟨_, [], rest, r₁, rfl, .done, rfl, hrest⟩
      · dsimp only at hread
        split at hread
        · rename_i hadd
          have hshorter : rest.length < length := by
            rw [← hlength, length_append, frame, length_append,
              length_encode]
            omega
          obtain ⟨data, records, rest', r', rfl, hdata, hall, hend⟩ :=
            ih _ hshorter hrest hread rfl
          refine ⟨frame bytes ++ data, record :: records, rest', r', ?_,
            .record hne hlt hdecode hdata, ?_, hend⟩
          · rw [append_assoc]
          · rw [addAll, hadd]
            exact hall
        · cases hread
        · cases hread

end Follows

/-! ### The stream of an export -/

def ExportRecord.view (r : ExportRecord) : Record :=
  RecordMap.fullRecord r.type r.id ⟨r.value, fun n => r.tags.lookup n⟩

/-- An encoding of a record that a caller sees in this way. -/
def Encodes (crates : ExportCrates) (bytes : Bytes) (v : Record) : Prop :=
  ∃ record, crates.recordToVec record = some bytes ∧ record.view = v

/-- How much of the stream an import reads: it stops at the first length that is written as zero,
and fails on another one that is not written as it is. -/
def readLength : List Bytes → Option ℕ
  | [] => some 4
  | bytes :: encodings =>
    if bytes.length % 256 ^ 4 = 0 then some 4
    else if bytes.length < 256 ^ 4 then
      (readLength encodings).map (fun length => 4 + bytes.length + length)
    else none

theorem stream_cons (bytes : Bytes) (encodings : List Bytes) :
    stream (bytes :: encodings) =
      encode 4 bytes.length ++ (bytes ++ stream encodings) := by
  rw [stream, flatMap_cons, append_assoc, frame, append_assoc]
  rfl

theorem stream_nil : stream [] = encode 4 0 ++ [] := (append_nil _).symm

theorem encode_append_inj {m n : ℕ} {a b : Bytes}
    (h : encode 4 m ++ a = encode 4 n ++ b) :
    m % 256 ^ 4 = n % 256 ^ 4 ∧ a = b := by
  obtain ⟨hlength, hrest⟩ :=
    append_inj h (by rw [length_encode, length_encode])
  refine ⟨?_, hrest⟩
  rw [← value_encode, hlength, value_encode]

theorem ExportCrates.Lawful.view_eq (hlaws : crates.Lawful) {bytes : Bytes} {v : Record}
    {record : ExportRecord} (h : Encodes crates bytes v)
    (hdecode : crates.recordFromSlice bytes = some record) : record.view = v := by
  obtain ⟨record', hencode, rfl⟩ := h
  obtain ⟨-, decoded, hdecoded, htype, hid, hvalue, htags⟩ := hlaws.record _ _ hencode
  rw [hdecode] at hdecoded
  obtain rfl := Option.some.inj hdecoded
  rw [ExportRecord.view, ExportRecord.view, htype, hid, hvalue]
  congr 2
  exact funext htags

variable {encodings : List Bytes} {views : List Record}

/-- The records that stand at the front of the stream of an export are the first of the exported
ones, and all of them exactly when every encoding is as short as its length can be written. -/
theorem framed_stream (hlaws : crates.Lawful)
    (hencodes : List.Forall₂ (Encodes crates) encodings views) {data rest : Bytes}
    {records : List ExportRecord} (h : stream encodings = data ++ rest)
    (hdata : Framed crates data records) :
    readLength encodings = some data.length ∧ records.map ExportRecord.view <+: views ∧
      (records.length = views.length ↔ ∀ bytes ∈ encodings, bytes.length < 256 ^ 4) := by
  induction hencodes generalizing data records with
  | nil =>
    cases hdata with
    | done => exact ⟨rfl, nil_prefix, by simp⟩
    | @record bytes data record records hne hlt hdecode hrest =>
      rw [stream_nil, frame, append_assoc, append_assoc] at h
      have hzero := (encode_append_inj h).1
      rw [Nat.zero_mod, Nat.mod_eq_of_lt hlt] at hzero
      exact absurd (length_eq_zero_iff.mp hzero.symm) hne
  | @cons first v encodings views hfirst hothers ih =>
    obtain ⟨hnonempty, -⟩ := hlaws.record _ _ hfirst.choose_spec.1
    rw [stream_cons] at h
    rw [readLength]
    cases hdata with
    | done =>
      have hzero := (encode_append_inj h).1
      rw [Nat.zero_mod] at hzero
      rw [if_pos hzero]
      refine ⟨rfl, nil_prefix, iff_of_false (by simp) ?_⟩
      intro hall
      have hlt := hall first mem_cons_self
      rw [Nat.mod_eq_of_lt hlt, length_eq_zero_iff] at hzero
      exact hnonempty hzero
    | @record bytes data record records hne hlt hdecode hrest =>
      rw [frame, append_assoc, append_assoc] at h
      obtain ⟨hmod, h⟩ := encode_append_inj h
      rw [Nat.mod_eq_of_lt hlt] at hmod
      have hpos : bytes.length ≠ 0 := by
        rw [Ne, length_eq_zero_iff]
        exact hne
      have hle : bytes.length ≤ first.length := by
        rw [← hmod]
        exact Nat.mod_le _ _
      have htake : first.take bytes.length = bytes := by
        rw [← take_append_of_le_length hle, h, take_left]
      have hsmall : first.length < 256 ^ 4 := by
        by_contra hlong
        obtain ⟨record', hencode, -⟩ := hfirst
        have hnone := hlaws.part _ _ bytes.length hencode (lt_of_lt_of_le hlt (not_lt.mp hlong))
        rw [htake, hdecode] at hnone
        cases hnone
      have heq : first = bytes := by
        rw [Nat.mod_eq_of_lt hsmall] at hmod
        rw [← htake, ← hmod, take_length]
      subst heq
      obtain ⟨hread, hprefix, hcount⟩ := ih (append_cancel_left h) hrest
      rw [if_neg (by rwa [hmod]), if_pos hsmall, hread]
      refine ⟨?_, ?_, ?_⟩
      · rw [length_append, frame, length_append, length_encode]
        rfl
      · rw [map_cons, hlaws.view_eq hfirst hdecode]
        exact cons_prefix_cons.mpr ⟨rfl, hprefix⟩
      · rw [length_cons, length_cons, forall_mem_cons, Nat.add_right_cancel_iff,
          hcount]
        exact ⟨fun hall => ⟨hsmall, hall⟩, And.right⟩

theorem exists_framed_of_readLength (hlaws : crates.Lawful)
    (hencodes : List.Forall₂ (Encodes crates) encodings views) {length : ℕ}
    (h : readLength encodings = some length) :
    ∃ data records rest, stream encodings = data ++ rest ∧ Framed crates data records ∧
      data.length = length := by
  induction hencodes generalizing length with
  | nil =>
    cases h
    exact ⟨_, [], [], stream_nil, .done, length_encode _ _⟩
  | @cons first v encodings views hfirst hothers ih =>
    obtain ⟨record, hencode, -⟩ := hfirst
    obtain ⟨hne, decoded, hdecode, -⟩ := hlaws.record _ _ hencode
    rw [stream_cons]
    rw [readLength] at h
    split at h
    · rename_i hzero
      obtain rfl := Option.some.inj h
      refine ⟨_, [], first ++ stream encodings, ?_, .done, length_encode _ _⟩
      rw [← encode_mod, hzero]
    · split at h
      · rename_i hlt
        obtain ⟨length, hlength, rfl⟩ := Option.map_eq_some_iff.mp h
        obtain ⟨data, records, rest, hsplit, hdata, rfl⟩ := ih hlength
        refine ⟨_, decoded :: records, rest, ?_, .record hne hlt hdecode hdata, ?_⟩
        · rw [hsplit, frame, append_assoc, append_assoc]
        · rw [length_append, frame, length_append, length_encode]
      · cases h

/-- Where nothing of the kind can be read the import fails. -/
theorem readRecords_ne_ok (hlengths : SealLengths wc) (hlaws : crates.Lawful) (keys : Keys)
    (random : ℕ → ValueRandomness) {n : ℕ} {extra : Bytes}
    (hencodes : List.Forall₂ (Encodes crates) encodings views) (hnone : readLength encodings = none)
    {r : Reader} (h : r.Yields wc n extra (stream encodings)) (added : ℕ) (db : Db) :
    (readRecords crates wc keys random r added db).1 ≠ .ok () := by
  induction hencodes generalizing r added db with
  | nil => cases hnone
  | @cons first v encodings views hfirst hothers ih =>
    obtain ⟨record, hencode, -⟩ := hfirst
    obtain ⟨hne, decoded, hdecode, -⟩ := hlaws.record _ _ hencode
    rw [readLength] at hnone
    split at hnone
    · cases hnone
    · rename_i hpos
      rw [stream_cons] at h
      split at hnone
      · rename_i hlt
        rw [← append_assoc] at h
        obtain ⟨r', hyields, hnext⟩ := nextRecord_frame crates hlengths hne hlt h
        rw [hdecode, ofOption_some, ok_bind] at hnext
        rw [readRecords_eq, hnext]
        dsimp only [Outcome.pure_eq_ok]
        split
        · exact ih (Option.map_eq_none_iff.mp hnone) hyields _ _
        · exact err_ne_ok _ _
        · exact panic_ne_ok _
      · rename_i hlong
        have hmod : first.length % 256 ^ 4 < 256 ^ 4 := Nat.mod_lt _ (by decide)
        have hless : first.length % 256 ^ 4 < first.length := lt_of_lt_of_le hmod (not_lt.mp hlong)
        have hcount := length_take_of_le hless.le
        have hsplit : encode 4 first.length ++ (first ++ stream encodings) =
            frame (first.take (first.length % 256 ^ 4)) ++
              (first.drop (first.length % 256 ^ 4) ++ stream encodings) := by
          rw [frame, hcount, encode_mod, append_assoc,
            ← append_assoc (first.take _), take_append_drop]
        rw [hsplit] at h
        obtain ⟨r', -, hnext⟩ := nextRecord_frame crates hlengths (by
          rw [Ne, ← length_eq_zero_iff, hcount]
          exact hpos) (hcount.trans_lt hmod) h
        rw [hlaws.part _ _ _ hencode hless] at hnext
        rw [readRecords_eq, hnext]
        exact err_ne_ok _ _

end IndySdk.Wallet
