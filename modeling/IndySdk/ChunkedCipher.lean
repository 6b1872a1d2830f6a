import IndySdk.ChunkedStream
import IndySdk.LittleEndian
import IndySdk.WalletEncryption

/-!
# Writers and readers of encrypted chunks

A writer encrypts what it is given chunk by chunk, each under the next nonce. A reader takes the
input apart in pieces of the length of an encrypted chunk and keeps what is left over of the last
one. What a reader yields of a written stream is the stream, and what it yields of any input whose
pieces open only as they were written is the stream as well.
-/

namespace IndySdk.Chacha20Poly1305Ietf

open Outcome LittleEndian Function List
open ChunkedStream
open Wallet (Key Nonce WalletCrypto nonceBytes)

def tagBytes : ℕ := 16

def increment (nonce : Nonce) : Nonce :=
  ⟨LittleEndian.increment nonce.bytes, by rw [length_increment, nonce.length_eq]⟩

/-- The kinds of input errors that a reader meets or reports. -/
inductive IoErrorKind where
  | unexpectedEof
  | invalidData
  deriving DecidableEq, Repr

variable (wc : WalletCrypto)

/-! ### Writers -/

structure Writer where
  buffer : Bytes
  chunkSize : ℕ
  key : Key
  nonce : Nonce
  inner : Bytes

namespace Writer

def new (inner : Bytes) (key : Key) (nonce : Nonce) (chunkSize : ℕ) : Writer :=
  ⟨[], chunkSize, key, nonce, inner⟩

/-- The loop over the whole chunks of the buffer, of at most a number of rounds. -/
def writeChunks : ℕ → Writer → Writer
  | 0, w => w
  | rounds + 1, w =>
    if w.chunkSize ≤ w.buffer.length then
      writeChunks rounds
        { w with
          buffer := w.buffer.drop w.chunkSize
          inner := w.inner ++ wc.encrypt (w.buffer.take w.chunkSize) w.key w.nonce
          nonce := increment w.nonce }
    else w

def write (w : Writer) (buf : Bytes) : Writer :=
  writeChunks wc (w.buffer.length + buf.length) { w with buffer := w.buffer ++ buf }

def flush (w : Writer) : Writer :=
  if 0 < w.buffer.length then
    { w with
      inner := w.inner ++ wc.encrypt w.buffer w.key w.nonce
      nonce := increment w.nonce }
  else w

end Writer

/-! ### Readers -/

structure Reader where
  restBuffer : Bytes
  bufferSize : ℕ
  key : Key
  nonce : Nonce
  inner : Bytes

namespace Reader

/-- A buffer that is too large to be addressed aborts the thread. -/
def new {ε : Type} (overflowChecks : Bool) (inner : Bytes) (key : Key) (nonce : Nonce)
    (chunkSize : ℕ) : Outcome ε Reader := do
  let bufferSize ← Outcome.wordAdd 64 overflowChecks chunkSize tagBytes
  if bufferSize < 2 ^ 63 then pure ⟨[], bufferSize, key, nonce, inner⟩ else .panic

/-- As much of the input as the buffer holds. -/
def readChunk (r : Reader) : Outcome IoErrorKind Bytes :=
  if r.inner.take r.bufferSize = [] then .err .unexpectedEof else .ok (r.inner.take r.bufferSize)

/-- The reader after a chunk of which a part was asked for. -/
def keepRest (r : Reader) (cipher chunk : Bytes) (need : ℕ) : Reader :=
  { r with
    restBuffer :=
      if need < chunk.length then r.restBuffer ++ chunk.drop need else r.restBuffer
    nonce := increment r.nonce
    inner := r.inner.drop cipher.length }

/-- The loop over chunks that yields the bytes still needed; each round takes some of the input. -/
def fill : ℕ → ℕ → Reader → Outcome IoErrorKind (Bytes × Reader)
  | _, 0, r => .ok ([], r)
  | 0, _ + 1, _ => .err .unexpectedEof
  | rounds + 1, need + 1, r => do
    let cipher ← r.readChunk
    match wc.decrypt cipher r.key r.nonce with
    | none => .err .invalidData
    | some chunk =>
      let (bytes, r) ← fill rounds (need + 1 - chunk.length) (r.keepRest cipher chunk (need + 1))
      pure (chunk.take (need + 1) ++ bytes, r)

def read (r : Reader) (length : ℕ) : Outcome IoErrorKind (Bytes × Reader) := do
  let (bytes, next) ← fill wc r.inner.length (length - r.restBuffer.length)
    { r with restBuffer := r.restBuffer.drop length }
  pure (r.restBuffer.take length ++ bytes, next)

end Reader

/-- Bytes come out of what was left over, or of some of the input. -/
theorem Reader.fill_shrinks {wc : WalletCrypto} {rounds need : ℕ} {r r' : Reader} {bytes : Bytes}
    (h : Reader.fill wc rounds need r = .ok (bytes, r')) :
    (need = 0 ∧ r' = r) ∨ r'.inner.length < r.inner.length := by
  induction rounds generalizing r need bytes with
  | zero =>
    cases need with
    | zero =>
      cases h
      exact .inl ⟨rfl, rfl⟩
    | succ need => cases h
  | succ rounds ih =>
    cases need with
    | zero =>
      cases h
      exact .inl ⟨rfl, rfl⟩
    | succ need =>
      rw [Reader.fill] at h
      obtain ⟨cipher, hread, h⟩ := bind_eq_ok_iff.mp h
      have hless : ∀ chunk, (r.keepRest cipher chunk (need + 1)).inner.length <
          r.inner.length := by
        intro chunk
        rw [Reader.readChunk] at hread
        split at hread
        · cases hread
        · rename_i hne
          obtain rfl := Outcome.ok.inj hread
          have hpos := length_pos_iff.mpr hne
          rw [length_take] at hpos
          change (r.inner.drop _).length < _
          rw [length_drop, length_take]
          omega
      cases hopen : wc.decrypt cipher r.key r.nonce with
      | none =>
        rw [hopen] at h
        cases h
      | some chunk =>
        rw [hopen] at h
        dsimp only at h
        obtain ⟨⟨more, last⟩, hlater, hdone⟩ := bind_eq_ok_iff.mp h
        cases hdone
        obtain ⟨-, rfl⟩ | hlt := ih hlater
        · exact .inr (hless chunk)
        · exact .inr (hlt.trans (hless chunk))

theorem Reader.read_shrinks {wc : WalletCrypto} {length : ℕ} {r r' : Reader} {bytes : Bytes}
    (h : r.read wc length = .ok (bytes, r')) :
    r'.inner.length < r.inner.length ∨
      (r'.inner.length = r.inner.length ∧ length ≤ r.restBuffer.length ∧
        r'.restBuffer.length = r.restBuffer.length - length) := by
  obtain ⟨⟨more, last⟩, hfill, hdone⟩ := bind_eq_ok_iff.mp h
  cases hdone
  obtain ⟨hneed, rfl⟩ | hlt := Reader.fill_shrinks hfill
  · exact .inr ⟨rfl, by omega, length_drop⟩
  · exact .inl hlt

/-! ### What is written -/

def sealing (key : Key) (nonce : Nonce) (data : Bytes) : Bytes := wc.encrypt data key nonce

/-- A sealed text is longer than the text by the length of a tag. -/
def SealLengths : Prop :=
  ∀ data key nonce, (wc.encrypt data key nonce).length = data.length + tagBytes

variable {wc}

/-- What a writer has been given after it was made: whole chunks that are written, and a rest. -/
structure Writer.Given (wc : WalletCrypto) (front : Bytes) (start : Nonce) (w : Writer)
    (data : Bytes) : Prop where
  rest : w.buffer.length < w.chunkSize
  written : ∃ chunks, Full w.chunkSize chunks ∧ data = chunks.flatten ++ w.buffer ∧
    w.nonce = increment^[chunks.length] start ∧
    w.inner = front ++ sealAll (sealing wc w.key) increment start chunks

variable {front data : Bytes} {start : Nonce}

theorem Writer.given_new {key : Key} {chunkSize : ℕ} (h : 0 < chunkSize) :
    (Writer.new front key start chunkSize).Given wc front start [] :=
  ⟨h, [], by simp [Full], rfl, rfl, by simp [Writer.new, sealAll]⟩

theorem Writer.given_writeChunks {rounds : ℕ} {w : Writer} (hpos : 0 < w.chunkSize)
    (hrounds : w.buffer.length ≤ rounds)
    (h : ∃ chunks, Full w.chunkSize chunks ∧ data = chunks.flatten ++ w.buffer ∧
      w.nonce = increment^[chunks.length] start ∧
      w.inner = front ++ sealAll (sealing wc w.key) increment start chunks) :
    (w.writeChunks wc rounds).Given wc front start data ∧
      (w.writeChunks wc rounds).chunkSize = w.chunkSize ∧
      (w.writeChunks wc rounds).key = w.key := by
  induction rounds generalizing w with
  | zero =>
    exact ⟨⟨by rw [Writer.writeChunks]; omega, h⟩, rfl, rfl⟩
  | succ rounds ih =>
    rw [Writer.writeChunks]
    split
    · rename_i hle
      obtain ⟨chunks, hfull, hdata, hnonce, hinner⟩ := h
      refine ih hpos (by rw [length_drop]; omega)
        ⟨chunks ++ [w.buffer.take w.chunkSize], ?_, ?_, ?_, ?_⟩
      · intro chunk hmem
        obtain hmem | hmem := mem_append.mp hmem
        · exact hfull chunk hmem
        · rw [mem_singleton.mp hmem]
          exact length_take_of_le hle
      · rw [hdata, flatten_append, append_assoc]
        simp
      · rw [length_append, length_singleton, iterate_succ_apply', hnonce]
      · rw [hinner, sealAll_append, ← hnonce, append_assoc]
        simp [sealAll, sealing]
    · rename_i hlt
      exact ⟨⟨not_le.mp hlt, h⟩, rfl, rfl⟩

theorem Writer.given_write {w : Writer} (h : w.Given wc front start data) (buf : Bytes) :
    (w.write wc buf).Given wc front start (data ++ buf) ∧
      (w.write wc buf).chunkSize = w.chunkSize ∧ (w.write wc buf).key = w.key := by
  obtain ⟨chunks, hfull, hdata, hnonce, hinner⟩ := h.written
  have hpos : 0 < w.chunkSize := lt_of_le_of_lt (Nat.zero_le _) h.rest
  exact Writer.given_writeChunks (w := { w with buffer := w.buffer ++ buf }) hpos
    (by rw [length_append])
    ⟨chunks, hfull, by rw [hdata, append_assoc], hnonce, hinner⟩

theorem Writer.flush_inner {w : Writer} (h : w.Given wc front start data) :
    ∃ chunks, Cut w.chunkSize chunks ∧ chunks.flatten = data ∧
      (w.flush wc).inner = front ++ sealAll (sealing wc w.key) increment start chunks := by
  obtain ⟨chunks, hfull, hdata, hnonce, hinner⟩ := h.written
  have hpos : 0 < w.chunkSize := lt_of_le_of_lt (Nat.zero_le _) h.rest
  rw [Writer.flush]
  split
  · rename_i hbuffer
    refine ⟨chunks ++ [w.buffer], Cut.of_full_append hpos hfull (length_pos_iff.mp hbuffer)
      h.rest.le, by rw [hdata]; simp, ?_⟩
    dsimp only
    rw [hinner, sealAll_append, ← hnonce, append_assoc]
    simp [sealAll, sealing]
  · rename_i hbuffer
    have hnil : w.buffer = [] := length_eq_zero_iff.mp (by omega)
    exact ⟨chunks, Cut.of_full hpos hfull, by rw [hdata, hnil, append_nil], hinner⟩

/-! ### What is read of a written stream -/

/-- What is before a reader: sealed chunks, and more input only if the last chunk is full. -/
structure Reader.Ahead (wc : WalletCrypto) (n : ℕ) (extra : Bytes) (r : Reader)
    (chunks : List Bytes) : Prop where
  size : r.bufferSize = n + tagBytes
  cut : Cut n chunks
  inner : r.inner = sealAll (sealing wc r.key) increment r.nonce chunks ++ extra
  closed : extra = [] ∨ Full n chunks

namespace Reader

variable {n : ℕ} {extra : Bytes} {r : Reader} {chunks : List Bytes} {chunk : Bytes}

theorem Ahead.readChunk (hlengths : SealLengths wc) (h : r.Ahead wc n extra (chunk :: chunks)) :
    r.readChunk = .ok (sealing wc r.key r.nonce chunk) ∧
      r.inner = sealing wc r.key r.nonce chunk ++
        (sealAll (sealing wc r.key) increment (increment r.nonce) chunks ++ extra) := by
  have hinner : r.inner = sealing wc r.key r.nonce chunk ++
      (sealAll (sealing wc r.key) increment (increment r.nonce) chunks ++ extra) := by
    rw [h.inner, sealAll, append_assoc]
  have hlength : (sealing wc r.key r.nonce chunk).length = chunk.length + tagBytes :=
    hlengths chunk r.key r.nonce
  have htake : r.inner.take r.bufferSize = sealing wc r.key r.nonce chunk := by
    obtain hfull | hlast := h.cut.full_or_last
    · rw [hinner, h.size, ← hfull, ← hlength, take_left]
    · obtain hextra | hfull := h.closed
      · rw [hinner, hlast, hextra, sealAll, append_nil, append_nil]
        apply take_of_length_le
        rw [hlength, h.size]
        exact Nat.add_le_add_right h.cut.head_le _
      · rw [hinner, h.size, ← hfull chunk mem_cons_self, ← hlength, take_left]
  refine ⟨?_, hinner⟩
  have hne : sealing wc r.key r.nonce chunk ≠ [] := by
    rw [← length_pos_iff, hlength]
    exact Nat.lt_of_lt_of_le (by decide : 0 < tagBytes) (Nat.le_add_left _ _)
  rw [Reader.readChunk, htake, if_neg hne]

theorem Ahead.keepRest (hlengths : SealLengths wc) (h : r.Ahead wc n extra (chunk :: chunks))
    (need : ℕ) :
    (r.keepRest (sealing wc r.key r.nonce chunk) chunk need).Ahead wc n extra chunks := by
  refine ⟨h.size, h.cut.tail, ?_,
    h.closed.imp_right (fun hfull c hc => hfull c (mem_cons_of_mem _ hc))⟩
  have hinner := (h.readChunk hlengths).2
  change r.inner.drop _ = _
  rw [hinner, drop_left]
  rfl

theorem Ahead.keepRest_lt (hlengths : SealLengths wc) (h : r.Ahead wc n extra (chunk :: chunks))
    (need : ℕ) : (r.keepRest (sealing wc r.key r.nonce chunk) chunk need).inner.length <
      r.inner.length := by
  have hlength : (sealing wc r.key r.nonce chunk).length = chunk.length + tagBytes :=
    hlengths chunk r.key r.nonce
  have htag : 0 < tagBytes := by decide
  change (r.inner.drop _).length < _
  rw [(h.readChunk hlengths).2, drop_left]
  simp only [length_append, hlength]
  omega

/-- The bytes that are needed are yielded, and the rest of the stream is before the reader. -/
theorem Ahead.fill (hlengths : SealLengths wc) {rounds need : ℕ}
    (h : r.Ahead wc n extra chunks) (hrounds : r.inner.length ≤ rounds)
    (hneed : need ≤ chunks.flatten.length) (hrest : need ≠ 0 → r.restBuffer = []) :
    ∃ r' chunks', fill wc rounds need r = .ok (chunks.flatten.take need, r') ∧
      r'.Ahead wc n extra chunks' ∧ r'.key = r.key ∧
      increment^[chunks'.length] r'.nonce = increment^[chunks.length] r.nonce ∧
      r'.restBuffer ++ chunks'.flatten = r.restBuffer ++ chunks.flatten.drop need := by
  induction chunks generalizing r rounds need with
  | nil =>
    have hzero : need = 0 := by simpa using hneed
    subst hzero
    exact ⟨r, [], by simp [Reader.fill], h, rfl, rfl, rfl⟩
  | cons chunk chunks ih =>
    cases need with
    | zero => exact ⟨r, chunk :: chunks, by simp [Reader.fill], h, rfl, rfl, rfl⟩
    | succ need =>
      have hread := (h.readChunk hlengths).1
      have hless := h.keepRest_lt hlengths (need + 1)
      cases rounds with
      | zero => omega
      | succ rounds =>
        have hempty : r.restBuffer = [] := hrest (Nat.succ_ne_zero need)
        have hmore : need + 1 - chunk.length ≠ 0 →
            (r.keepRest (sealing wc r.key r.nonce chunk) chunk (need + 1)).restBuffer = [] := by
          intro hne
          rw [Reader.keepRest, if_neg (by omega)]
          exact hempty
        rw [flatten_cons, length_append] at hneed
        obtain ⟨r', chunks', hfill, hahead, hkey, hnonce, hleft⟩ :=
          ih (h.keepRest hlengths (need + 1))
          (Nat.le_of_lt_succ (hless.trans_le hrounds))
          (by omega : need + 1 - chunk.length ≤ chunks.flatten.length) hmore
        refine ⟨r', chunks', ?_, hahead, hkey, hnonce, ?_⟩
        · have hopen : wc.decrypt (sealing wc r.key r.nonce chunk) r.key r.nonce = some chunk :=
            wc.decrypt_encrypt chunk r.key r.nonce
          rw [Reader.fill, hread, ok_bind, hopen]
          dsimp only
          rw [hfill, flatten_cons, take_append]
          rfl
        · rw [hleft, flatten_cons, drop_append, hempty]
          by_cases hlt : need + 1 < chunk.length
          · rw [Reader.keepRest, if_pos hlt, hempty, nil_append]
            rfl
          · rw [Reader.keepRest, if_neg hlt, hempty, drop_of_length_le (not_lt.mp hlt)]
            rfl

/-- What is still to be read of a stream. -/
def Yields (wc : WalletCrypto) (n : ℕ) (extra : Bytes) (r : Reader) (pending : Bytes) : Prop :=
  ∃ chunks, r.Ahead wc n extra chunks ∧ pending = r.restBuffer ++ chunks.flatten

variable {length : ℕ}

theorem Yields.read (hlengths : SealLengths wc) {pending : Bytes} (h : r.Yields wc n extra pending)
    (hle : length ≤ pending.length) :
    ∃ r', r.read wc length = .ok (pending.take length, r') ∧
      r'.Yields wc n extra (pending.drop length) := by
  obtain ⟨chunks, hahead, rfl⟩ := h
  rw [length_append] at hle
  have hstart : ({ r with restBuffer := r.restBuffer.drop length } : Reader).Ahead wc n extra
      chunks := ⟨hahead.size, hahead.cut, hahead.inner, hahead.closed⟩
  obtain ⟨r', chunks', hfill, hahead', -, -, hleft⟩ := hstart.fill hlengths
    (le_refl _) (by omega : length - r.restBuffer.length ≤ chunks.flatten.length)
    (fun hne => drop_of_length_le (by omega))
  refine ⟨r', ?_, chunks', hahead', ?_⟩
  · rw [Reader.read, hfill, ok_bind, take_append]
    rfl
  · rw [hleft, drop_append]

/-! ### What is read of any input -/

/-- The pieces of an input that open are those of some chunks, each under its own nonce. -/
def OpensOnly (wc : WalletCrypto) (key : Key) (start : Nonce) (chunks : List Bytes)
    (input : Bytes) : Prop :=
  ∀ cipher nonce data, cipher <:+: input → wc.decrypt cipher key nonce = some data →
    ∃ j, chunks[j]? = some data ∧ nonce = increment^[j] start ∧
      cipher = sealing wc key nonce data

/-- A reader behind the first chunks of an input, of which it still keeps some bytes. -/
structure Behind (wc : WalletCrypto) (n : ℕ) (start : Nonce) (chunks : List Bytes) (input : Bytes)
    (r : Reader) (i : ℕ) : Prop where
  size : r.bufferSize = n + tagBytes
  nonce : r.nonce = increment^[i] start
  le : i ≤ chunks.length
  input : input = sealAll (sealing wc r.key) increment start (chunks.take i) ++ r.inner
  closed : r.inner = [] ∨ Full n (chunks.take i)
  kept : r.restBuffer = [] ∨ ∃ j chunk, i = j + 1 ∧ chunks[j]? = some chunk ∧
    r.restBuffer.length < chunk.length

theorem iterate_increment_bytes (nonce : Nonce) (i : ℕ) :
    (increment^[i] nonce).bytes = LittleEndian.increment^[i] nonce.bytes := by
  induction i with
  | zero => rfl
  | succ i ih => rw [iterate_succ_apply', iterate_succ_apply', ← ih]; rfl

variable {i : ℕ}

theorem iterate_increment_injective {nonce : Nonce} {j : ℕ} (hi : i < 256 ^ nonceBytes)
    (hj : j < 256 ^ nonceBytes) (h : increment^[i] nonce = increment^[j] nonce) : i = j := by
  have hbytes := congrArg Nonce.bytes h
  rw [iterate_increment_bytes, iterate_increment_bytes] at hbytes
  rw [← nonce.length_eq] at hi hj
  exact LittleEndian.iterate_increment_injective hi hj hbytes

variable {start : Nonce} {input : Bytes}

/-- A piece that opens is the chunk that comes next. -/
theorem Behind.readChunk (hlengths : SealLengths wc) (hfew : chunks.length < 256 ^ nonceBytes)
    {cipher : Bytes} (h : r.Behind wc n start chunks input i)
    (hopens : OpensOnly wc r.key start chunks input) (hread : r.readChunk = .ok cipher)
    (hopen : wc.decrypt cipher r.key r.nonce = some chunk) {need : ℕ} (hneed : 0 < need)
    (hempty : r.restBuffer = []) :
    chunks[i]? = some chunk ∧
      (r.keepRest cipher chunk need).Behind wc n start chunks input (i + 1) := by
  have hcipher : cipher = r.inner.take r.bufferSize ∧ r.inner ≠ [] := by
    rw [Reader.readChunk] at hread
    split at hread
    · cases hread
    · rename_i hne
      refine ⟨(Outcome.ok.inj hread).symm, ?_⟩
      intro hnil
      exact hne (by rw [hnil, take_nil])
  have hinfix : cipher <:+: input := by
    rw [h.input, hcipher.1]
    exact (List.take_prefix _ _).isInfix.trans (suffix_append _ _).isInfix
  obtain ⟨j, hj, hnonce, hsealed⟩ := hopens cipher r.nonce chunk hinfix hopen
  obtain ⟨hjlt, -⟩ := List.getElem?_eq_some_iff.mp hj
  have hij : i = j := by
    rw [h.nonce] at hnonce
    exact iterate_increment_injective (lt_of_le_of_lt h.le hfew) (hjlt.trans hfew) hnonce
  subst hij
  have hfullBefore : Full n (chunks.take i) := h.closed.resolve_left hcipher.2
  have hsplit : r.inner = cipher ++ r.inner.drop cipher.length := by
    have hprefix : cipher <+: r.inner := by
      rw [hcipher.1]
      exact take_prefix _ _
    obtain ⟨rest, hrest⟩ := hprefix
    rw [← hrest, drop_left]
  refine ⟨hj, h.size, ?_, hjlt, ?_, ?_, ?_⟩
  · rw [iterate_succ_apply', ← h.nonce]
    rfl
  · have hseal : cipher = sealing wc r.key (increment^[i] start) chunk := by
      rw [← h.nonce]
      exact hsealed
    change input = sealAll (sealing wc r.key) increment start (chunks.take (i + 1)) ++
      r.inner.drop cipher.length
    rw [sealAll_take_succ start hj, ← hseal, append_assoc, ← hsplit]
    exact h.input
  · rw [or_iff_not_imp_left]
    intro hmore
    have hlong : r.bufferSize < r.inner.length := by
      by_contra hshort
      apply hmore
      change r.inner.drop cipher.length = []
      rw [hcipher.1, take_of_length_le (not_lt.mp hshort), drop_length]
    have hlength : chunk.length + tagBytes = n + tagBytes := by
      rw [← h.size, ← hlengths chunk r.key r.nonce]
      change (sealing wc r.key r.nonce chunk).length = _
      rw [← hsealed, hcipher.1]
      exact length_take_of_le hlong.le
    rw [take_add_one, hj]
    intro c hc
    obtain hc | hc := mem_append.mp hc
    · exact hfullBefore c hc
    · rw [mem_singleton.mp hc]
      exact Nat.add_right_cancel hlength
  · rw [Reader.keepRest]
    split
    · rename_i hlt
      refine .inr ⟨i, chunk, rfl, hj, ?_⟩
      rw [hempty, nil_append, length_drop]
      omega
    · exact .inl hempty

theorem Behind.fill (hlengths : SealLengths wc) (hfew : chunks.length < 256 ^ nonceBytes)
    {rounds need i : ℕ} {bytes : Bytes} {r' : Reader} (h : r.Behind wc n start chunks input i)
    (hopens : OpensOnly wc r.key start chunks input)
    (hrest : need ≠ 0 → r.restBuffer = []) (hfill : fill wc rounds need r = .ok (bytes, r')) :
    r'.key = r.key ∧ bytes.length = need ∧ ∃ i', r'.Behind wc n start chunks input i' ∧
      r.restBuffer ++ (chunks.drop i).flatten =
        bytes ++ (r'.restBuffer ++ (chunks.drop i').flatten) := by
  induction rounds generalizing r need i bytes with
  | zero =>
    cases need with
    | zero =>
      cases hfill
      exact ⟨rfl, rfl, i, h, rfl⟩
    | succ need => cases hfill
  | succ rounds ih =>
    cases need with
    | zero =>
      cases hfill
      exact ⟨rfl, rfl, i, h, rfl⟩
    | succ need =>
      rw [Reader.fill] at hfill
      obtain ⟨cipher, hread, hfill⟩ := bind_eq_ok_iff.mp hfill
      cases hopen : wc.decrypt cipher r.key r.nonce with
      | none =>
        rw [hopen] at hfill
        cases hfill
      | some chunk =>
        rw [hopen] at hfill
        dsimp only at hfill
        obtain ⟨⟨more, last⟩, hlater, hdone⟩ := bind_eq_ok_iff.mp hfill
        cases hdone
        have hempty : r.restBuffer = [] := hrest (Nat.succ_ne_zero need)
        obtain ⟨hchunk, hbehind⟩ :=
          h.readChunk hlengths hfew hopens hread hopen (Nat.succ_pos need) hempty
        have hmore : need + 1 - chunk.length ≠ 0 →
            (r.keepRest cipher chunk (need + 1)).restBuffer = [] := by
          intro hne
          rw [Reader.keepRest, if_neg (by omega)]
          exact hempty
        obtain ⟨hkey, hlength, i', hbehind', hleft⟩ := ih hbehind hopens hmore hlater
        refine ⟨hkey, ?_, i', hbehind', ?_⟩
        · rw [length_append, length_take, hlength]
          omega
        · have hdrop : (chunks.drop i).flatten = chunk ++ (chunks.drop (i + 1)).flatten := by
            obtain ⟨hi, rfl⟩ := List.getElem?_eq_some_iff.mp hchunk
            rw [drop_eq_getElem_cons hi, flatten_cons]
          rw [hempty, nil_append, hdrop]
          by_cases hlt : need + 1 < chunk.length
          · have hnone : need + 1 - chunk.length = 0 := by omega
            rw [hnone] at hlength
            rw [Reader.keepRest, if_pos hlt, hempty, nil_append,
              length_eq_zero_iff.mp hlength, nil_append] at hleft
            rw [length_eq_zero_iff.mp hlength, append_nil, ← hleft, ← append_assoc,
              take_append_drop]
          · rw [take_of_length_le (not_lt.mp hlt), append_assoc]
            rw [Reader.keepRest, if_neg hlt, hempty, nil_append] at hleft
            rw [hleft]

theorem Behind.kept_drop (h : r.Behind wc n start chunks input i) (length : ℕ) :
    r.restBuffer.drop length = [] ∨ ∃ j chunk, i = j + 1 ∧ chunks[j]? = some chunk ∧
      (r.restBuffer.drop length).length < chunk.length := by
  obtain hnil | ⟨j, chunk, hi, hj, hlt⟩ := h.kept
  · exact .inl (by rw [hnil, drop_nil])
  · refine .inr ⟨j, chunk, hi, hj, lt_of_le_of_lt ?_ hlt⟩
    rw [length_drop]
    exact Nat.sub_le _ _

theorem Behind.count (hcut : Cut n chunks) (h : r.Behind wc n start chunks input i)
    (hread : (chunks.take i).flatten.length = length + r.restBuffer.length) :
    (length + (n - 1)) / n = i := by
  cases i with
  | zero =>
    obtain hnil | ⟨j, chunk, hi, -⟩ := h.kept
    · rw [hnil, take_zero] at hread
      obtain rfl : length = 0 := hread.symm
      rw [zero_add]
      obtain rfl | hpos := Nat.eq_zero_or_pos n
      · rfl
      · exact Nat.div_eq_of_lt (by omega)
    · cases hi
  | succ j =>
    have hbound : j < chunks.length := h.le
    have hj : chunks[j]? = some chunks[j] := getElem?_eq_getElem hbound
    obtain ⟨htotal, hpos, hle⟩ := hcut.length_take_succ hj
    have hkept : r.restBuffer.length < chunks[j].length := by
      obtain hnil | ⟨j', chunk, hi, hj', hlt⟩ := h.kept
      · rw [hnil]
        exact hpos
      · obtain rfl := Nat.succ.inj hi
        rw [hj] at hj'
        obtain rfl := Option.some.inj hj'
        exact hlt
    have hmul : n * (j + 1) = n * j + n := Nat.mul_succ n j
    rw [Nat.div_eq_iff (by omega)]
    rw [Nat.mul_comm]
    omega

/-- What is still to be read of an input that opens only as it was written. -/
def Follows (wc : WalletCrypto) (n : ℕ) (key : Key) (start : Nonce) (chunks : List Bytes)
    (input : Bytes) (r : Reader) (pending : Bytes) : Prop :=
  r.key = key ∧ ∃ i, r.Behind wc n start chunks input i ∧
    pending = r.restBuffer ++ (chunks.drop i).flatten

theorem Follows.read {key : Key} (hlengths : SealLengths wc)
    (hfew : chunks.length < 256 ^ nonceBytes) (hopens : OpensOnly wc key start chunks input)
    {pending bytes : Bytes} {r' : Reader} (h : r.Follows wc n key start chunks input pending)
    (hread : r.read wc length = .ok (bytes, r')) :
    bytes = pending.take length ∧ length ≤ pending.length ∧
      r'.Follows wc n key start chunks input (pending.drop length) := by
  obtain ⟨rfl, i, hbehind, rfl⟩ := h
  obtain ⟨⟨more, next⟩, hfill, hdone⟩ := bind_eq_ok_iff.mp hread
  cases hdone
  have hstart : ({ r with restBuffer := r.restBuffer.drop length } : Reader).Behind wc n start
      chunks input i :=
    ⟨hbehind.size, hbehind.nonce, hbehind.le, hbehind.input, hbehind.closed,
      hbehind.kept_drop length⟩
  obtain ⟨hkey, hlength, i', hbehind', hleft⟩ := hstart.fill hlengths hfew hopens
    (fun hne => drop_of_length_le (by omega)) hfill
  have hpending : r.restBuffer ++ (chunks.drop i).flatten =
      (r.restBuffer.take length ++ more) ++ (r'.restBuffer ++ (chunks.drop i').flatten) := by
    rw [append_assoc, ← hleft, ← append_assoc, take_append_drop]
  have hbytes : (r.restBuffer.take length ++ more).length = length := by
    rw [length_append, length_take, hlength]
    omega
  refine ⟨?_, ?_, hkey, i', hbehind', ?_⟩
  · rw [hpending, take_left' hbytes]
  · rw [hpending, length_append, hbytes]
    exact Nat.le_add_right _ _
  · rw [hpending, drop_left' hbytes]

/-! ### New readers -/

variable {ε : Type} {overflowChecks : Bool} {inner : Bytes} {key : Key} {nonce : Nonce}

theorem new_eq_ok (h : n + tagBytes < 2 ^ 63) :
    (Reader.new overflowChecks inner key nonce n : Outcome ε Reader) =
      .ok ⟨[], n + tagBytes, key, nonce, inner⟩ := by
  have hword : n + tagBytes < 2 ^ 64 := h.trans (by decide)
  rw [Reader.new, Outcome.wordAdd, if_pos hword, ok_bind, if_pos h]
  rfl

theorem new_fields {chunkSize : ℕ}
    (h : (Reader.new overflowChecks inner key nonce chunkSize : Outcome ε Reader) = .ok r) :
    r.restBuffer = [] ∧ r.key = key ∧ r.nonce = nonce ∧ r.inner = inner := by
  obtain ⟨bufferSize, -, hr⟩ := bind_eq_ok_iff.mp h
  split at hr
  · obtain rfl := Outcome.ok.inj hr
    exact ⟨rfl, rfl, rfl, rfl⟩
  · cases hr

theorem yields_new (hcut : Cut n chunks) (hclosed : extra = [] ∨ Full n chunks) :
    Yields wc n extra ⟨[], n + tagBytes, key, nonce,
      sealAll (sealing wc key) increment nonce chunks ++ extra⟩ chunks.flatten :=
  ⟨chunks, ⟨rfl, hcut, rfl, hclosed⟩, rfl⟩

theorem follows_new :
    Follows wc n key start chunks input ⟨[], n + tagBytes, key, start, input⟩ chunks.flatten := by
  refine ⟨rfl, 0, ⟨rfl, rfl, Nat.zero_le _, rfl, .inr ?_, .inl rfl⟩, rfl⟩
  intro chunk hmem
  cases hmem

/-- Whatever nonce a reader starts from, what it yields of such an input stands in the stream. -/
theorem fill_prefix (hfew : chunks.length < 256 ^ nonceBytes) {rounds need : ℕ} {bytes : Bytes}
    {r' : Reader} (hopens : OpensOnly wc r.key start chunks input) (hinput : r.inner <:+ input)
    (hfill : fill wc rounds need r = .ok (bytes, r')) :
    bytes = [] ∨ ∃ j < chunks.length, r.nonce = increment^[j] start ∧
      bytes <+: (chunks.drop j).flatten := by
  induction rounds generalizing r need bytes with
  | zero =>
    cases need with
    | zero =>
      cases hfill
      exact .inl rfl
    | succ need => cases hfill
  | succ rounds ih =>
    cases need with
    | zero =>
      cases hfill
      exact .inl rfl
    | succ need =>
      rw [Reader.fill] at hfill
      obtain ⟨cipher, hread, hfill⟩ := bind_eq_ok_iff.mp hfill
      cases hopen : wc.decrypt cipher r.key r.nonce with
      | none =>
        rw [hopen] at hfill
        cases hfill
      | some chunk =>
        rw [hopen] at hfill
        dsimp only at hfill
        obtain ⟨⟨more, last⟩, hlater, hdone⟩ := bind_eq_ok_iff.mp hfill
        cases hdone
        have hcipher : cipher <:+: input := by
          rw [Reader.readChunk] at hread
          split at hread
          · cases hread
          · rw [← Outcome.ok.inj hread]
            exact (List.take_prefix _ _).isInfix.trans hinput.isInfix
        obtain ⟨j, hj, hnonce, -⟩ := hopens cipher r.nonce chunk hcipher hopen
        obtain ⟨hlt, rfl⟩ := List.getElem?_eq_some_iff.mp hj
        refine .inr ⟨j, hlt, hnonce, ?_⟩
        rw [drop_eq_getElem_cons hlt, flatten_cons]
        have hmore : more = [] ∨ more <+: (chunks.drop (j + 1)).flatten := by
          obtain hnil | ⟨j', hlt', hnonce', hprefix⟩ :=
            ih (r := r.keepRest cipher chunks[j] (need + 1)) hopens
              ((drop_suffix _ _).trans hinput) hlater
          · exact .inl hnil
          · have hnext : increment^[j'] start = increment^[j + 1] start := by
              rw [iterate_succ_apply', ← hnonce, ← hnonce']
              rfl
            obtain rfl := iterate_increment_injective (hlt'.trans hfew)
              (lt_of_le_of_lt hlt hfew) hnext
            exact .inr hprefix
        by_cases hle : chunks[j].length ≤ need + 1
        · rw [take_of_length_le hle, prefix_append_right_inj]
          obtain rfl | hprefix := hmore
          · exact nil_prefix
          · exact hprefix
        · have hzero : need + 1 - chunks[j].length = 0 := by omega
          rw [hzero] at hlater
          obtain rfl : more = [] := by
            cases rounds <;> cases hlater <;> rfl
          rw [append_nil]
          exact (List.take_prefix _ _).trans (prefix_append _ _)

end Reader

end IndySdk.Chacha20Poly1305Ietf
