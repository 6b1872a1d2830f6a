import IndySdk.ExportIntegrity
import Mathlib.Algebra.GroupWithZero.Nat
import Mathlib.Data.List.Iterate

/-!
# Written streams and what is read of them

A writer is given bytes and flushed in any order, and a reader is asked for bytes in pieces of any
size. A flush seals what is in the buffer and leaves it there, so that a stream can only be read
beyond a flush that is not at the end of a chunk when nothing is sealed after it.
-/

namespace IndySdk.Chacha20Poly1305Ietf

open Outcome List
open ChunkedStream
open Wallet (Key Nonce WalletCrypto nonceBytes)

inductive Call where
  | write (buf : Bytes)
  | flush

/-- All bytes that are written. -/
def written : List Call → Bytes
  | [] => []
  | .write buf :: calls => buf ++ written calls
  | .flush :: calls => written calls

/-- Where the stream is flushed, apart from the ends of chunks. -/
def flushesAt (n : ℕ) : ℕ → List Call → List ℕ
  | _, [] => []
  | before, .write buf :: calls => flushesAt n (before + buf.length) calls
  | before, .flush :: calls =>
    if n ∣ before then flushesAt n before calls else before :: flushesAt n before calls

/-- How much of what is written can be read: everything up to the last chunk that was sealed, or up
to the first flush that other chunks follow. -/
def readable (n : ℕ) (calls : List Call) : ℕ :=
  let total := (written calls).length
  match flushesAt n 0 calls with
  | [] => n * (total / n)
  | p :: rest => if rest = [] ∧ total / n = p / n then p else n * (p / n)

variable (wc : WalletCrypto)

namespace Writer

def call (w : Writer) : Call → Writer
  | .write buf => w.write wc buf
  | .flush => w.flush wc

def run (w : Writer) (calls : List Call) : Writer := calls.foldl (call wc) w

/-- The chunks that a write seals, with their nonces. -/
def chunkSeals : ℕ → Writer → List (Bytes × Nonce)
  | 0, _ => []
  | rounds + 1, w =>
    if w.chunkSize ≤ w.buffer.length then
      (w.buffer.take w.chunkSize, w.nonce) :: chunkSeals rounds
        { w with
          buffer := w.buffer.drop w.chunkSize
          inner := w.inner ++ wc.encrypt (w.buffer.take w.chunkSize) w.key w.nonce
          nonce := increment w.nonce }
    else []

def callSeals (w : Writer) : Call → List (Bytes × Nonce)
  | .write buf =>
    chunkSeals wc (w.buffer.length + buf.length) { w with buffer := w.buffer ++ buf }
  | .flush => if 0 < w.buffer.length then [(w.buffer, w.nonce)] else []

/-- All that is sealed in a run. -/
def seals (w : Writer) : List Call → List (Bytes × Nonce)
  | [] => []
  | c :: calls => w.callSeals wc c ++ (w.call wc c).seals calls

end Writer

/-- The bytes that the reads give until one fails, and how it fails. -/
def Reader.deliver : List ℕ → Reader → Bytes × Outcome IoErrorKind Unit
  | [], _ => ([], .ok ())
  | size :: sizes, r =>
    match r.read wc size with
    | .ok (bytes, r) => (bytes ++ (deliver sizes r).1, (deliver sizes r).2)
    | .err e => ([], .err e)
    | .panic => ([], .panic)

def readBack (overflowChecks : Bool) (key : Key) (start : Nonce) (n : ℕ) (calls : List Call)
    (sizes : List ℕ) : Outcome IoErrorKind (Bytes × Outcome IoErrorKind Unit) := do
  let r ← Reader.new overflowChecks ((Writer.new [] key start n).run wc calls).inner key start n
  pure (r.deliver wc sizes)

/-- The stream is read as it was written and then ends, and no nonce is used twice. A write in
chunks of no bytes does not return. -/
structure RoundTrip (overflowChecks : Bool) (key : Key) (start : Nonce) (n : ℕ)
    (calls : List Call) (sizes : List ℕ) : Prop where
  returns : ∀ buf, Call.write buf ∈ calls → 0 < n
  nonces : (((Writer.new [] key start n).seals wc calls).map Prod.snd).Nodup
  delivered : readBack wc overflowChecks key start n calls sizes =
    .ok ((written calls).take sizes.sum,
      if sizes.sum ≤ (written calls).length then .ok () else .err .unexpectedEof)

/-! ### What is sealed -/

/-- The chunks that are sealed from a buffer on, and the buffer that is left. -/
inductive Emits (n : ℕ) : Bytes → List Call → List Bytes → Bytes → Prop where
  | nil (b : Bytes) : Emits n b [] [] b
  | write {b buf b' last : Bytes} {calls : List Call} {chunks log : List Bytes}
    (hcut : b ++ buf = chunks.flatten ++ b') (hfull : Full n chunks) (hlt : b'.length < n)
    (hrest : Emits n b' calls log last) : Emits n b (.write buf :: calls) (chunks ++ log) last
  | idle {last : Bytes} {calls : List Call} {log : List Bytes}
    (hrest : Emits n [] calls log last) : Emits n [] (.flush :: calls) log last
  | flush {b last : Bytes} {calls : List Call} {log : List Bytes} (hne : b ≠ [])
    (hrest : Emits n b calls log last) : Emits n b (.flush :: calls) (b :: log) last

variable {wc}

theorem Writer.writeChunks_eq {rounds : ℕ} {w : Writer} (hpos : 0 < w.chunkSize)
    (hrounds : w.buffer.length ≤ rounds) :
    ∃ chunks last, Full w.chunkSize chunks ∧ w.buffer = chunks.flatten ++ last ∧
      last.length < w.chunkSize ∧ (w.chunkSeals wc rounds).map Prod.fst = chunks ∧
      (w.chunkSeals wc rounds).map Prod.snd = List.iterate increment w.nonce chunks.length ∧
      w.writeChunks wc rounds = { w with
        buffer := last
        nonce := increment^[chunks.length] w.nonce
        inner := w.inner ++ sealAll (sealing wc w.key) increment w.nonce chunks } := by
  induction rounds generalizing w with
  | zero =>
    have hnil : w.buffer = [] := length_eq_zero_iff.mp (Nat.le_zero.mp hrounds)
    refine ⟨[], w.buffer, fun c hc => absurd hc not_mem_nil, rfl, by rwa [hnil], rfl, rfl, ?_⟩
    rw [Writer.writeChunks, sealAll, append_nil]
    rfl
  | succ rounds ih =>
    rw [Writer.writeChunks, Writer.chunkSeals]
    split
    · rename_i hle
      have hshort : (w.buffer.drop w.chunkSize).length ≤ rounds := by
        rw [length_drop]
        omega
      obtain ⟨chunks, last, hfull, hbuffer, hlt, hfst, hsnd, heq⟩ := @ih { w with
        buffer := w.buffer.drop w.chunkSize
        inner := w.inner ++ wc.encrypt (w.buffer.take w.chunkSize) w.key w.nonce
        nonce := increment w.nonce } hpos hshort
      refine ⟨w.buffer.take w.chunkSize :: chunks, last, ?_, ?_, hlt, ?_, ?_, ?_⟩
      · exact forall_mem_cons.mpr ⟨length_take_of_le hle, hfull⟩
      · rw [flatten_cons, append_assoc, ← hbuffer, take_append_drop]
      · rw [map_cons, hfst]
      · rw [map_cons, hsnd]
        rfl
      · rw [heq, sealAll, append_assoc]
        rfl
    · rename_i hlt
      refine ⟨[], w.buffer, fun c hc => absurd hc not_mem_nil, rfl, not_le.mp hlt, rfl, rfl,
        ?_⟩
      rw [sealAll, append_nil]
      rfl

/-- What a run seals is given by the buffer and the calls. -/
theorem Writer.run_emits {w : Writer} (hpos : 0 < w.chunkSize)
    (hlt : w.buffer.length < w.chunkSize) (calls : List Call) :
    ∃ log last, Emits w.chunkSize w.buffer calls log last ∧
      (w.seals wc calls).map Prod.fst = log ∧
      (w.seals wc calls).map Prod.snd = List.iterate increment w.nonce log.length ∧
      (w.run wc calls).inner =
        w.inner ++ sealAll (sealing wc w.key) increment w.nonce log := by
  induction calls generalizing w with
  | nil => exact ⟨[], w.buffer, .nil _, rfl, rfl, (append_nil _).symm⟩
  | cons c calls ih =>
    rw [Writer.seals, map_append, map_append]
    cases c with
    | write buf =>
      obtain ⟨chunks, b', hfull, hcut, hshort, hfst, hsnd, heq⟩ :=
        @Writer.writeChunks_eq wc (w.buffer.length + buf.length)
          { w with buffer := w.buffer ++ buf } hpos length_append.le
      have hcall : w.call wc (.write buf) = { w with
          buffer := b'
          nonce := increment^[chunks.length] w.nonce
          inner := w.inner ++ sealAll (sealing wc w.key) increment w.nonce chunks } := heq
      obtain ⟨log, last, hemits, hfst', hsnd', hinner⟩ := ih (w := w.call wc (.write buf))
        (by rw [hcall]; exact hpos) (by rw [hcall]; exact hshort)
      have hrun : w.run wc (.write buf :: calls) = (w.call wc (.write buf)).run wc calls := rfl
      rw [hrun]
      rw [hcall] at hemits hfst' hsnd' hinner ⊢
      refine ⟨chunks ++ log, last, .write hcut hfull hshort hemits, ?_, ?_, ?_⟩
      · rw [← hfst']
        exact congrArg (· ++ _) hfst
      · rw [hsnd', length_append, iterate_add]
        exact congrArg (· ++ _) hsnd
      · rw [hinner, sealAll_append, append_assoc]
    | flush =>
      by_cases hnil : w.buffer = []
      · have hcall : w.call wc .flush = w := if_neg (by rw [hnil]; exact Nat.lt_irrefl 0)
        have hseals : w.callSeals wc .flush = [] := if_neg (by rw [hnil]; exact Nat.lt_irrefl 0)
        obtain ⟨log, last, hemits, hfst, hsnd, hinner⟩ := ih hpos hlt
        rw [hnil] at hemits ⊢
        refine ⟨log, last, .idle hemits, ?_, ?_, ?_⟩
        · rw [hseals, hcall]
          exact hfst
        · rw [hseals, hcall]
          exact hsnd
        · rw [← hinner, Writer.run, foldl_cons, hcall]
          rfl
      · have hsome : 0 < w.buffer.length := length_pos_iff.mpr hnil
        have hcall : w.call wc .flush = { w with
            inner := w.inner ++ wc.encrypt w.buffer w.key w.nonce
            nonce := increment w.nonce } := if_pos hsome
        have hseals : w.callSeals wc .flush = [(w.buffer, w.nonce)] := if_pos hsome
        obtain ⟨log, last, hemits, hfst, hsnd, hinner⟩ := ih (w := w.call wc .flush)
          (by rw [hcall]; exact hpos) (by rw [hcall]; exact hlt)
        have hrun : w.run wc (.flush :: calls) = (w.call wc .flush).run wc calls := rfl
        rw [hrun, hseals]
        rw [hcall] at hemits hfst hsnd hinner ⊢
        refine ⟨w.buffer :: log, last, .flush hnil hemits, ?_, ?_, ?_⟩
        · exact congrArg (w.buffer :: ·) hfst
        · exact congrArg (w.nonce :: ·) hsnd
        · rw [hinner, sealAll, append_assoc]
          rfl

theorem flushesAt_flush {n q : ℕ} {b : Bytes} (calls : List Call) (hlt : b.length < n) :
    flushesAt n (n * q + b.length) (.flush :: calls) =
      if b = [] then flushesAt n (n * q + b.length) calls
      else (n * q + b.length) :: flushesAt n (n * q + b.length) calls := by
  have hdvd : n ∣ n * q + b.length ↔ b = [] := by
    rw [(Nat.dvd_add_right (Nat.dvd_mul_right n q)), ← length_eq_zero_iff]
    refine ⟨fun h => ?_, fun h => h ▸ Nat.dvd_zero n⟩
    exact Nat.eq_zero_of_dvd_of_lt h hlt
  rw [flushesAt]
  simp only [hdvd]

section Emits

variable {n q : ℕ} {b last : Bytes} {calls : List Call} {log : List Bytes}

theorem cut_position {buf b' : Bytes} {chunks : List Bytes} (q : ℕ)
    (hcut : b ++ buf = chunks.flatten ++ b') (hfull : Full n chunks) :
    n * q + b.length + buf.length = n * (q + chunks.length) + b'.length := by
  have hlength := congrArg List.length hcut
  rw [length_append, length_append, hfull.length_flatten] at hlength
  rw [Nat.mul_add]
  omega

theorem Emits.count (h : Emits n b calls log last) (hlt : b.length < n) (q : ℕ) :
    log.length + q = (n * q + b.length + (written calls).length) / n +
      (flushesAt n (n * q + b.length) calls).length := by
  induction h generalizing q with
  | nil b =>
    rw [written, flushesAt]
    simp only [length_nil, Nat.add_zero, Nat.zero_add]
    rw [Nat.mul_add_div (by omega), Nat.div_eq_of_lt hlt, Nat.add_zero]
  | @write b buf b' last calls chunks log hcut hfull hshort hrest ih =>
    have hposition := cut_position q hcut hfull
    have hih := ih hshort (q + chunks.length)
    rw [← hposition] at hih
    rw [written, flushesAt, length_append, length_append, ← Nat.add_assoc]
    omega
  | idle hrest ih =>
    rw [flushesAt_flush _ hlt, if_pos rfl]
    exact ih hlt q
  | @flush b last calls log hne hrest ih =>
    have hih := ih hlt q
    rw [flushesAt_flush _ hlt, if_neg hne, length_cons, length_cons, written]
    omega

theorem Emits.whole (h : Emits n b calls log last) (hlt : b.length < n)
    (hnone : flushesAt n (n * q + b.length) calls = []) :
    Full n log ∧ b ++ written calls = log.flatten ++ last ∧ last.length < n := by
  induction h generalizing q with
  | nil b => exact ⟨fun c hc => absurd hc not_mem_nil, append_nil b, hlt⟩
  | write hcut hfull hshort hrest ih =>
    rw [flushesAt, cut_position q hcut hfull] at hnone
    obtain ⟨hlog, hbytes, hlast⟩ := ih hshort hnone
    refine ⟨fun c hc => (mem_append.mp hc).elim (hfull c) (hlog c), ?_, hlast⟩
    rw [written, ← append_assoc, hcut, append_assoc, hbytes, flatten_append,
      append_assoc]
  | idle hrest ih =>
    rw [flushesAt_flush _ hlt, if_pos rfl] at hnone
    exact ih hlt hnone
  | flush hne hrest ih =>
    rw [flushesAt_flush _ hlt, if_neg hne] at hnone
    cases hnone

theorem Emits.broken {p : ℕ} {rest : List ℕ} (h : Emits n b calls log last) (hlt : b.length < n)
    (hsome : flushesAt n (n * q + b.length) calls = p :: rest) :
    ∃ chunks tail later more, log = chunks ++ tail :: later ∧ Full n chunks ∧
      b ++ written calls = (chunks.flatten ++ tail) ++ more ∧
      p = n * (q + chunks.length) + tail.length ∧ tail ≠ [] ∧ tail.length < n := by
  induction h generalizing q with
  | nil b => cases hsome
  | @write b buf b' last calls chunks log hcut hfull hshort hrest ih =>
    rw [flushesAt, cut_position q hcut hfull] at hsome
    obtain ⟨more, tail, later, behind, rfl, hmore, hbytes, hp, hne, htail⟩ := ih hshort hsome
    refine ⟨chunks ++ more, tail, later, behind, ?_, ?_, ?_, ?_, hne, htail⟩
    · rw [append_assoc]
    · exact fun c hc => (mem_append.mp hc).elim (hfull c) (hmore c)
    · rw [written, ← append_assoc, hcut, append_assoc, hbytes, flatten_append]
      simp only [append_assoc]
    · rw [hp, length_append, Nat.add_assoc]
  | idle hrest ih =>
    rw [flushesAt_flush _ hlt, if_pos rfl] at hsome
    exact ih hlt hsome
  | @flush b last calls log hne hrest ih =>
    rw [flushesAt_flush _ hlt, if_neg hne] at hsome
    cases hsome
    exact ⟨[], b, log, written calls, rfl, fun c hc => absurd hc not_mem_nil, rfl, rfl, hne,
      hlt⟩

end Emits

/-- What can be read of the output: chunks whose bytes are the readable ones, and behind them
nothing or a piece that is longer than the text that was sealed at its front. -/
theorem Emits.exists_readable {n : ℕ} {calls : List Call} {log : List Bytes} {last : Bytes}
    (h : Emits n [] calls log last) (hpos : 0 < n) :
    ∃ chunks later, log = chunks ++ later ∧ Cut n chunks ∧
      chunks.flatten = (written calls).take (readable n calls) ∧
      readable n calls ≤ (written calls).length ∧
      (later = [] ∨ Full n chunks ∧ readable n calls < (written calls).length ∧
        ∃ tail second more, later = tail :: second :: more ∧ tail.length < n) := by
  have hcount := h.count hpos 0
  simp only [Nat.mul_zero, length_nil, Nat.zero_add, Nat.add_zero] at hcount
  cases hflushes : flushesAt n 0 calls with
  | nil =>
    obtain ⟨hfull, hbytes, hlast⟩ := @Emits.whole n 0 _ _ _ _ h hpos hflushes
    have hread : readable n calls = log.flatten.length := by
      rw [readable, hflushes, hfull.length_flatten, hcount, hflushes]
      rfl
    rw [nil_append] at hbytes
    refine ⟨log, [], (append_nil _).symm, .of_full hpos hfull, ?_, ?_, .inl rfl⟩
    · rw [hread, hbytes, take_left]
    · rw [hread, hbytes, length_append]
      exact Nat.le_add_right _ _
  | cons p rest =>
    obtain ⟨chunks, tail, later, more, rfl, hfull, hbytes, hp, hne, htail⟩ :=
      @Emits.broken n 0 _ _ _ _ p rest h hpos hflushes
    rw [nil_append] at hbytes
    rw [Nat.zero_add] at hp
    have hdiv : p / n = chunks.length := by
      rw [hp, Nat.mul_add_div hpos, Nat.div_eq_of_lt htail, Nat.add_zero]
    have hlength : p ≤ (written calls).length := by
      rw [hbytes, length_append, length_append, hfull.length_flatten, hp]
      exact Nat.le_add_right _ _
    have hpositive : 0 < tail.length := length_pos_iff.mpr hne
    have hlater : later.length + p / n = (written calls).length / n + rest.length := by
      rw [hflushes, length_append, length_cons, length_cons] at hcount
      omega
    cases later with
    | nil =>
      have hdivle : p / n ≤ (written calls).length / n := Nat.div_le_div_right hlength
      have hread : readable n calls = p := by
        rw [length_nil] at hlater
        rw [readable, hflushes]
        exact if_pos ⟨length_eq_zero_iff.mp (by omega), by omega⟩
      refine ⟨chunks ++ [tail], [], (append_nil _).symm,
        .of_full_append hpos hfull hne htail.le, ?_, hread.trans_le hlength, .inl rfl⟩
      have hsize : (chunks.flatten ++ tail).length = p := by
        rw [length_append, hfull.length_flatten, hp]
      rw [hread, hbytes, take_left' hsize, flatten_append, flatten_singleton]
    | cons second later =>
      have hread : readable n calls = n * chunks.length := by
        rw [length_cons] at hlater
        rw [readable, hflushes, ← hdiv]
        refine if_neg ?_
        rintro ⟨rfl, hsame⟩
        rw [length_nil] at hlater
        omega
      refine ⟨chunks, tail :: second :: later, rfl, .of_full hpos hfull, ?_, by omega,
        Or.inr ⟨hfull, by omega, tail, second, later, rfl, htail⟩⟩
      rw [hread, hbytes, append_assoc, ← hfull.length_flatten, take_left]

/-! ### What is read -/

namespace Reader

variable {n : ℕ} {extra : Bytes} {r : Reader} {chunks : List Bytes} {e : IoErrorKind}

/-- What a reader reports behind the chunks: nothing is left, or a piece that does not open. -/
def Stops (wc : WalletCrypto) (n : ℕ) (extra : Bytes) (key : Key) (nonce : Nonce)
    (e : IoErrorKind) : Prop :=
  extra = [] ∧ e = .unexpectedEof ∨
    extra ≠ [] ∧ wc.decrypt (extra.take (n + tagBytes)) key nonce = none ∧ e = .invalidData

/-- No bytes are given when more are needed than there are chunks for. -/
theorem Ahead.fill_stops (hlengths : SealLengths wc) {rounds need : ℕ}
    (h : r.Ahead wc n extra chunks) (hrounds : r.inner.length ≤ rounds)
    (hneed : chunks.flatten.length < need)
    (hstops : Stops wc n extra r.key (increment^[chunks.length] r.nonce) e) :
    Reader.fill wc rounds need r = .err e := by
  induction chunks generalizing r rounds need with
  | nil =>
    obtain ⟨need, rfl⟩ := Nat.exists_eq_succ_of_ne_zero (Nat.ne_of_gt (Nat.zero_lt_of_lt hneed))
    have hinner : r.inner = extra := h.inner
    obtain ⟨hextra, rfl⟩ | ⟨hextra, hclosed, rfl⟩ := hstops
    · cases rounds with
      | zero => rfl
      | succ rounds =>
        rw [Reader.fill, Reader.readChunk, hinner, hextra, take_nil, if_pos rfl, err_bind]
    · have hne : extra.take (n + tagBytes) ≠ [] := by
        rw [Ne, take_eq_nil_iff, not_or]
        exact ⟨Nat.ne_of_gt (Nat.lt_of_lt_of_le (by decide : 0 < tagBytes) (Nat.le_add_left _ _)),
          hextra⟩
      cases rounds with
      | zero =>
        rw [hinner] at hrounds
        exact absurd (length_eq_zero_iff.mp (Nat.le_zero.mp hrounds)) hextra
      | succ rounds =>
        rw [Reader.fill, Reader.readChunk, hinner, h.size, if_neg hne, ok_bind]
        rw [show wc.decrypt (extra.take (n + tagBytes)) r.key r.nonce = none from hclosed]
  | cons chunk chunks ih =>
    obtain ⟨need, rfl⟩ := Nat.exists_eq_succ_of_ne_zero (Nat.ne_of_gt (Nat.zero_lt_of_lt hneed))
    have hless := h.keepRest_lt hlengths (need + 1)
    cases rounds with
    | zero => omega
    | succ rounds =>
      rw [flatten_cons, length_append] at hneed
      have hopen : wc.decrypt (sealing wc r.key r.nonce chunk) r.key r.nonce = some chunk :=
        wc.decrypt_encrypt chunk r.key r.nonce
      rw [Reader.fill, (h.readChunk hlengths).1, ok_bind, hopen]
      dsimp only
      rw [ih (h.keepRest hlengths (need + 1)) (Nat.le_of_lt_succ (hless.trans_le hrounds))
        (by omega) hstops, err_bind]

/-- What is still to be read of a stream, and what is reported behind it. -/
def YieldsThen (wc : WalletCrypto) (n : ℕ) (extra : Bytes) (r : Reader) (pending : Bytes)
    (e : IoErrorKind) : Prop :=
  ∃ chunks, r.Ahead wc n extra chunks ∧ pending = r.restBuffer ++ chunks.flatten ∧
    Stops wc n extra r.key (increment^[chunks.length] r.nonce) e

theorem YieldsThen.read (hlengths : SealLengths wc) {pending : Bytes}
    (h : r.YieldsThen wc n extra pending e) (length : ℕ) :
    (length ≤ pending.length → ∃ r', r.read wc length = .ok (pending.take length, r') ∧
      r'.YieldsThen wc n extra (pending.drop length) e) ∧
    (pending.length < length → r.read wc length = .err e) := by
  obtain ⟨chunks, hahead, rfl, hstops⟩ := h
  rw [length_append]
  have hstart : ({ r with restBuffer := r.restBuffer.drop length } : Reader).Ahead wc n extra
      chunks := ⟨hahead.size, hahead.cut, hahead.inner, hahead.closed⟩
  refine ⟨fun hle => ?_, fun hlt => ?_⟩
  · obtain ⟨r', chunks', hfill, hahead', hkey, hnonce, hleft⟩ := hstart.fill hlengths
      (le_refl _) (by omega : length - r.restBuffer.length ≤ chunks.flatten.length)
      (fun hne => drop_of_length_le (by omega))
    refine ⟨r', ?_, chunks', hahead', ?_, ?_⟩
    · rw [Reader.read, hfill, ok_bind, take_append]
      rfl
    · rw [hleft, drop_append]
    · rw [hkey, hnonce]
      exact hstops
  · have hfill := hstart.fill_stops hlengths (le_refl _)
      (by omega : chunks.flatten.length < length - r.restBuffer.length) hstops
    rw [Reader.read, hfill, err_bind]

theorem YieldsThen.deliver (hlengths : SealLengths wc) {pending : Bytes}
    (h : r.YieldsThen wc n extra pending e) (sizes : List ℕ) :
    (sizes.sum ≤ pending.length → r.deliver wc sizes = (pending.take sizes.sum, .ok ())) ∧
    (pending.length < sizes.sum → ∃ k, (sizes.take k).sum ≤ pending.length ∧
      pending.length < (sizes.take (k + 1)).sum ∧
      r.deliver wc sizes = (pending.take (sizes.take k).sum, .err e)) := by
  induction sizes generalizing r pending with
  | nil => exact ⟨fun _ => rfl, fun hlt => absurd hlt (Nat.not_lt_zero _)⟩
  | cons size sizes ih =>
    obtain ⟨hok, herr⟩ := h.read hlengths size
    rw [Reader.deliver, sum_cons]
    by_cases hle : size ≤ pending.length
    · obtain ⟨r', hread, h'⟩ := hok hle
      obtain ⟨hall, hsome⟩ := ih h'
      rw [length_drop] at hall hsome
      rw [hread]
      dsimp only
      refine ⟨fun hsum => ?_, fun hsum => ?_⟩
      · rw [hall (by omega), take_add]
      · obtain ⟨k, hk, hk', heq⟩ := hsome (by omega)
        refine ⟨k + 1, ?_, ?_, ?_⟩
        · rw [take_succ_cons, sum_cons]
          omega
        · rw [take_succ_cons, sum_cons]
          omega
        · rw [heq, take_succ_cons, sum_cons, take_add]
    · rw [herr (by omega)]
      exact ⟨fun hsum => absurd hsum (by omega), fun _ => ⟨0, Nat.zero_le _, by
        rw [take_succ_cons, sum_cons]
        omega, rfl⟩⟩

theorem deliver_of_err {inner : Bytes} {size : ℕ} {key : Key} {nonce : Nonce}
    (herr : ∀ length, 0 < length → Reader.read wc ⟨[], size, key, nonce, inner⟩ length = .err e)
    (sizes : List ℕ) : Reader.deliver wc sizes ⟨[], size, key, nonce, inner⟩ =
      ([], if sizes.sum = 0 then .ok () else .err e) := by
  induction sizes with
  | nil => rfl
  | cons length sizes ih =>
    rw [Reader.deliver, sum_cons]
    cases length with
    | zero =>
      have hread : Reader.read wc ⟨[], size, key, nonce, inner⟩ 0 =
          .ok ([], ⟨[], size, key, nonce, inner⟩) := by
        rw [Reader.read, length_nil, Reader.fill, ok_bind]
        rfl
      rw [hread]
      dsimp only
      rw [ih, Nat.zero_add, nil_append]
    | succ length =>
      rw [herr (length + 1) (Nat.succ_pos length), if_neg (by omega)]

/-- The bytes are given as they were written, and then the end, if the stream can be read up to
there, or to its end by whole reads. -/
theorem YieldsThen.deliver_eq_iff (hlengths : SealLengths wc) {data : Bytes} {m : ℕ}
    (h : r.YieldsThen wc n extra (data.take m) e) (hm : m ≤ data.length)
    (hend : m = data.length → e = .unexpectedEof) (sizes : List ℕ) :
    r.deliver wc sizes = (data.take sizes.sum,
        if sizes.sum ≤ data.length then .ok () else .err .unexpectedEof) ↔
      sizes.sum ≤ m ∨ m = data.length ∧ ∃ k, (sizes.take k).sum = data.length := by
  obtain ⟨hall, hsome⟩ := h.deliver hlengths sizes
  rw [length_take_of_le hm] at hall hsome
  by_cases hsum : sizes.sum ≤ m
  · rw [hall hsum, take_take, min_eq_left hsum, if_pos (hsum.trans hm)]
    exact iff_of_true rfl (.inl hsum)
  · obtain ⟨k, hk, hk', heq⟩ := hsome (not_le.mp hsum)
    rw [heq, take_take, min_eq_left hk, Prod.mk.injEq, or_iff_right hsum]
    constructor
    · rintro ⟨hbytes, hresult⟩
      have hlong : data.length < sizes.sum := by
        by_contra hle
        rw [if_pos (not_lt.mp hle)] at hresult
        cases hresult
      have hlength := congrArg List.length hbytes
      rw [length_take_of_le (hk.trans hm), take_of_length_le hlong.le] at hlength
      exact ⟨by omega, k, hlength⟩
    · rintro ⟨rfl, k', hk''⟩
      -- a read that ends at the end of the stream is before the read that fails
      have hle : k' ≤ k := by
        by_contra hlt
        have hsplit : sizes.take k' =
            sizes.take (k + 1) ++ (sizes.drop (k + 1)).take (k' - (k + 1)) := by
          rw [← take_add, Nat.add_sub_cancel' (not_le.mp hlt)]
        rw [hsplit, sum_append] at hk''
        omega
      have hsplit : sizes.take k = sizes.take k' ++ (sizes.drop k').take (k - k') := by
        rw [← take_add, Nat.add_sub_cancel' hle]
      have hsame : (sizes.take k).sum = data.length := by
        rw [hsplit, sum_append] at hk ⊢
        omega
      refine ⟨?_, ?_⟩
      · rw [hsame, take_length, take_of_length_le (not_le.mp hsum).le]
      · rw [if_neg hsum, hend rfl]

end Reader

/-! ### The round trip -/

theorem nodup_iterate_increment (start : Nonce) (count : ℕ) :
    (List.iterate increment start count).Nodup ↔ count ≤ 256 ^ nonceBytes := by
  rw [← range_map_iterate, nodup_map_iff_inj_on nodup_range]
  constructor
  · intro hinj
    by_contra hlt
    have hperiod : increment^[256 ^ nonceBytes] start = start := by
      have hbytes : LittleEndian.increment^[256 ^ nonceBytes] start.bytes = start.bytes := by
        obtain ⟨hlength, hvalue⟩ :=
          LittleEndian.value_iterate_increment start.bytes (256 ^ nonceBytes)
        refine LittleEndian.value_injective hlength ?_
        rw [hvalue, start.length_eq, Nat.add_mod_right, ← start.length_eq]
        exact Nat.mod_eq_of_lt (LittleEndian.value_lt _)
      rw [← Reader.iterate_increment_bytes] at hbytes
      cases hend : increment^[256 ^ nonceBytes] start
      rw [hend] at hbytes
      cases start
      rw [Nonce.mk.injEq]
      exact hbytes
    have hzero := hinj (256 ^ nonceBytes) (mem_range.mpr (not_le.mp hlt)) 0
      (mem_range.mpr (Nat.zero_lt_of_lt (not_le.mp hlt))) hperiod
    exact absurd hzero (by decide)
  · intro hle i hi j hj heq
    exact Reader.iterate_increment_injective ((mem_range.mp hi).trans_le hle)
      ((mem_range.mp hj).trans_le hle) heq

section

variable {n : ℕ} {calls : List Call} {log : List Bytes} {last : Bytes} {key : Key} {start : Nonce}

/-- What a reader of the output yields. -/
theorem Emits.yieldsThen (hlengths : SealLengths wc) (hpos : 0 < n)
    (h : Emits n [] calls log last) (hcount : log.length ≤ 256 ^ nonceBytes)
    (hopens : Reader.OpensOnly wc key start log
      (sealAll (sealing wc key) increment start log)) :
    ∃ extra e, Reader.YieldsThen wc n extra ⟨[], n + tagBytes, key, start,
        sealAll (sealing wc key) increment start log⟩ ((written calls).take (readable n calls)) e ∧
      readable n calls ≤ (written calls).length ∧
      (readable n calls = (written calls).length → e = .unexpectedEof) := by
  obtain ⟨chunks, later, rfl, hcut, hflatten, hle, hlater⟩ := h.exists_readable hpos
  rw [sealAll_append] at hopens ⊢
  rw [← hflatten]
  obtain rfl | ⟨hfull, hlt, tail, second, more, rfl, htail⟩ := hlater
  · exact ⟨[], .unexpectedEof, ⟨chunks, ⟨rfl, hcut, rfl, .inl rfl⟩, rfl, .inl ⟨rfl, rfl⟩⟩, hle,
      fun _ => rfl⟩
  · refine ⟨_, .invalidData, ⟨chunks, ⟨rfl, hcut, rfl, .inr hfull⟩, rfl, .inr ⟨?_, ?_, rfl⟩⟩,
      hle, fun heq => absurd heq hlt.ne⟩
    · have hsealed : (sealing wc key (increment^[chunks.length] start) tail).length =
          tail.length + tagBytes := hlengths tail key _
      intro hnil
      rw [sealAll, append_eq_nil_iff, ← length_eq_zero_iff, hsealed] at hnil
      exact absurd hnil.1 (Nat.succ_ne_zero _)
    · -- the piece at the front is longer than the sealed buffer, whose nonce it would have
      rw [Option.eq_none_iff_forall_ne_some]
      intro data hopen
      obtain ⟨j, hj, hnonce, hpiece⟩ := hopens _ _ data
        ((List.take_prefix _ _).isInfix.trans (suffix_append _ _).isInfix) hopen
      obtain ⟨hjlt, -⟩ := List.getElem?_eq_some_iff.mp hj
      have hsame : chunks.length = j := by
        refine Reader.iterate_increment_injective ?_ (hjlt.trans_le hcount) hnonce
        rw [length_append, length_cons] at hcount
        omega
      subst hsame
      rw [getElem?_append_right (le_refl _), Nat.sub_self, getElem?_cons_zero,
        Option.some_inj] at hj
      subst hj
      have htailLength : (sealing wc key (increment^[chunks.length] start) tail).length =
          tail.length + tagBytes := hlengths tail key _
      have hsecondLength : (sealing wc key (increment (increment^[chunks.length] start))
          second).length = second.length + tagBytes := hlengths second key _
      have hlength := congrArg List.length hpiece
      rw [length_take, sealAll, sealAll] at hlength
      simp only [length_append, htailLength, hsecondLength] at hlength
      have htag : 0 < tagBytes := by decide
      omega

variable {overflowChecks : Bool} {sizes : List ℕ}

/-- A buffer whose length starts over at zero is too small for any chunk. -/
theorem deliver_of_short (hlengths : SealLengths wc)
    (hopens : Reader.OpensOnly wc key start log
      (sealAll (sealing wc key) increment start log)) {size : ℕ} (hsize : size < tagBytes) :
    ∃ e, (log = [] → e = .unexpectedEof) ∧
      Reader.deliver wc sizes ⟨[], size, key, start,
        sealAll (sealing wc key) increment start log⟩ =
          ([], if sizes.sum = 0 then .ok () else .err e) := by
  by_cases hnil : (sealAll (sealing wc key) increment start log).take size = []
  · refine ⟨.unexpectedEof, fun _ => rfl, Reader.deliver_of_err (fun length hlength => ?_) sizes⟩
    obtain ⟨length, rfl⟩ := Nat.exists_eq_succ_of_ne_zero hlength.ne'
    rw [Reader.read, length_nil, Nat.sub_zero]
    cases hinner : (sealAll (sealing wc key) increment start log).length with
    | zero => rfl
    | succ rounds =>
      rw [Reader.fill, Reader.readChunk, if_pos hnil]
      rfl
  · refine ⟨.invalidData, ?_, Reader.deliver_of_err (fun length hlength => ?_) sizes⟩
    · rintro rfl
      exact absurd take_nil hnil
    · obtain ⟨length, rfl⟩ := Nat.exists_eq_succ_of_ne_zero hlength.ne'
      have hclosed : wc.decrypt ((sealAll (sealing wc key) increment start log).take size) key
          start = none := by
        rw [Option.eq_none_iff_forall_ne_some]
        intro data hopen
        obtain ⟨j, hj, -, hpiece⟩ :=
          hopens _ _ data (List.take_prefix _ _).isInfix hopen
        have hsealed : (sealing wc key start data).length = data.length + tagBytes :=
          hlengths data key start
        have hlength := length_take_le size (sealAll (sealing wc key) increment start log)
        rw [hpiece, hsealed] at hlength
        omega
      rw [Reader.read, length_nil, Nat.sub_zero]
      cases hinner : (sealAll (sealing wc key) increment start log).length with
      | zero =>
        rw [length_eq_zero_iff.mp hinner, take_nil] at hnil
        exact absurd rfl hnil
      | succ rounds =>
        rw [Reader.fill, Reader.readChunk, if_neg hnil, ok_bind]
        dsimp only
        rw [hclosed]
        rfl

theorem flushesAt_of_written_nil (h : written calls = []) : flushesAt n 0 calls = [] := by
  induction calls with
  | nil => rfl
  | cons c calls ih =>
    cases c with
    | write buf =>
      obtain ⟨hbuf, hwritten⟩ := append_eq_nil_iff.mp h
      rw [flushesAt, hbuf]
      exact ih hwritten
    | flush =>
      rw [flushesAt, if_pos (Nat.dvd_zero n)]
      exact ih h

theorem run_of_not_mem {w : Writer} (hw : w.buffer = []) (h : ∀ buf, Call.write buf ∉ calls) :
    written calls = [] ∧ w.run wc calls = w ∧ w.seals wc calls = [] := by
  induction calls with
  | nil => exact ⟨rfl, rfl, rfl⟩
  | cons c calls ih =>
    cases c with
    | write buf => exact absurd mem_cons_self (h buf)
    | flush =>
      obtain ⟨hwritten, hrun, hseals⟩ := ih (fun buf hmem => h buf (mem_cons_of_mem _ hmem))
      have hnot : ¬ 0 < w.buffer.length := by rw [hw]; exact Nat.lt_irrefl 0
      have hcall : w.call wc .flush = w := if_neg hnot
      have hnone : w.callSeals wc .flush = [] := if_neg hnot
      refine ⟨hwritten, ?_, ?_⟩
      · rw [Writer.run, foldl_cons, hcall]
        exact hrun
      · rw [Writer.seals, hcall, hnone, hseals, nil_append]

theorem run_spec (hlengths : SealLengths wc) (hreturns : ∀ buf, Call.write buf ∈ calls → 0 < n) :
    ∃ log, ((Writer.new [] key start n).seals wc calls).map Prod.fst = log ∧
      ((Writer.new [] key start n).seals wc calls).map Prod.snd =
        List.iterate increment start log.length ∧
      ((Writer.new [] key start n).run wc calls).inner =
        sealAll (sealing wc key) increment start log ∧
      log.length = (written calls).length / n + (flushesAt n 0 calls).length ∧
      (Reader.OpensOnly wc key start log (sealAll (sealing wc key) increment start log) →
        log.length ≤ 256 ^ nonceBytes → ∃ extra e, Reader.YieldsThen wc n extra
          ⟨[], n + tagBytes, key, start, sealAll (sealing wc key) increment start log⟩
          ((written calls).take (readable n calls)) e ∧
        readable n calls ≤ (written calls).length ∧
        (readable n calls = (written calls).length → e = .unexpectedEof)) := by
  by_cases hpos : 0 < n
  · obtain ⟨log, last, hemits, hfst, hsnd, hinner⟩ :=
      @Writer.run_emits wc (Writer.new [] key start n) hpos hpos calls
    have hemits : Emits n [] calls log last := hemits
    have hcount := hemits.count hpos 0
    simp only [Nat.mul_zero, Nat.add_zero, Nat.zero_add, length_nil] at hcount
    exact ⟨log, hfst, hsnd, hinner, hcount,
      fun hopens hle => hemits.yieldsThen hlengths hpos hle hopens⟩
  · obtain ⟨hwritten, hrun, hseals⟩ := @run_of_not_mem wc calls (Writer.new [] key start n) rfl
      (fun buf hmem => hpos (hreturns buf hmem))
    have hnone := flushesAt_of_written_nil (n := n) hwritten
    have hread : readable n calls = 0 := by
      rw [readable, hnone, hwritten]
      simp
    rw [hrun, hseals, hread, hnone, hwritten]
    refine ⟨[], rfl, rfl, rfl, (Nat.zero_div n).symm, fun _ _ => ⟨[], .unexpectedEof,
      ⟨[], ⟨rfl, .nil, rfl, .inl rfl⟩, rfl, .inl ⟨rfl, rfl⟩⟩, le_refl _, fun _ => rfl⟩⟩

theorem short_iff {e : IoErrorKind} (hcount : log.length = (written calls).length / n +
      (flushesAt n 0 calls).length) (hempty : log = [] → e = .unexpectedEof) :
    (.ok ([], if sizes.sum = 0 then .ok () else .err e) :
        Outcome IoErrorKind (Bytes × Outcome IoErrorKind Unit)) =
      .ok ((written calls).take sizes.sum,
        if sizes.sum ≤ (written calls).length then .ok () else .err .unexpectedEof) ↔
      sizes.sum = 0 ∨ (written calls).length = 0 := by
  rw [Outcome.ok.injEq, Prod.mk.injEq]
  by_cases hsum : sizes.sum = 0
  · rw [hsum, if_pos rfl, if_pos (Nat.zero_le _)]
    exact iff_of_true ⟨rfl, rfl⟩ (.inl rfl)
  · rw [if_neg hsum, or_iff_right hsum]
    by_cases hle : sizes.sum ≤ (written calls).length
    · rw [if_pos hle]
      exact iff_of_false (by rintro ⟨-, ⟨⟩⟩) (by omega)
    · rw [if_neg hle, take_of_length_le (not_le.mp hle).le, length_eq_zero_iff]
      constructor
      · exact fun h => h.1.symm
      · intro hnil
        rw [hnil, flushesAt_of_written_nil hnil, length_nil, Nat.zero_div] at hcount
        rw [hempty (length_eq_zero_iff.mp hcount), hnil]
        exact ⟨rfl, rfl⟩

theorem roundTrip_iff (hlengths : SealLengths wc) (hword : n < 2 ^ 64)
    (hopens : Reader.OpensOnly wc key start (((Writer.new [] key start n).seals wc calls).map
      Prod.fst) ((Writer.new [] key start n).run wc calls).inner) :
    RoundTrip wc overflowChecks key start n calls sizes ↔
      (∀ buf, Call.write buf ∈ calls → 0 < n) ∧
      (written calls).length / n + (flushesAt n 0 calls).length ≤ 256 ^ nonceBytes ∧
      (n + tagBytes < 2 ^ 63 ∧ (sizes.sum ≤ readable n calls ∨
          readable n calls = (written calls).length ∧
            ∃ k, (sizes.take k).sum = (written calls).length) ∨
        overflowChecks = false ∧ 2 ^ 64 ≤ n + tagBytes ∧
          (sizes.sum = 0 ∨ (written calls).length = 0)) := by
  have hparts : RoundTrip wc overflowChecks key start n calls sizes ↔
      (∀ buf, Call.write buf ∈ calls → 0 < n) ∧
      (((Writer.new [] key start n).seals wc calls).map Prod.snd).Nodup ∧
      readBack wc overflowChecks key start n calls sizes = .ok ((written calls).take sizes.sum,
        if sizes.sum ≤ (written calls).length then .ok () else .err .unexpectedEof) :=
    ⟨fun h => ⟨h.returns, h.nonces, h.delivered⟩, fun h => ⟨h.1, h.2.1, h.2.2⟩⟩
  rw [hparts]
  refine and_congr_right fun hreturns => ?_
  obtain ⟨log, hlog, hnonces, hinner, hcount, hyields⟩ :=
    @run_spec wc n calls key start hlengths hreturns
  rw [hlog, hinner] at hopens
  rw [hnonces, nodup_iterate_increment, ← hcount]
  refine and_congr_right fun hle => ?_
  obtain ⟨extra, e, hyield, hread, hend⟩ := hyields hopens hle
  have htag : tagBytes = 16 := rfl
  by_cases hsmall : n + tagBytes < 2 ^ 63
  · rw [readBack, hinner, Reader.new_eq_ok hsmall, ok_bind, or_iff_left (by omega),
      and_iff_right hsmall, ← hyield.deliver_eq_iff hlengths hread hend]
    exact ⟨Outcome.ok.inj, congrArg _⟩
  · rw [or_iff_right (fun h => hsmall h.1), readBack, hinner, Reader.new, wordAdd]
    by_cases hfits : n + tagBytes < 2 ^ 64
    · rw [if_pos hfits, ok_bind, if_neg hsmall]
      exact iff_of_false (by rintro ⟨⟩) (fun h => not_lt.mpr h.2.1 hfits)
    · rw [if_neg hfits]
      cases overflowChecks with
      | true => exact iff_of_false (by rintro ⟨⟩) (by rintro ⟨⟨⟩, -⟩)
      | false =>
        have hshort : n + tagBytes - 2 ^ 64 < tagBytes := by omega
        obtain ⟨e, hempty, hdeliver⟩ :=
          @deliver_of_short wc log key start sizes hlengths hopens _ hshort
        rw [if_neg (by decide), ok_bind, if_pos (by omega), and_iff_right rfl,
          and_iff_right (by omega), ← short_iff hcount hempty, ← hdeliver]
        rfl

/-- Three bytes that are flushed once are read whole and then the end of the stream. -/
theorem roundTrip_flushed : RoundTrip Wallet.markedCrypto true Wallet.zeroKey Wallet.zeroNonce 4
    [.write [1, 2, 3], .flush] [3, 1] := by
  refine (roundTrip_iff Wallet.markedCrypto_lengths (by decide) ?_).mpr
    ⟨fun _ _ => by decide, by decide, .inl ⟨by decide, .inr ⟨by decide, 1, by decide⟩⟩⟩
  intro cipher nonce data hcipher hopen
  have hpiece : cipher <:+: [1, 2, 3] ++
      (Wallet.markedTag Wallet.zeroNonce ([1, 2, 3] : Bytes).length ++ []) := hcipher
  obtain ⟨rfl, rfl⟩ :=
    Wallet.markedCrypto_opens_chunk (by decide) (by decide) (by decide) hpiece hopen
  exact ⟨0, rfl, rfl, Wallet.markedCrypto_opens hopen⟩

/-- A flush leaves the byte it seals in the buffer, and the chunk that the next write fills seals it
again: the two pieces are shorter than a chunk and cannot be told apart. A read beyond the end of a
stream gives none of the bytes before it. -/
theorem not_roundTrip_flushed_twice :
    ¬ RoundTrip Wallet.markedCrypto true Wallet.zeroKey Wallet.zeroNonce 2
      [.write [1], .flush, .write [2], .flush] [1, 1] ∧
    ¬ RoundTrip Wallet.markedCrypto true Wallet.zeroKey Wallet.zeroNonce 4
      [.write [1, 2, 3], .flush] [4] := by
  refine ⟨fun h => absurd h.delivered ?_, fun h => absurd h.delivered ?_⟩
  · decide +kernel
  · decide +kernel

end

end IndySdk.Chacha20Poly1305Ietf
