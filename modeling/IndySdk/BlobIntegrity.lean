import IndySdk.BlobStorage

/-!
# Which blobs are what their hash says

Along every sequence of calls the file of a blob is what the system took of its writes, and the
hash is that of what was offered. Both are the same where every write was taken whole. A tail that
is read comes from whatever content the file has.
-/

namespace IndySdk.Blobs

open Outcome List AList
open Crypto (rustBase58)
open Tails (DefaultWriter DefaultReaderConfig Disk IoFailures TailLibrary)

/-! ## The writes of a blob -/

/-- The writes through a handle, with what the system did with them, since a blob was created under
it. -/
def writesAfter (handle : ℤ) (writes : List (Bytes × OsResult)) : BlobCall → List (Bytes × OsResult)
  | .createBlob handle' writer failures =>
      match Tails.createBlob failures writer with
      | .ok _ => if handle' = handle then [] else writes
      | _ => writes
  | .append handle' bytes os => if handle' = handle then writes ++ [(bytes, os)] else writes
  | .finalize _ _ => writes

def writesOf (handle : ℤ) (calls : List BlobCall) : List (Bytes × OsResult) :=
  calls.foldl (writesAfter handle) []

def offered (writes : List (Bytes × OsResult)) : Bytes := writes.flatMap Prod.fst

def taken (writes : List (Bytes × OsResult)) : Bytes := writes.flatMap (fun w => moved w.1 w.2)

theorem moved_length_le (bytes : Bytes) (os : OsResult) :
    (moved bytes os).length ≤ bytes.length := by
  cases os with
  | error err => exact Nat.zero_le _
  | ok n =>
      rw [moved, length_take]
      exact Nat.min_le_right _ _

theorem moved_eq_of_length {bytes : Bytes} {os : OsResult}
    (h : (moved bytes os).length = bytes.length) : moved bytes os = bytes := by
  cases os with
  | error err => exact (length_eq_zero_iff.mp h.symm).symm
  | ok n =>
      rw [moved, length_take] at h
      exact take_of_length_le (by omega)

theorem taken_length_le (writes : List (Bytes × OsResult)) :
    (taken writes).length ≤ (offered writes).length := by
  induction writes with
  | nil => exact Nat.le_refl 0
  | cons w writes ih =>
      have hle := moved_length_le w.1 w.2
      rw [taken, offered, flatMap_cons, flatMap_cons, length_append,
        length_append]
      exact Nat.add_le_add hle ih

theorem taken_eq_offered_iff (writes : List (Bytes × OsResult)) :
    taken writes = offered writes ↔ ∀ w ∈ writes, moved w.1 w.2 = w.1 := by
  induction writes with
  | nil => exact iff_of_true rfl (fun _ h => absurd h not_mem_nil)
  | cons w writes ih =>
      have hle := moved_length_le w.1 w.2
      have hrest := taken_length_le writes
      have htaken : taken (w :: writes) = moved w.1 w.2 ++ taken writes := flatMap_cons
      have hoffered : offered (w :: writes) = w.1 ++ offered writes := flatMap_cons
      rw [htaken, hoffered, forall_mem_cons, ← ih]
      constructor
      · intro h
        have hlength := congrArg List.length h
        rw [length_append, length_append] at hlength
        have hw : moved w.1 w.2 = w.1 := moved_eq_of_length (by omega)
        rw [hw, append_cancel_left_eq] at h
        exact ⟨hw, h⟩
      · rintro ⟨hw, h⟩
        rw [hw, h]

/-! ## What the service keeps of a blob -/

section

variable {T : Type} {library : TailLibrary T}

/-- Every blob that is open holds what was taken of its writes, and the hash of what was offered. -/
def Recorded (calls : List BlobCall) (s : BlobStorageService) : Prop :=
  ∀ handle writer, s.writerBlobs.lookup handle = some writer →
    writer.file = taken (writesOf handle calls) ∧ writer.hashed = offered (writesOf handle calls)

theorem writesOf_concat (handle : ℤ) (calls : List BlobCall) (call : BlobCall) :
    writesOf handle (calls ++ [call]) = writesAfter handle (writesOf handle calls) call := by
  rw [writesOf, foldl_append]
  rfl

theorem createBlob_empty {failures : IoFailures} {config : Option Tails.DefaultWriterConfig}
    {writer : DefaultWriter} (h : Tails.createBlob failures config = .ok writer) :
    writer.file = [] ∧ writer.hashed = [] := by
  obtain ⟨_, _, h⟩ := bind_eq_ok_iff.mp h
  obtain ⟨_, _, h⟩ := bind_eq_ok_iff.mp h
  obtain ⟨_, _, h⟩ := bind_eq_ok_iff.mp h
  cases h
  exact ⟨rfl, rfl⟩

theorem recorded_step {calls : List BlobCall} {s : BlobStorageService} (h : Recorded calls s)
    (call : BlobCall) : Recorded (calls ++ [call]) ((blobMachine library).step call s).2 := by
  intro handle writer hwriter
  rw [writesOf_concat]
  cases call with
  | createBlob handle' config failures =>
      simp only [blobMachine, createBlob] at hwriter
      rw [writesAfter]
      cases hcreate : Tails.createBlob failures config with
      | err err =>
          rw [hcreate] at hwriter
          exact h handle writer hwriter
      | panic =>
          rw [hcreate] at hwriter
          exact h handle writer hwriter
      | ok blob =>
          rw [hcreate] at hwriter
          dsimp only at hwriter ⊢
          by_cases hh : handle' = handle
          · rw [hh, lookup_insert] at hwriter
            cases hwriter
            rw [if_pos hh]
            exact createBlob_empty hcreate
          · rw [lookup_insert_ne (Ne.symm hh)] at hwriter
            rw [if_neg hh]
            exact h handle writer hwriter
  | append handle' bytes os =>
      simp only [blobMachine, append] at hwriter
      rw [writesAfter]
      cases hold : s.writerBlobs.lookup handle' with
      | none =>
          rw [hold] at hwriter
          by_cases hh : handle' = handle
          · rw [← hh, hold] at hwriter
            cases hwriter
          · rw [if_neg hh]
            exact h handle writer hwriter
      | some old =>
          rw [hold] at hwriter
          dsimp only at hwriter
          by_cases hh : handle' = handle
          · rw [hh, lookup_insert] at hwriter
            cases hwriter
            rw [hh] at hold
            obtain ⟨hfile, hhashed⟩ := h handle old hold
            rw [if_pos hh, taken, offered, flatMap_append, flatMap_append,
              flatMap_singleton, flatMap_singleton]
            change old.file ++ moved bytes os = _ ∧ old.hashed ++ bytes = _
            rw [hfile, hhashed]
            exact ⟨rfl, rfl⟩
          · rw [lookup_insert_ne (Ne.symm hh)] at hwriter
            rw [if_neg hh]
            exact h handle writer hwriter
  | finalize handle' failures =>
      simp only [blobMachine, finalize] at hwriter
      cases hold : s.writerBlobs.lookup handle' with
      | none =>
          rw [hold] at hwriter
          exact h handle writer hwriter
      | some old =>
          rw [hold] at hwriter
          dsimp only at hwriter
          by_cases hh : handle = handle'
          · rw [hh, lookup_erase] at hwriter
            cases hwriter
          · rw [lookup_erase_ne hh] at hwriter
            exact h handle writer hwriter

theorem recorded_run (calls : List BlobCall) (disk : Disk) :
    Recorded calls ((blobMachine library).run calls ⟨∅, disk⟩) := by
  induction calls using List.reverseRecOn with
  | nil =>
      intro handle writer h
      cases h
  | append_singleton calls call ih =>
      rw [Machine.run_append]
      exact recorded_step ih call

/-- Two contents of one hash. -/
def Collides (library : TailLibrary T) (a b : Bytes) : Prop :=
  a ≠ b ∧ library.sha256 a = library.sha256 b

theorem finalize_hash_iff {calls : List BlobCall} {disk : Disk} {handle : ℤ} {failures : IoFailures}
    {location : String} {hash : Bytes} {s' : BlobStorageService}
    (h : finalize library handle failures ((blobMachine library).run calls ⟨∅, disk⟩) =
      (.ok (location, hash), s')) :
    (∃ content, s'.disk.lookup location = some content ∧ library.sha256 content = hash) ↔
      (∀ w ∈ writesOf handle calls, moved w.1 w.2 = w.1) ∨
        Collides library (taken (writesOf handle calls)) (offered (writesOf handle calls)) := by
  have hrecorded := @recorded_run _ library calls disk
  generalize (blobMachine library).run calls ⟨∅, disk⟩ = s at h hrecorded
  rw [finalize] at h
  cases hwriter : s.writerBlobs.lookup handle with
  | none =>
      rw [hwriter] at h
      cases h
  | some writer =>
      obtain ⟨hfile, hhashed⟩ := hrecorded handle writer hwriter
      rw [hwriter] at h
      dsimp only at h
      rw [Prod.mk.injEq] at h
      obtain ⟨hres, hs'⟩ := h
      obtain ⟨_, _, _, _, _, hhash, _, hdisk⟩ :=
        Tails.finalize_eq_ok.mp (Prod.ext hres rfl)
      have hfound : s'.disk.lookup location = some (taken (writesOf handle calls)) := by
        have hdisk' : s'.disk = s.disk.insert location writer.file := by
          rw [← hs']
          exact hdisk
        rw [hdisk', lookup_insert, hfile]
      rw [hfound, hhash, hhashed, ← taken_eq_offered_iff]
      constructor
      · rintro ⟨content, hcontent, hsame⟩
        cases hcontent
        by_cases heq : taken (writesOf handle calls) = offered (writesOf handle calls)
        · exact .inl heq
        · exact .inr ⟨heq, hsame⟩
      · rintro (heq | ⟨_, hsame⟩)
        · exact ⟨_, rfl, by rw [heq]⟩
        · exact ⟨_, rfl, hsame⟩

/-! ## Tails of a content -/

/-- No piece of the content that a read may give is a tail. -/
def NoTail (library : TailLibrary T) (content : Bytes) : Prop :=
  ∀ tailId n tail, library.fromBytes (((content.drop
    (library.bytesReprSize * tailId + Tails.tailsBlobTagSz.toNat)).take
      library.bytesReprSize).take n) ≠ .ok tail

theorem accessTail_eq_ok_iff {content : Bytes} {tailId : ℕ} {os : OsResult} {tail : T} :
    accessTail library content tailId os = .ok tail ↔ ∃ n, os = .ok n ∧
      library.fromBytes (((content.drop
        (library.bytesReprSize * tailId + Tails.tailsBlobTagSz.toNat)).take
          library.bytesReprSize).take n) = .ok tail := by
  rw [accessTail]
  cases os with
  | error err =>
      constructor
      · intro h
        cases h
      · rintro ⟨n, h, _⟩
        cases h
  | ok n =>
      constructor
      · intro h
        exact ⟨n, rfl, h⟩
      · rintro ⟨m, h, htail⟩
        cases h
        exact htail

/-- Whatever tail is handed on, the content it comes from has the hash: this holds of the contents
that do have it and of those in which there is no tail. -/
theorem accessTail_checked_iff (content hash : Bytes) :
    (∀ tailId os tail, accessTail library content tailId os = .ok tail →
        library.sha256 content = hash) ↔
      library.sha256 content = hash ∨ NoTail library content := by
  constructor
  · intro h
    by_cases hhash : library.sha256 content = hash
    · exact .inl hhash
    · refine .inr (fun tailId n tail htail => hhash (h tailId (.ok n) tail ?_))
      exact accessTail_eq_ok_iff.mpr ⟨n, rfl, htail⟩
  · rintro (hhash | hnone) tailId os tail htail
    · exact hhash
    · obtain ⟨n, _, htail⟩ := accessTail_eq_ok_iff.mp htail
      exact absurd htail (hnone tailId n tail)

end

/-- Along every sequence of calls, a blob that is published lies at the path of its hash with that
hash exactly if each of its writes was taken whole, collisions apart; and tails are handed on only
from a content of the hash in the definition exactly if the content has it or no tail can be read
from it. -/
theorem blobIntegrity_iff {T : Type} (library : TailLibrary T) :
    (∀ calls disk handle failures location hash s',
      finalize library handle failures ((blobMachine library).run calls ⟨∅, disk⟩) =
        (.ok (location, hash), s') →
      ((∃ content, s'.disk.lookup location = some content ∧ library.sha256 content = hash) ↔
        (∀ w ∈ writesOf handle calls, moved w.1 w.2 = w.1) ∨
          Collides library (taken (writesOf handle calls)) (offered (writesOf handle calls)))) ∧
    ∀ failures reader tailsHash disk content hash,
      Tails.newTailsAccessor failures reader tailsHash disk = .ok content →
      rustBase58.fromBase58 tailsHash = .ok hash →
      ((∀ tailId os tail, accessTail library content tailId os = .ok tail →
          library.sha256 content = hash) ↔
        library.sha256 content = hash ∨ NoTail library content) :=
  ⟨fun _ _ _ _ _ _ _ h => finalize_hash_iff h,
    fun _ _ _ _ content hash _ _ => accessTail_checked_iff content hash⟩

open Tails (plainLibrary plainTail)

def tagCalls (os : OsResult) : List BlobCall :=
  [.createBlob 1 (some ⟨"/tails", ""⟩) (fun _ => none), .append 1 Tails.tailsVersion os]

theorem blobIntegrity_tag :
    (∃ content, (finalize plainLibrary 1 (fun _ => none)
          ((blobMachine plainLibrary).run (tagCalls (.ok 2)) ⟨∅, ∅⟩)).2.disk.lookup
        (Tails.pathPush "/tails" (rustBase58.toBase58 Tails.tailsVersion)) = some content ∧
      plainLibrary.sha256 content = Tails.tailsVersion) ↔
    (∀ w ∈ writesOf 1 (tagCalls (.ok 2)), moved w.1 w.2 = w.1) ∨
      Collides plainLibrary (taken (writesOf 1 (tagCalls (.ok 2))))
        (offered (writesOf 1 (tagCalls (.ok 2)))) :=
  (blobIntegrity_iff plainLibrary).1 (tagCalls (.ok 2)) ∅ 1 (fun _ => none) _ _ _ rfl

/-- A content that is not of the hash under which it is found: a tag and one tail of zeros. -/
def replacedContent : Bytes := Tails.tailsVersion ++ (plainTail 0).1

/-- The system takes one of two bytes: the file that is published has another hash. And a content
of another hash is opened under the hash of the tag, and a tail is read from it. -/
theorem shortWrite_published :
    (∃ s', finalize plainLibrary 1 (fun _ => none)
        ((blobMachine plainLibrary).run (tagCalls (.ok 1)) ⟨∅, ∅⟩) =
      (.ok (Tails.pathPush "/tails" (rustBase58.toBase58 Tails.tailsVersion),
        Tails.tailsVersion), s') ∧
      ∀ content, s'.disk.lookup
          (Tails.pathPush "/tails" (rustBase58.toBase58 Tails.tailsVersion)) = some content →
        plainLibrary.sha256 content ≠ Tails.tailsVersion) ∧
    ∃ disk : Disk, Tails.newTailsAccessor (fun _ => none) (some ⟨"/tails"⟩)
        (rustBase58.toBase58 Tails.tailsVersion) disk = .ok replacedContent ∧
      accessTail plainLibrary replacedContent 0 (.ok 128) = .ok (plainTail 0) ∧
      plainLibrary.sha256 replacedContent ≠ Tails.tailsVersion := by
  refine ⟨⟨⟨∅, AList.insert (Tails.pathPush "/tails"
      (rustBase58.toBase58 Tails.tailsVersion)) [0] ∅⟩, rfl, ?_⟩,
    AList.insert (Tails.pathPush "/tails"
      (rustBase58.toBase58 Tails.tailsVersion)) replacedContent ∅, ?_, ?_, ?_⟩
  · intro content hcontent
    rw [lookup_insert] at hcontent
    rw [← Option.some.inj hcontent]
    decide
  · rw [Tails.newTailsAccessor, Crypto.rustBase58_decode_encode]
    simp only [ok_bind, ofOption_some, Tails.attempt, lookup_insert]
  · have hbytes : ((replacedContent.drop (128 * 0 + 2)).take 128).take 128 = (plainTail 0).1 := by
      change ((plainTail 0).1.take 128).take 128 = _
      rw [take_take, Nat.min_self, take_of_length_le (Nat.le_of_eq (plainTail 0).2)]
    refine accessTail_eq_ok_iff.mpr ⟨128, rfl, ?_⟩
    change plainLibrary.fromBytes (((replacedContent.drop (128 * 0 + 2)).take 128).take 128) = _
    rw [hbytes]
    exact (Tails.plainLaws.of_toBytes (plainTail 0) _ rfl).2
  · decide

end IndySdk.Blobs
