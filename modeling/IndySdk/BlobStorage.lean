import IndySdk.TailsFiles

/-!
# The blob storage

A blob is appended to through its handle and published under its hash. The hash is fed with the
bytes that are offered, the file gets those that the system takes in one write. A reader finds a
blob by its hash; its check of the content is a function of its own, which reading does not call.
-/

namespace IndySdk.Blobs

open Crypto (rustBase58)
open Tails (DefaultWriter DefaultWriterConfig DefaultReaderConfig Disk IoFailures TailLibrary)

/-- What the system does with a write or a read: it moves bytes up to a number, or fails. -/
abbrev OsResult := Except IndyError ℕ

/-- The bytes of a buffer that were moved. -/
def moved (bytes : Bytes) : OsResult → Bytes
  | .ok n => bytes.take n
  | .error _ => []

/-- The writer's `append`, beside the hasher that was given all the bytes before it. -/
def appendBytes (writer : DefaultWriter) (bytes : Bytes) (os : OsResult) :
    IndyResult ℕ × DefaultWriter :=
  (match os with
    | .ok _ => .ok (moved bytes os).length
    | .error err => .err err,
    { writer with
      file := writer.file ++ moved bytes os
      writes := writer.writes + 1
      hashed := writer.hashed ++ bytes })

structure BlobStorageService where
  writerBlobs : AssocMap ℤ DefaultWriter
  disk : Disk

/-- The handle of a new blob is the next of the library's sequence. -/
inductive BlobCall where
  | createBlob (handle : ℤ) (writer : Option DefaultWriterConfig) (failures : IoFailures)
  | append (handle : ℤ) (bytes : Bytes) (os : OsResult)
  | finalize (handle : ℤ) (failures : IoFailures)

inductive BlobReply where
  | created (handle : IndyResult ℤ)
  | appended (size : IndyResult ℕ)
  | finalized (location : IndyResult (String × Bytes))

def invalidHandle : IndyError := errMsg .invalidStructure "Invalid BlobStorage handle"

section

variable {T : Type} (library : TailLibrary T)

def createBlob (handle : ℤ) (writer : Option DefaultWriterConfig) (failures : IoFailures)
    (s : BlobStorageService) : IndyResult ℤ × BlobStorageService :=
  match Tails.createBlob failures writer with
  | .ok blob => (.ok handle, { s with writerBlobs := s.writerBlobs.insert handle blob })
  | .err err => (.err err, s)
  | .panic => (.panic, s)

def append (handle : ℤ) (bytes : Bytes) (os : OsResult) (s : BlobStorageService) :
    IndyResult ℕ × BlobStorageService :=
  match s.writerBlobs.lookup handle with
  | none => (.err invalidHandle, s)
  | some writer =>
    let (res, writer) := appendBytes writer bytes os
    (res, { s with writerBlobs := s.writerBlobs.insert handle writer })

/-- The blob is taken out of the map, whether its file is published or not. -/
def finalize (handle : ℤ) (failures : IoFailures) (s : BlobStorageService) :
    IndyResult (String × Bytes) × BlobStorageService :=
  match s.writerBlobs.lookup handle with
  | none => (.err invalidHandle, s)
  | some writer =>
    let (res, disk) := Tails.finalize library failures writer s.disk
    (res, ⟨s.writerBlobs.erase handle, disk⟩)

def blobMachine : Machine BlobStorageService BlobCall BlobReply where
  step call s :=
    match call with
    | .createBlob handle writer failures =>
      let (res, s) := createBlob handle writer failures s
      (.created res, s)
    | .append handle bytes os =>
      let (res, s) := append handle bytes os s
      (.appended res, s)
    | .finalize handle failures =>
      let (res, s) := finalize library handle failures s
      (.finalized res, s)

/-! ## Reading -/

def read (content : Bytes) (size offset : ℕ) : OsResult → IndyResult Bytes
  | .ok n => .ok (moved ((content.drop offset).take size) (.ok n))
  | .error err => .err err

/-- The tail that is handed on, read from the content that was found when the blob was opened. -/
def accessTail (content : Bytes) (tailId : ℕ) (os : OsResult) : IndyResult T := do
  let tailBytes ← toIndy .invalidState "Can't read tail bytes from blob storage"
    (read content library.bytesReprSize
      (library.bytesReprSize * tailId + Tails.tailsBlobTagSz.toNat) os)
  library.fromBytes tailBytes

/-- The loop of `verify` over what is left of the content; each read gives at least one of the 1024
bytes that are asked for, while there is one. -/
def verifyFrom (sizes : ℕ → ℕ) (nth : ℕ) (hashed hash rest : Bytes) : Bool :=
  let buf := rest.take (min (sizes nth + 1) 1024)
  if buf = [] then library.sha256 hashed == hash
  else verifyFrom sizes (nth + 1) (hashed ++ buf) hash (rest.drop buf.length)
termination_by rest.length
decreasing_by
  rename_i hbuf
  have hpos : 0 < (rest.take (min (sizes nth + 1) 1024)).length := List.length_pos_iff.mpr hbuf
  rw [List.length_take] at hpos
  rw [List.length_drop]
  simp only [List.length_take]
  omega

def verify (sizes : ℕ → ℕ) (hash content : Bytes) : Bool :=
  verifyFrom library sizes 0 [] hash content

theorem verifyFrom_eq (sizes : ℕ → ℕ) (nth : ℕ) (hashed hash rest : Bytes) :
    verifyFrom library sizes nth hashed hash rest = (library.sha256 (hashed ++ rest) == hash) := by
  fun_induction verifyFrom library sizes nth hashed hash rest with
  | case1 nth hashed rest buf hbuf =>
      have hrest : rest = [] := by
        have hlength : (rest.take (min (sizes nth + 1) 1024)).length = 0 :=
          congrArg List.length hbuf
        rw [List.length_take] at hlength
        apply List.length_eq_zero_iff.mp
        omega
      rw [hrest, List.append_nil]
  | case2 nth hashed rest buf hbuf ih =>
      rw [ih, List.append_assoc]
      have hsplit : buf ++ rest.drop buf.length = rest :=
        List.prefix_iff_eq_append.mp (List.take_prefix _ rest)
      rw [hsplit]

theorem verify_eq (sizes : ℕ → ℕ) (hash content : Bytes) :
    verify library sizes hash content = (library.sha256 content == hash) :=
  verifyFrom_eq library sizes 0 [] hash content

end

end IndySdk.Blobs
