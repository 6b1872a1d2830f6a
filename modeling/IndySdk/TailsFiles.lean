import IndySdk.AssocMap
import IndySdk.Base58
import IndySdk.Stateful
import IndySdk.WorkerPool

/-!
# Files of tails

The tails of a registry are generated by one worker each, put in order and written to a file behind
a tag of two bytes. The file is named by its hash, and a tail is read back from its offset. The
cryptographic library generates a tail from its number and turns tails into bytes and back.
-/

namespace IndySdk.Tails

open Outcome List
open Crypto (rustBase58)
open WorkerPool (Job Schedule)

structure RevocationTailsGenerator (T : Type) where
  size : ℕ
  generateTail : ℕ → IndyResult (Option T)

structure TailLibrary (T : Type) where
  bytesReprSize : ℕ
  toBytes : T → IndyResult Bytes
  fromBytes : Bytes → IndyResult T
  sha256 : Bytes → Bytes

/-- The calls on files; writes of one blob are told apart by how many came before. -/
inductive IoCall where
  | createTmpDir | createFile | write (nth : ℕ) | flush | syncAll
  | createBaseDir | copy | removeFile | openFile | readFile
  deriving DecidableEq

/-- The calls that fail, and the contents of the files that were published. -/
abbrev IoFailures := IoCall → Option IndyError

abbrev Disk := AssocMap String Bytes

abbrev DiskAction (α : Type) := Stateful Disk IndyError α

def attempt (failures : IoFailures) (call : IoCall) : IndyResult Unit :=
  match failures call with
  | none => .ok ()
  | some e => .err e

def pathPush (dir name : String) : String :=
  if dir = "" ∨ dir.toList.getLast? = some '/' then dir ++ name else dir ++ "/" ++ name

/-! ### The blob storage -/

structure DefaultWriterConfig where
  baseDir : String
  uriPattern : String

/-- A writer with the content of its temporary file and what the hasher beside it was given. -/
structure DefaultWriter where
  baseDir : String
  file : Bytes
  writes : ℕ
  hashed : Bytes

def invalidConfigHandle : IndyError := errMsg .invalidStructure "Invalid BlobStorage config handle"

section Store

variable {T : Type} (library : TailLibrary T) (failures : IoFailures)

def createBlob (writer : Option DefaultWriterConfig) : IndyResult DefaultWriter := do
  let config ← Outcome.ofOption invalidConfigHandle writer
  attempt failures .createTmpDir
  attempt failures .createFile
  pure ⟨config.baseDir, [], 0, []⟩

def append (writer : DefaultWriter) (bytes : Bytes) : IndyResult DefaultWriter := do
  attempt failures (.write writer.writes)
  pure { writer with
    file := writer.file ++ bytes, writes := writer.writes + 1, hashed := writer.hashed ++ bytes }

def publish (path : String) (content : Bytes) : DiskAction Unit :=
  fun disk => (.ok (), disk.insert path content)

def finalize (writer : DefaultWriter) : DiskAction (String × Bytes) := do
  let hash := library.sha256 writer.hashed
  let path := pathPush writer.baseDir (rustBase58.toBase58 hash)
  Stateful.read (fun _ => attempt failures .flush)
  Stateful.read (fun _ => attempt failures .syncAll)
  Stateful.read (fun _ => attempt failures .createBaseDir)
  Stateful.read (fun _ => attempt failures .copy)
  publish path writer.file
  Stateful.read (fun _ => attempt failures .removeFile)
  pure (path, hash)

/-! ### Storing -/

def tailsBlobTagSz : UInt8 := 2

def tailsVersion : Bytes := [0, tailsBlobTagSz]

/-- A tail that cannot be made is only printed, a missing one aborts the worker. -/
def tailJob (generator : RevocationTailsGenerator T) (index : ℕ) : Job Bytes :=
  match generator.generateTail index with
  | .ok (some tail) =>
    match library.toBytes tail with
    | .ok bytes => .publish bytes
    | .err _ => .withhold
    | .panic => .abort
  | .ok none => .abort
  | .err _ => .withhold
  | .panic => .abort

/-- Joining a worker that aborted aborts the thread that joins. -/
def joinWorkers {generator : RevocationTailsGenerator T}
    (schedule : Schedule (tailJob library generator) generator.size) :
    IndyResult (List (ℕ × Bytes)) :=
  if schedule.final.anyAborted then .panic else .ok schedule.final.shared

def indexTails (tailsData : List (ℕ × Bytes)) :
    List ℕ → AssocMap ℕ Bytes → IndyResult (AssocMap ℕ Bytes)
  | [], map => .ok map
  | i :: rest, map => do
    let (ind, tail) ← Outcome.unwrap tailsData[i]?
    indexTails tailsData rest (map.insert ind tail)

def appendTails (map : AssocMap ℕ Bytes) : List ℕ → DefaultWriter → IndyResult DefaultWriter
  | [], writer => .ok writer
  | i :: rest, writer => do
    let tailBytes ← Outcome.unwrap (map.lookup i)
    let writer ← append failures writer tailBytes
    appendTails map rest writer

/-- A new blob with its tag. -/
def startBlob (writer : Option DefaultWriterConfig) : IndyResult DefaultWriter := do
  let blob ← createBlob failures writer
  append failures blob tailsVersion

/-- What is written before the file is published. -/
def writeTails (writer : Option DefaultWriterConfig) {generator : RevocationTailsGenerator T}
    (schedule : Schedule (tailJob library generator) generator.size) :
    IndyResult DefaultWriter := do
  let blob ← startBlob failures writer
  let tailsData ← joinWorkers library schedule
  let map ← indexTails tailsData (List.range generator.size) ∅
  appendTails failures map (List.range generator.size) blob

def storeTailsFromGenerator (writer : Option DefaultWriterConfig)
    {generator : RevocationTailsGenerator T}
    (schedule : Schedule (tailJob library generator) generator.size) :
    DiskAction (String × String) := do
  let blob ← Stateful.read (fun _ => writeTails library failures writer schedule)
  let (location, hash) ← finalize library failures blob
  pure (location, rustBase58.toBase58 hash)

/-! ### Reading -/

structure DefaultReaderConfig where
  baseDir : String

/-- The content that a reader finds under a hash. -/
def newTailsAccessor (reader : Option DefaultReaderConfig) (tailsHash : String) (disk : Disk) :
    IndyResult Bytes := do
  let hash ← match rustBase58.fromBase58 tailsHash with
    | .ok hash => .ok hash
    | .error _ => .err (errMsg .invalidState "Invalid base58 for Tails hash")
  let config ← Outcome.ofOption invalidConfigHandle reader
  attempt failures .openFile
  Outcome.ofOption (errMsg .ioError "No such file or directory")
    (disk.lookup (pathPush config.baseDir (rustBase58.toBase58 hash)))

def readBlob (content : Bytes) (size offset : ℕ) : IndyResult Bytes := do
  attempt failures .readFile
  pure ((content.drop offset).take size)

def accessTail (content : Bytes) (tailId : ℕ) : IndyResult T := do
  let tailBytes ← toIndy .invalidState "Can't read tail bytes from blob storage"
    (readBlob failures content library.bytesReprSize
      (library.bytesReprSize * tailId + tailsBlobTagSz.toNat))
  library.fromBytes tailBytes

end Store

/-! ### What is written -/

/-- The file of a list of tails. -/
def blobOf (size : ℕ) (bytes : ℕ → Bytes) : Bytes :=
  tailsVersion ++ (List.range size).flatMap bytes

section Written

variable {T : Type} {library : TailLibrary T} {failures : IoFailures}
  {writer : Option DefaultWriterConfig} {blob : DefaultWriter}

@[simp] theorem attempt_eq_ok {call : IoCall} {u : Unit} :
    attempt failures call = .ok u ↔ failures call = none := by
  cases h : failures call <;> simp [attempt, h]

theorem append_eq_ok {writer writer' : DefaultWriter} {bytes : Bytes} :
    append failures writer bytes = .ok writer' ↔ failures (.write writer.writes) = none ∧
      writer' = { writer with
        file := writer.file ++ bytes, writes := writer.writes + 1,
        hashed := writer.hashed ++ bytes } := by
  rw [append, bind_eq_ok_iff]
  constructor
  · rintro ⟨u, hwrite, hpure⟩
    cases hpure
    exact ⟨attempt_eq_ok.mp hwrite, rfl⟩
  · rintro ⟨hwrite, rfl⟩
    exact ⟨(), attempt_eq_ok.mpr hwrite, rfl⟩

theorem startBlob_eq_ok :
    startBlob failures writer = .ok blob ↔ ∃ config, writer = some config ∧
      failures .createTmpDir = none ∧ failures .createFile = none ∧ failures (.write 0) = none ∧
      blob = ⟨config.baseDir, tailsVersion, 1, tailsVersion⟩ := by
  simp only [startBlob, createBlob, bind_eq_ok_iff, ofOption_eq_ok, attempt_eq_ok,
    Outcome.pure_eq_ok, Outcome.ok.injEq, append_eq_ok]
  constructor
  · rintro ⟨_, ⟨config, hwriter, -, hdir, -, hfile, rfl⟩, hwrite, rfl⟩
    exact ⟨config, hwriter, hdir, hfile, hwrite, rfl⟩
  · rintro ⟨config, hwriter, hdir, hfile, hwrite, rfl⟩
    exact ⟨_, ⟨config, hwriter, (), hdir, (), hfile, rfl⟩, hwrite, rfl⟩

theorem indexTails_eq (before rest : List (ℕ × Bytes)) (map : AssocMap ℕ Bytes) :
    indexTails (before ++ rest) (List.range' before.length rest.length) map =
      .ok (rest.foldl (fun map p => map.insert p.1 p.2) map) := by
  induction rest generalizing before map with
  | nil => rfl
  | cons p rest ih =>
    have hget : (before ++ p :: rest)[before.length]? = some p := by
      rw [getElem?_append_right le_rfl, Nat.sub_self]
      rfl
    have hrest := ih (before ++ [p]) (map.insert p.1 p.2)
    rw [append_assoc, length_append] at hrest
    rw [length_cons, range'_succ, indexTails, hget]
    exact hrest

theorem lookup_foldl_of_notMem {tailsData : List (ℕ × Bytes)} (map : AssocMap ℕ Bytes) {i : ℕ}
    (h : i ∉ tailsData.map Prod.fst) :
    (tailsData.foldl (fun map p => map.insert p.1 p.2) map).lookup i = map.lookup i := by
  induction tailsData generalizing map with
  | nil => rfl
  | cons p rest ih =>
    rw [map_cons, mem_cons, not_or] at h
    rw [foldl_cons, ih _ h.2, AList.lookup_insert_ne h.1]

theorem lookup_foldl_insert {tailsData : List (ℕ × Bytes)} (map : AssocMap ℕ Bytes)
    (hnodup : (tailsData.map Prod.fst).Nodup) {i : ℕ} {b : Bytes} (h : (i, b) ∈ tailsData) :
    (tailsData.foldl (fun map p => map.insert p.1 p.2) map).lookup i = some b := by
  induction tailsData generalizing map with
  | nil => cases h
  | cons p rest ih =>
    rw [map_cons, nodup_cons] at hnodup
    rw [foldl_cons]
    rcases mem_cons.mp h with rfl | h
    · rw [lookup_foldl_of_notMem _ hnodup.1, AList.lookup_insert]
    · exact ih _ hnodup.2 h

theorem appendTails_eq_ok {map : AssocMap ℕ Bytes} {bytes : ℕ → Bytes} {indices : List ℕ}
    (hmap : ∀ i ∈ indices, map.lookup i = some (bytes i)) {writer writer' : DefaultWriter} :
    appendTails failures map indices writer = .ok writer' ↔
      (∀ k < indices.length, failures (.write (writer.writes + k)) = none) ∧
      writer' = { writer with
        file := writer.file ++ indices.flatMap bytes, writes := writer.writes + indices.length,
        hashed := writer.hashed ++ indices.flatMap bytes } := by
  induction indices generalizing writer with
  | nil => simp [appendTails, eq_comm]
  | cons i rest ih =>
    rw [appendTails, hmap i mem_cons_self, unwrap_some, ok_bind,
      bind_eq_ok_iff]
    have hrest := fun writer => @ih (fun j hj => hmap j (mem_cons_of_mem i hj)) writer
    constructor
    · rintro ⟨next, hnext, hgo⟩
      obtain ⟨hwrite, rfl⟩ := append_eq_ok.mp hnext
      obtain ⟨hwrites, rfl⟩ := (hrest _).mp hgo
      refine ⟨fun k hk => ?_, ?_⟩
      · cases k with
        | zero => exact hwrite
        | succ k =>
          have hnth := hwrites k (Nat.lt_of_succ_lt_succ hk)
          rwa [Nat.add_right_comm] at hnth
      · simp [flatMap_cons, Nat.add_assoc, Nat.add_comm 1]
    · rintro ⟨hwrites, rfl⟩
      refine ⟨_, append_eq_ok.mpr ⟨hwrites 0 (Nat.succ_pos _), rfl⟩, (hrest _).mpr ⟨?_, ?_⟩⟩
      · intro k hk
        have hnth := hwrites (k + 1) (Nat.succ_lt_succ hk)
        rwa [← Nat.add_assoc, Nat.add_right_comm] at hnth
      · simp [flatMap_cons, Nat.add_assoc, Nat.add_comm 1]

/-! ### A generator whose tails can all be made -/

variable {generator : RevocationTailsGenerator T} {bytes : ℕ → Bytes}
  {schedule : Schedule (tailJob library generator) generator.size}

theorem published_eq
    (hjob : ∀ i < generator.size, tailJob library generator i = .publish (bytes i)) :
    WorkerPool.published (tailJob library generator) generator.size =
      (List.range generator.size).map (fun i => (i, bytes i)) := by
  rw [WorkerPool.published, ← filterMap_eq_map]
  refine filterMap_congr (fun i hi => ?_)
  rw [hjob i (mem_range.mp hi)]
  rfl

theorem joinWorkers_eq
    (hjob : ∀ i < generator.size, tailJob library generator i = .publish (bytes i)) :
    joinWorkers library schedule = .ok schedule.final.shared ∧
      schedule.final.shared.length = generator.size ∧
      (schedule.final.shared.map Prod.fst).Nodup ∧
      ∀ i < generator.size, (i, bytes i) ∈ schedule.final.shared := by
  have hperm := schedule.shared_perm
  rw [published_eq hjob] at hperm
  refine ⟨if_neg ?_, ?_, schedule.invariant.nodup, ?_⟩
  · rw [schedule.anyAborted_iff]
    rintro ⟨i, hi, habort⟩
    rw [hjob i hi] at habort
    cases habort
  · rw [hperm.length_eq, length_map, length_range]
  · intro i hi
    exact hperm.mem_iff.mpr (mem_map.mpr ⟨i, mem_range.mpr hi, rfl⟩)

theorem writeTails_eq_ok
    (hjob : ∀ i < generator.size, tailJob library generator i = .publish (bytes i)) :
    writeTails library failures writer schedule = .ok blob ↔
      ∃ config, writer = some config ∧ failures .createTmpDir = none ∧
        failures .createFile = none ∧ (∀ k < generator.size + 1, failures (.write k) = none) ∧
        blob = ⟨config.baseDir, blobOf generator.size bytes, generator.size + 1,
          blobOf generator.size bytes⟩ := by
  obtain ⟨hjoin, hlength, hnodup, hmem⟩ := @joinWorkers_eq _ _ _ _ schedule hjob
  have hindex := indexTails_eq [] schedule.final.shared ∅
  rw [nil_append, length_nil, hlength, ← range_eq_range'] at hindex
  have hmap : ∀ i ∈ List.range generator.size,
      (schedule.final.shared.foldl (fun map p => map.insert p.1 p.2)
        (∅ : AssocMap ℕ Bytes)).lookup i = some (bytes i) :=
    fun i hi => lookup_foldl_insert ∅ hnodup (hmem i (mem_range.mp hi))
  have happend := fun first => @appendTails_eq_ok failures _ _ _ hmap first blob
  simp only [writeTails, hjoin, hindex, ok_bind, bind_eq_ok_iff, startBlob_eq_ok,
    happend, length_range]
  constructor
  · rintro ⟨_, ⟨config, hwriter, hdir, hfile, hfirst, rfl⟩, hwrites, rfl⟩
    refine ⟨config, hwriter, hdir, hfile, fun k hk => ?_, ?_⟩
    · cases k with
      | zero => exact hfirst
      | succ k =>
        have hnth := hwrites k (Nat.lt_of_succ_lt_succ hk)
        rwa [Nat.add_comm] at hnth
    · rw [Nat.add_comm 1]
      rfl
  · rintro ⟨config, hwriter, hdir, hfile, hwrites, rfl⟩
    refine ⟨_, ⟨config, hwriter, hdir, hfile, hwrites 0 (Nat.succ_pos _), rfl⟩, fun k hk => ?_, ?_⟩
    · rw [Nat.add_comm]
      exact hwrites (k + 1) (Nat.succ_lt_succ hk)
    · rw [Nat.add_comm 1]
      rfl

/-- No call of storing a file of tails fails. -/
structure IoWorks (failures : IoFailures) (size : ℕ) : Prop where
  createTmpDir : failures .createTmpDir = none
  createFile : failures .createFile = none
  write : ∀ k < size + 1, failures (.write k) = none
  flush : failures .flush = none
  syncAll : failures .syncAll = none
  createBaseDir : failures .createBaseDir = none
  copy : failures .copy = none
  removeFile : failures .removeFile = none

theorem finalize_eq_ok {disk disk' : Disk} {location : String} {hash : Bytes} :
    finalize library failures blob disk = (.ok (location, hash), disk') ↔
      failures .flush = none ∧ failures .syncAll = none ∧ failures .createBaseDir = none ∧
        failures .copy = none ∧ failures .removeFile = none ∧
        hash = library.sha256 blob.hashed ∧
        location = pathPush blob.baseDir (rustBase58.toBase58 hash) ∧
        disk' = disk.insert location blob.file := by
  have hpublish : ∀ (path : String) (content : Bytes) (u : Unit) (before after : Disk),
      publish path content before = (.ok u, after) ↔ after = before.insert path content :=
    fun path content u before after => by rw [publish, Prod.mk.injEq]; simp [eq_comm]
  simp only [finalize, Stateful.bind_eq_ok_iff, Stateful.read_eq_ok_iff, Stateful.pure_eq_ok_iff,
    attempt_eq_ok, hpublish]
  constructor
  · rintro ⟨-, _, ⟨hflush, rfl⟩, -, _, ⟨hsync, rfl⟩, -, _, ⟨hdir, rfl⟩, -, _, ⟨hcopy, rfl⟩,
      -, _, rfl, -, _, ⟨hremove, rfl⟩, heq, rfl⟩
    cases heq
    exact ⟨hflush, hsync, hdir, hcopy, hremove, rfl, rfl, rfl⟩
  · rintro ⟨hflush, hsync, hdir, hcopy, hremove, rfl, rfl, rfl⟩
    exact ⟨(), _, ⟨hflush, rfl⟩, (), _, ⟨hsync, rfl⟩, (), _, ⟨hdir, rfl⟩, (), _, ⟨hcopy, rfl⟩,
      (), _, rfl, (), _, ⟨hremove, rfl⟩, rfl, rfl⟩

theorem storeTails_eq_ok
    (hjob : ∀ i < generator.size, tailJob library generator i = .publish (bytes i))
    {disk disk' : Disk} {location hash : String} :
    storeTailsFromGenerator library failures writer schedule disk =
        (.ok (location, hash), disk') ↔
      ∃ config, writer = some config ∧ IoWorks failures generator.size ∧
        hash = rustBase58.toBase58 (library.sha256 (blobOf generator.size bytes)) ∧
        location = pathPush config.baseDir hash ∧
        disk' = disk.insert location (blobOf generator.size bytes) := by
  simp only [storeTailsFromGenerator, Stateful.bind_eq_ok_iff, Stateful.read_eq_ok_iff,
    Stateful.pure_eq_ok_iff, writeTails_eq_ok hjob, Prod.exists, finalize_eq_ok]
  constructor
  · rintro ⟨_, _, ⟨⟨config, hwriter, htmp, hfile, hwrites, rfl⟩, rfl⟩, path, _, _,
      ⟨hflush, hsync, hdir, hcopy, hremove, rfl, rfl, rfl⟩, heq, rfl⟩
    cases heq
    exact ⟨config, hwriter, ⟨htmp, hfile, hwrites, hflush, hsync, hdir, hcopy, hremove⟩, rfl, rfl,
      rfl⟩
  · rintro ⟨config, hwriter, hio, rfl, rfl, rfl⟩
    exact ⟨_, _, ⟨⟨config, hwriter, hio.createTmpDir, hio.createFile, hio.write, rfl⟩, rfl⟩,
      _, _, _, ⟨hio.flush, hio.syncAll, hio.createBaseDir, hio.copy, hio.removeFile, rfl, rfl, rfl⟩,
      rfl, rfl⟩

theorem length_flatMap_range {size width : ℕ} (h : ∀ i < size, (bytes i).length = width) :
    ((List.range size).flatMap bytes).length = width * size := by
  induction size with
  | zero => rfl
  | succ size ih =>
    rw [range_succ, flatMap_append, length_append, flatMap_singleton,
      ih (fun i hi => h i (Nat.lt_succ_of_lt hi)), h size (Nat.lt_succ_self size), Nat.mul_succ]

theorem blobOf_at {size width i : ℕ} (h : ∀ i < size, (bytes i).length = width) (hi : i < size) :
    ((blobOf size bytes).drop (width * i + tailsBlobTagSz.toNat)).take width = bytes i := by
  obtain ⟨rest, rfl⟩ := Nat.exists_eq_add_of_lt hi
  have hbefore : ((List.range i).flatMap bytes).length = width * i :=
    length_flatMap_range (fun j hj => h j (Nat.lt_trans hj hi))
  have hsplit : (List.range (i + rest + 1)).flatMap bytes =
      (List.range i).flatMap bytes ++
        (bytes i ++ ((List.range rest).map (fun j => i + (j + 1))).flatMap bytes) := by
    rw [Nat.add_assoc, range_add, flatMap_append, range_succ_eq_map]
    simp [flatMap_map]
  have htag : tailsBlobTagSz.toNat = tailsVersion.length := rfl
  rw [blobOf, Nat.add_comm, htag, ← drop_drop, drop_left, hsplit, ← hbefore,
    drop_left]
  exact take_left' (h i hi)

/-- What the library promises of its tails: they have one size and are read back. -/
structure TailLaws (library : TailLibrary T) : Prop where
  of_toBytes : ∀ tail bytes, library.toBytes tail = .ok bytes →
    bytes.length = library.bytesReprSize ∧ library.fromBytes bytes = .ok tail

/-- For every order of the workers: storing returns when no call fails; when it returns, the file
under the location is the tag and the tails in order, the hash is the hash of the file, and a
reader of the same directory finds the file by the hash and each tail by its number. -/
theorem storedTails_read (laws : TailLaws library) {tail : ℕ → T}
    (hgenerate : ∀ i < generator.size, generator.generateTail i = .ok (some (tail i)))
    (hbytes : ∀ i < generator.size, library.toBytes (tail i) = .ok (bytes i))
    (config : DefaultWriterConfig) (disk : Disk) :
    (IoWorks failures generator.size → ∃ location hash disk',
      storeTailsFromGenerator library failures (some config) schedule disk =
        (.ok (location, hash), disk')) ∧
    ∀ location hash disk',
      storeTailsFromGenerator library failures (some config) schedule disk =
          (.ok (location, hash), disk') →
        disk'.lookup location = some (blobOf generator.size bytes) ∧
        hash = rustBase58.toBase58 (library.sha256 (blobOf generator.size bytes)) ∧
        (failures .openFile = none →
          newTailsAccessor failures (some ⟨config.baseDir⟩) hash disk' =
            .ok (blobOf generator.size bytes)) ∧
        (failures .readFile = none → ∀ i < generator.size,
          accessTail library failures (blobOf generator.size bytes) i = .ok (tail i)) := by
  have hjob : ∀ i < generator.size, tailJob library generator i = .publish (bytes i) := by
    intro i hi
    rw [tailJob, hgenerate i hi]
    dsimp only
    rw [hbytes i hi]
  have hlaws := fun i hi => laws.of_toBytes _ _ (hbytes i hi)
  constructor
  · intro hio
    exact ⟨_, _, _, (storeTails_eq_ok hjob).mpr ⟨config, rfl, hio, rfl, rfl, rfl⟩⟩
  · intro location hash disk' hstore
    obtain ⟨_, hconfig, -, rfl, rfl, rfl⟩ := (storeTails_eq_ok hjob).mp hstore
    cases hconfig
    refine ⟨AList.lookup_insert _, rfl, fun hopen => ?_, fun hread i hi => ?_⟩
    · rw [newTailsAccessor, Crypto.rustBase58_decode_encode]
      simp only [ok_bind, ofOption_some, attempt, hopen, AList.lookup_insert]
    · rw [accessTail, readBlob, attempt, hread]
      simp only [ok_bind, Outcome.pure_eq_ok, toIndy]
      rw [blobOf_at (fun j hj => (hlaws j hj).1) hi]
      exact (hlaws i hi).2

end Written

/-- Tails that are their own 128 bytes. -/
abbrev PlainTail := { bytes : Bytes // bytes.length = 128 }

def plainLibrary : TailLibrary PlainTail where
  bytesReprSize := 128
  toBytes tail := .ok tail.1
  fromBytes bytes :=
    if h : bytes.length = 128 then .ok ⟨bytes, h⟩
    else .err (errMsg .invalidStructure "Invalid tail")
  sha256 bytes := bytes.take 32

theorem plainLaws : TailLaws plainLibrary where
  of_toBytes := by
    rintro tail _ ⟨⟩
    exact ⟨tail.2, dif_pos tail.2⟩

def plainTail (i : ℕ) : PlainTail := ⟨List.replicate 128 (UInt8.ofNat i), length_replicate⟩

def twoTails : RevocationTailsGenerator PlainTail where
  size := 2
  generateTail i := .ok (some (plainTail i))

/-- The second worker is done before the first one. -/
def secondFirst : Schedule (tailJob plainLibrary twoTails) twoTails.size where
  events := [.spawn, .spawn, .work 1, .work 0, .work 1, .work 0]
  joined := by
    refine ⟨rfl, fun phase hphase => ?_⟩
    rcases mem_cons.mp hphase with rfl | hphase
    · rfl
    · rw [mem_singleton.mp hphase]
      rfl

theorem storedTails_read_secondFirst : ∃ location hash disk',
    storeTailsFromGenerator plainLibrary (fun _ => none) (some ⟨"/tails", ""⟩) secondFirst ∅ =
        (.ok (location, hash), disk') ∧
      newTailsAccessor (fun _ => none) (some ⟨"/tails"⟩) hash disk' =
        .ok (blobOf 2 (fun i => (plainTail i).1)) ∧
      accessTail plainLibrary (fun _ => none) (blobOf 2 (fun i => (plainTail i).1)) 1 =
        .ok (plainTail 1) := by
  obtain ⟨hreturns, hreads⟩ := @storedTails_read _ plainLibrary (fun _ => none) _
    (fun i => (plainTail i).1) secondFirst plainLaws plainTail (fun _ _ => rfl) (fun _ _ => rfl)
    ⟨"/tails", ""⟩ ∅
  obtain ⟨location, hash, disk', hstore⟩ :=
    hreturns ⟨rfl, rfl, fun _ _ => rfl, rfl, rfl, rfl, rfl, rfl⟩
  obtain ⟨-, -, hopens, htails⟩ := hreads location hash disk' hstore
  exact ⟨location, hash, disk', hstore, hopens rfl, htails rfl 1 (by decide)⟩

end IndySdk.Tails
