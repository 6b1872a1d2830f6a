import IndySdk.LittleEndian
import IndySdk.MerkleGrowth
import IndySdk.PoolCrates

/-!
# The genesis file and the cache of a pool ledger

A pool keeps its genesis transactions as lines of text. The first time transactions are caught up,
the genesis is written to a cache of length-prefixed records, and from then on the tree is rebuilt
from the cache. The two readers differ on blank lines: the genesis path skips them, and the cache
gets an empty record for each.
-/

namespace IndySdk.Pool

open Outcome LittleEndian List
open Ledger (MerkleTree)
open Ledger.MerkleTree (Sized append append_sized appends_sized fromVec_sized)

/-- The characters that Unicode counts as white space. -/
def isWhiteSpace (c : Char) : Bool :=
  (9 ≤ c.toNat && c.toNat ≤ 13) || (0x2000 ≤ c.toNat && c.toNat ≤ 0x200a) ||
    [0x20, 0x85, 0xa0, 0x1680, 0x2028, 0x2029, 0x202f, 0x205f, 0x3000].contains c.toNat

/-- A text without the white space at its two ends. -/
def trim (s : String) : String :=
  String.ofList ((s.toList.dropWhile isWhiteSpace).reverse.dropWhile isWhiteSpace).reverse

def stripCr (line : Bytes) : Bytes := if line.getLast? = some 13 then line.dropLast else line

/-- The lines of a file: each ends with a line feed, which a carriage return may precede, and the
last may lack it. A line that is no UTF-8 cannot be read. -/
def readLines (file : Bytes) : List (Option String) :=
  let pieces := file.splitOn 10
  pieces.dropLast.map (fun line => Bytes.toText (stripCr line)) ++
    ((pieces.getLast?.filter (· ≠ [])).map Bytes.toText).toList

variable (crates : Crates)

def parseTxnFromJson (txn : String) : IndyResult Bytes :=
  let txn := trim txn
  if txn = "" then .ok []
  else do
    let txn ← ofOption (errMsg .invalidStructure "Genesis txn is mailformed json")
      (crates.valueFromStr txn)
    ofOption (errMsg .invalidState "Can't encode genesis txn as message pack")
      (crates.toVecNamed txn)

def lineOfGenesis (line : Option String) : IndyResult String :=
  ofOption (errMsg .ioError "Can't read from genesis txn file") line

def appendLine (mt : MerkleTree) (line : Option String) : IndyResult MerkleTree := do
  let line ← lineOfGenesis line
  if trim line = "" then pure mt
  else append crates.sha256 mt (← parseTxnFromJson crates line)

def fromGenesis (file : Bytes) : IndyResult MerkleTree := do
  let mt ← MerkleTree.fromVec crates.sha256 []
  (readLines file).foldlM (appendLine crates) mt

/-- Records are appended until less than the length of one more is left. -/
def appendRecords (mt : MerkleTree) (file : Bytes) : IndyResult MerkleTree :=
  if file.length < 8 then .ok mt
  else
    let bytes := value (file.take 8)
    if (file.drop 8).length < bytes then
      .err (errMsg .invalidState "Malformed pool ledger cache file")
    else do
      let mt ← append crates.sha256 mt ((file.drop 8).take bytes)
      appendRecords mt ((file.drop 8).drop bytes)
termination_by file.length
decreasing_by simp only [length_drop]; omega

def fromCache (file : Bytes) : IndyResult MerkleTree := do
  let mt ← MerkleTree.fromVec crates.sha256 []
  appendRecords crates mt file

def dumpVecToFile (v : List Bytes) (file : Bytes) : Bytes :=
  file ++ v.flatMap (fun line => encode 8 line.length ++ line)

def genesisToBinary (file : Bytes) : IndyResult (List Bytes) :=
  (readLines file).mapM (fun line => lineOfGenesis line >>= parseTxnFromJson crates)

/-- The files of a pool: its genesis transactions and its cache. -/
structure PoolFiles where
  genesis : Option Bytes
  stored : Option Bytes

namespace PoolFiles

variable (poolName : String)

def create (files : PoolFiles) : IndyResult MerkleTree :=
  match files.stored with
  | some stored => fromCache crates stored
  | none =>
    match files.genesis with
    | some genesis => fromGenesis crates genesis
    | none => .err (errMsg .poolNotCreated "Pool is not created for name: _" [poolName])

/-- The cache file is there, and empty, before the genesis is parsed. -/
def dumpGenesisToStored (files : PoolFiles) : IndyResult Unit × PoolFiles :=
  match files.genesis with
  | none => (.err (errMsg .poolNotCreated "Pool is not created for name: _" [poolName]), files)
  | some genesis =>
    match genesisToBinary crates genesis with
    | .ok genesisVec => (.ok (), { files with stored := some (dumpVecToFile genesisVec []) })
    | .err e => (.err e, { files with stored := some [] })
    | .panic => (.panic, { files with stored := some [] })

def dumpVecToStored (files : PoolFiles) (txns : List Bytes) : IndyResult Unit × PoolFiles :=
  match files.stored with
  | some stored => (.ok (), { files with stored := some (dumpVecToFile txns stored) })
  | none => (.err (errMsg .ioError "Can't open pool ledger cache file"), files)

def dumpNewTxns (files : PoolFiles) (txns : List Bytes) : IndyResult Unit × PoolFiles :=
  match files.stored with
  | some _ => files.dumpVecToStored txns
  | none =>
    match files.dumpGenesisToStored crates poolName with
    | (.ok (), files) => files.dumpVecToStored txns
    | failed => failed

/-- Sessions that each write the transactions they caught up. -/
def sessions (files : PoolFiles) : List (List Bytes) → IndyResult PoolFiles
  | [] => .ok files
  | txns :: dumps =>
    match files.dumpNewTxns crates poolName txns with
    | (.ok (), files) => files.sessions dumps
    | (.err e, _) => .err e
    | (.panic, _) => .panic

end PoolFiles

variable {crates}

theorem appendRecords_cons (mt : MerkleTree) {record : Bytes} (h : record.length < 2 ^ 64)
    (rest : Bytes) :
    appendRecords crates mt (encode 8 record.length ++ record ++ rest) = (do
      let mt ← append crates.sha256 mt record
      appendRecords crates mt rest) := by
  have hlength : (encode 8 record.length).length = 8 :=
    length_encode 8 record.length
  have hvalue : value (encode 8 record.length) = record.length := by
    rw [value_encode]
    exact Nat.mod_eq_of_lt (by omega)
  have htake : (encode 8 record.length ++ (record ++ rest)).take 8 =
      encode 8 record.length := take_left' hlength
  have hdrop : (encode 8 record.length ++ (record ++ rest)).drop 8 = record ++ rest :=
    drop_left' hlength
  have hlong : ¬ (encode 8 record.length ++ (record ++ rest)).length < 8 := by
    rw [length_append, hlength]
    omega
  have hwhole : ¬ (record ++ rest).length < record.length := by
    rw [length_append]
    omega
  rw [append_assoc, appendRecords, if_neg hlong]
  simp only [htake, hdrop, hvalue]
  rw [if_neg hwhole, take_left, drop_left]

theorem appendRecords_nil (mt : MerkleTree) : appendRecords crates mt [] = .ok mt := by
  rw [appendRecords, if_pos (by decide)]

theorem appendRecords_dump (mt : MerkleTree) {records : List Bytes}
    (h : ∀ record ∈ records, record.length < 2 ^ 64) :
    appendRecords crates mt (dumpVecToFile records []) =
      records.foldlM (append crates.sha256) mt := by
  rw [dumpVecToFile, nil_append]
  induction records generalizing mt with
  | nil => exact appendRecords_nil mt
  | cons record records ih =>
    rw [flatMap_cons, appendRecords_cons mt (h record mem_cons_self), foldlM_cons]
    refine congrArg (fun next => append crates.sha256 mt record >>= next) (funext fun mt' => ?_)
    exact ih mt' (fun r hr => h r (mem_cons_of_mem record hr))

theorem dumpVecToFile_dump (records txns : List Bytes) :
    dumpVecToFile txns (dumpVecToFile records []) = dumpVecToFile (records ++ txns) [] := by
  rw [dumpVecToFile, dumpVecToFile, dumpVecToFile, nil_append, nil_append,
    flatMap_append]

theorem fromCache_sized {records : List Bytes}
    (h : ∀ record ∈ records, record.length < 2 ^ 64) :
    ∃ t, fromCache crates (dumpVecToFile records []) = .ok t ∧
      Sized crates.sha256 t records := by
  obtain ⟨empty, hempty, hsized⟩ := @fromVec_sized crates.sha256 []
  obtain ⟨t, ht, hsized⟩ := appends_sized hsized records
  refine ⟨t, ?_, hsized⟩
  rw [fromCache, hempty, ok_bind, appendRecords_dump empty h, ht]

/-- A line that the genesis path appends to the tree. -/
def Printed (line : Option String) : Prop := line.map trim ≠ some ""

instance : DecidablePred Printed := fun _ => inferInstanceAs (Decidable (_ ≠ _))

def lineTxn (crates : Crates) (line : Option String) : IndyResult Bytes :=
  lineOfGenesis line >>= parseTxnFromJson crates

variable {line : Option String}

theorem lineTxn_of_blank (h : ¬ Printed line) :
    lineTxn crates line = .ok [] := by
  obtain ⟨text, rfl, htrim⟩ := Option.map_eq_some_iff.mp (not_not.mp h)
  rw [lineTxn, lineOfGenesis, ofOption, ok_bind, parseTxnFromJson]
  exact if_pos htrim

theorem appendLine_of_blank (mt : MerkleTree) (h : ¬ Printed line) :
    appendLine crates mt line = .ok mt := by
  obtain ⟨text, rfl, htrim⟩ := Option.map_eq_some_iff.mp (not_not.mp h)
  rw [appendLine, lineOfGenesis, ofOption, ok_bind, if_pos htrim]
  rfl

theorem appendLine_of_printed (mt : MerkleTree) (h : Printed line) :
    appendLine crates mt line = lineTxn crates line >>= append crates.sha256 mt := by
  rw [appendLine, lineTxn]
  cases line with
  | none => rfl
  | some text =>
    have htrim : trim text ≠ "" := fun he => h (congrArg some he)
    rw [lineOfGenesis, ofOption, ok_bind, if_neg htrim, ok_bind]

/-- The genesis path appends the transactions of the lines that are not blank; the cache gets one
record for every line. -/
theorem appendLines_sized {lines : List (Option String)} {mt t : MerkleTree} {leaves : List Bytes}
    (hsized : Sized crates.sha256 mt leaves)
    (h : lines.foldlM (appendLine crates) mt = .ok t) :
    ∃ printed all, (lines.filter (fun line => Printed line)).mapM (lineTxn crates) = .ok printed ∧
      lines.mapM (lineTxn crates) = .ok all ∧ Sized crates.sha256 t (leaves ++ printed) := by
  induction lines generalizing mt leaves with
  | nil =>
    cases h
    exact ⟨[], [], rfl, rfl, by rwa [append_nil]⟩
  | cons line lines ih =>
    rw [foldlM_cons] at h
    by_cases hline : Printed line
    · rw [appendLine_of_printed mt hline] at h
      obtain ⟨mt', hmt', h⟩ := bind_eq_ok_iff.mp h
      obtain ⟨txn, htxn, hmt'⟩ := bind_eq_ok_iff.mp hmt'
      obtain ⟨next, hnext, hsized'⟩ := append_sized hsized txn
      rw [hnext] at hmt'
      cases hmt'
      obtain ⟨printed, all, hprinted, hall, hsized'⟩ := ih hsized' h
      refine ⟨txn :: printed, txn :: all, ?_, ?_, ?_⟩
      · have hfilter : (line :: lines).filter (fun line => Printed line) =
            line :: lines.filter (fun line => Printed line) :=
          filter_cons_of_pos (decide_eq_true hline)
        rw [hfilter, mapM_cons, htxn, ok_bind, hprinted]
        rfl
      · rw [mapM_cons, htxn, ok_bind, hall]
        rfl
      · rwa [append_assoc] at hsized'
    · rw [appendLine_of_blank mt hline, ok_bind] at h
      obtain ⟨printed, all, hprinted, hall, hsized'⟩ := ih hsized h
      refine ⟨printed, [] :: all, ?_, ?_, hsized'⟩
      · have hfilter : (line :: lines).filter (fun line => Printed line) =
            lines.filter (fun line => Printed line) :=
          filter_cons_of_neg (by rw [decide_eq_true_iff]; exact hline)
        rw [hfilter, hprinted]
      · rw [mapM_cons, lineTxn_of_blank hline, ok_bind, hall]
        rfl

theorem lineTxn_length
    (hencode : ∀ txn bytes, crates.toVecNamed txn = some bytes → bytes.length < 2 ^ 64)
    {txn : Bytes} (h : lineTxn crates line = .ok txn) : txn.length < 2 ^ 64 := by
  obtain ⟨text, -, h⟩ := bind_eq_ok_iff.mp h
  rw [parseTxnFromJson] at h
  by_cases hblank : trim text = ""
  · rw [if_pos hblank] at h
    cases h
    exact Nat.two_pow_pos 64
  · rw [if_neg hblank] at h
    obtain ⟨value, -, h⟩ := bind_eq_ok_iff.mp h
    cases hbytes : crates.toVecNamed value with
    | none =>
      rw [hbytes] at h
      cases h
    | some bytes =>
      rw [hbytes] at h
      cases h
      exact hencode value txn hbytes

theorem all_eq_printed_iff {lines : List (Option String)} {printed all : List Bytes}
    (hprinted : (lines.filter (fun line => Printed line)).mapM (lineTxn crates) = .ok printed)
    (hall : lines.mapM (lineTxn crates) = .ok all) :
    all = printed ↔ ∀ line ∈ lines, Printed line := by
  have hlenAll := congrArg List.length (mapM_eq_ok_iff.mp hall)
  have hlenPrinted := congrArg List.length (mapM_eq_ok_iff.mp hprinted)
  rw [length_map, length_map] at hlenAll hlenPrinted
  constructor
  · intro he
    rw [he, ← hlenPrinted] at hlenAll
    have hsublist : (lines.filter (fun line => Printed line)).Sublist lines := filter_sublist
    have hfilter := filter_eq_self.mp (hsublist.eq_of_length hlenAll.symm)
    exact fun line hline => of_decide_eq_true (hfilter line hline)
  · intro h
    have hfilter : lines.filter (fun line => Printed line) = lines :=
      filter_eq_self.mpr (fun line hline => decide_eq_true (h line hline))
    rw [hfilter, hall] at hprinted
    exact Outcome.ok.inj hprinted

/-- The same leaves in order, the same count and the same root hash. -/
def SameTree (t t' : MerkleTree) : Prop :=
  t.root.iter = t'.root.iter ∧ t.count = t'.count ∧ t.rootHash = t'.rootHash

theorem sameTree_iff {sha256 : Ledger.Sha256} {t t' : MerkleTree} {leaves leaves' : List Bytes}
    (h : Sized sha256 t leaves) (h' : Sized sha256 t' leaves') :
    SameTree t t' ↔ leaves = leaves' := by
  constructor
  · rintro ⟨hiter, -, -⟩
    rwa [h.toHolds.iter, h'.toHolds.iter] at hiter
  · rintro rfl
    rw [h.unique h']
    exact ⟨rfl, rfl, rfl⟩

namespace PoolFiles

variable {poolName : String}

theorem sessions_stored (genesis : Option Bytes) (records : List Bytes)
    (dumps : List (List Bytes)) :
    sessions crates poolName ⟨genesis, some (dumpVecToFile records [])⟩ dumps =
      .ok ⟨genesis, some (dumpVecToFile (records ++ dumps.flatten) [])⟩ := by
  induction dumps generalizing records with
  | nil => rw [sessions, flatten_nil, append_nil]
  | cons txns dumps ih =>
    rw [sessions, dumpNewTxns]
    simp only [dumpVecToStored]
    rw [dumpVecToFile_dump, ih, flatten_cons, append_assoc]

theorem sessions_first {genesis : Bytes} {all : List Bytes}
    (hall : genesisToBinary crates genesis = .ok all) (txns : List Bytes)
    (dumps : List (List Bytes)) :
    sessions crates poolName ⟨some genesis, none⟩ (txns :: dumps) =
      .ok ⟨some genesis, some (dumpVecToFile (all ++ (txns :: dumps).flatten) [])⟩ := by
  rw [sessions, dumpNewTxns]
  simp only [dumpGenesisToStored, hall, dumpVecToStored]
  rw [dumpVecToFile_dump, sessions_stored, flatten_cons, append_assoc]

end PoolFiles

/-- What the two trees hold once transactions were written: the cache has a record for every line
of the genesis, the genesis path a leaf for every line that is not blank. -/
theorem trees_after_dump (hencode : ∀ txn bytes, crates.toVecNamed txn = some bytes →
    bytes.length < 2 ^ 64) {genesis : Bytes} {t : MerkleTree}
    (haccepted : fromGenesis crates genesis = .ok t) (poolName : String) {txns : List Bytes}
    {dumps : List (List Bytes)} (hsize : ∀ txn ∈ (txns :: dumps).flatten, txn.length < 2 ^ 64) :
    ∃ printed all files cached direct,
      ((readLines genesis).filter (fun line => Printed line)).mapM (lineTxn crates) =
        .ok printed ∧
      (readLines genesis).mapM (lineTxn crates) = .ok all ∧
      PoolFiles.sessions crates poolName ⟨some genesis, none⟩ (txns :: dumps) = .ok files ∧
      files.create crates poolName = .ok cached ∧
      (txns :: dumps).flatten.foldlM (append crates.sha256) t = .ok direct ∧
      Sized crates.sha256 cached (all ++ (txns :: dumps).flatten) ∧
      Sized crates.sha256 direct (printed ++ (txns :: dumps).flatten) := by
  obtain ⟨empty, hempty, hsized⟩ := @fromVec_sized crates.sha256 []
  rw [fromGenesis, hempty, ok_bind] at haccepted
  obtain ⟨printed, all, hprinted, hall, hsized⟩ := appendLines_sized hsized haccepted
  have hrecords : ∀ record ∈ all ++ (txns :: dumps).flatten, record.length < 2 ^ 64 := by
    intro record hrecord
    rcases mem_append.mp hrecord with hrecord | hrecord
    · have hline : Outcome.ok record ∈ (readLines genesis).map (lineTxn crates) := by
        rw [mapM_eq_ok_iff.mp hall]
        exact mem_map_of_mem hrecord
      obtain ⟨line, -, hline⟩ := mem_map.mp hline
      exact lineTxn_length hencode hline
    · exact hsize record hrecord
  obtain ⟨cached, hcached, hcachedSized⟩ := fromCache_sized hrecords
  obtain ⟨direct, hdirect, hdirectSized⟩ := appends_sized hsized (txns :: dumps).flatten
  exact ⟨printed, all, _, cached, direct, hprinted, hall,
    PoolFiles.sessions_first hall txns dumps, hcached, hdirect, hcachedSized, hdirectSized⟩

/-- After any sessions the tree of the cache is the tree of the genesis with the transactions of
the sessions appended exactly when nothing was written or the genesis has no blank line. -/
theorem cache_agrees_iff (crates : Crates) (poolName : String)
    (hencode : ∀ txn bytes, crates.toVecNamed txn = some bytes → bytes.length < 2 ^ 64)
    {genesis : Bytes} {t : MerkleTree} (haccepted : fromGenesis crates genesis = .ok t)
    (dumps : List (List Bytes)) (hsize : ∀ txn ∈ dumps.flatten, txn.length < 2 ^ 64) :
    ∃ files cached direct,
      PoolFiles.sessions crates poolName ⟨some genesis, none⟩ dumps = .ok files ∧
      files.create crates poolName = .ok cached ∧
      dumps.flatten.foldlM (append crates.sha256) t = .ok direct ∧
      (SameTree cached direct ↔ dumps = [] ∨ ∀ line ∈ readLines genesis, Printed line) := by
  cases dumps with
  | nil =>
    refine ⟨⟨some genesis, none⟩, t, t, rfl, haccepted, rfl, ?_⟩
    exact ⟨fun _ => .inl rfl, fun _ => ⟨rfl, rfl, rfl⟩⟩
  | cons txns dumps =>
    obtain ⟨printed, all, files, cached, direct, hprinted, hall, hfiles, hcached, hdirect,
      hcachedSized, hdirectSized⟩ := trees_after_dump hencode haccepted poolName hsize
    refine ⟨files, cached, direct, hfiles, hcached, hdirect, ?_⟩
    rw [sameTree_iff hcachedSized hdirectSized, append_left_inj,
      all_eq_printed_iff hprinted hall]
    constructor
    · exact .inr
    · rintro (he | hlines)
      · cases he
      · exact hlines

/-- An encoder for the empty object. -/
def emptyObjectCrates : Crates :=
  { Crates.none with
    sha256 := Ledger.toySha256
    fromStr := fun s => if s = "\x7b\x7d" then some (.obj []) else Option.none
    toVecNamed := fun _ => some [0x80] }

theorem emptyObject_length (txn : Json) (bytes : Bytes)
    (h : emptyObjectCrates.toVecNamed txn = some bytes) : bytes.length < 2 ^ 64 := by
  cases h
  decide

def twoLines : Bytes := Bytes.ofText "\x7b\x7d\n\x7b\x7d\n"

/-- The same transactions with a blank line between them. -/
def threeLines : Bytes := Bytes.ofText "\x7b\x7d\n\n\x7b\x7d\n"

theorem accepts_emptyObjects {file : Bytes} (h : fromGenesis emptyObjectCrates file =
    MerkleTree.fromVec Ledger.toySha256 [[0x80], [0x80]]) :
    ∃ t, fromGenesis emptyObjectCrates file = .ok t := by
  obtain ⟨t, ht, -⟩ := @fromVec_sized Ledger.toySha256 [[0x80], [0x80]]
  exact ⟨t, h.trans ht⟩

/-- A genesis without blank lines, and three transactions in two sessions. -/
theorem cache_agrees_iff_twoLines :
    ∃ t, fromGenesis emptyObjectCrates twoLines = .ok t ∧ ∃ files cached direct,
      PoolFiles.sessions emptyObjectCrates "pool" ⟨some twoLines, none⟩ [[[1]], [[2], [3]]] =
        .ok files ∧
      files.create emptyObjectCrates "pool" = .ok cached ∧
      [[1], [2], [3]].foldlM (append emptyObjectCrates.sha256) t = .ok direct ∧
      SameTree cached direct := by
  obtain ⟨t, ht⟩ := @accepts_emptyObjects twoLines (by decide +kernel)
  obtain ⟨files, cached, direct, hfiles, hcached, hdirect, hsame⟩ :=
    cache_agrees_iff emptyObjectCrates "pool" emptyObject_length ht [[[1]], [[2], [3]]] (by decide)
  have hprinted : ∀ line ∈ readLines twoLines, Printed line := by decide +kernel
  exact ⟨t, ht, files, cached, direct, hfiles, hcached, hdirect, hsame.mpr (.inr hprinted)⟩

/-- After the first session the cache has an empty leaf for the blank line. -/
theorem blankLine_cached :
    ∃ t, fromGenesis emptyObjectCrates threeLines = .ok t ∧ ∃ files cached direct,
      PoolFiles.sessions emptyObjectCrates "pool" ⟨some threeLines, none⟩ [[[1]]] = .ok files ∧
      files.create emptyObjectCrates "pool" = .ok cached ∧
      [[1]].foldlM (append emptyObjectCrates.sha256) t = .ok direct ∧
      cached.count = 4 ∧ direct.count = 3 ∧ ¬ SameTree cached direct := by
  obtain ⟨t, ht⟩ := @accepts_emptyObjects threeLines (by decide +kernel)
  obtain ⟨printed, all, files, cached, direct, hprinted, hall, hfiles, hcached, hdirect,
    hcachedSized, hdirectSized⟩ := @trees_after_dump _ emptyObject_length _ t ht "pool" [[1]] []
      (by decide)
  have hlines : (readLines threeLines).mapM (lineTxn emptyObjectCrates) =
      .ok [[0x80], [], [0x80]] := by decide +kernel
  have hfiltered : ((readLines threeLines).filter (fun line => Printed line)).mapM
      (lineTxn emptyObjectCrates) = .ok [[0x80], [0x80]] := by decide +kernel
  cases Outcome.ok.inj (hall.symm.trans hlines)
  cases Outcome.ok.inj (hprinted.symm.trans hfiltered)
  refine ⟨t, ht, files, cached, direct, hfiles, hcached, hdirect, hcachedSized.count,
    hdirectSized.count, ?_⟩
  rw [sameTree_iff hcachedSized hdirectSized]
  decide

end IndySdk.Pool
