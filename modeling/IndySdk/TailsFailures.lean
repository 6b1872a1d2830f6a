import IndySdk.RevocationRegistry
import IndySdk.TailsFiles

/-!
# Tails that cannot be made

A registry is created by the cryptographic library, its tails are stored, and its four records are
added one after the other. A worker that cannot make its tail says so only on the screen: the
collected list is then too short, and the thread that reads it aborts.
-/

namespace IndySdk.Tails

open Outcome
open Anoncreds (IssuanceType RevocationRegistryInfo)
open WorkerPool (Schedule)

/-- The configuration of a registry, with the text of the issuance type. -/
structure RevocationRegistryConfig where
  issuanceType : Option String
  maxCredNum : Option ℕ

inductive RegistryType where
  | clAccum
  deriving DecidableEq

structure RevocationRegistryDefinitionValue (P : Type) where
  issuanceType : IssuanceType
  maxCredNum : ℕ
  publicKeys : P
  tailsHash : String
  tailsLocation : String

structure RevocationRegistryDefinition (P : Type) where
  id : String
  revocDefType : RegistryType
  tag : String
  credDefId : String
  value : RevocationRegistryDefinitionValue P

/-- The records of an issuer that creating a registry reads and adds. -/
structure RegistryWallet (C P K G : Type) where
  credDefs : AssocMap String C
  revRegDefs : AssocMap String (RevocationRegistryDefinition P)
  revRegs : AssocMap String G
  revRegPrivateKeys : AssocMap String K
  revRegInfos : AssocMap String RevocationRegistryInfo

structure RegistryRequest where
  issuerDid : String
  type : Option String
  tag : String
  credDefId : String
  config : RevocationRegistryConfig

/-- The texts that the deserializer reads between quotation marks. -/
abbrev ReadsQuoted := String → Option String

def RegistryType.toStr : RegistryType → String
  | .clAccum => "CL_ACCUM"

def readRegistryType (quoted : ReadsQuoted) (type : Option String) : IndyResult RegistryType :=
  match type with
  | none => .ok .clAccum
  | some text =>
    if quoted text = some "CL_ACCUM" then .ok .clAccum
    else .err (errMsg .invalidStructure "Invalid Registry Type format")

def readIssuanceType (quoted : ReadsQuoted) (type : Option String) : IndyResult IssuanceType :=
  match type with
  | none => .ok .issuanceOnDemand
  | some text =>
    if quoted text = some "ISSUANCE_BY_DEFAULT" then .ok .issuanceByDefault
    else if quoted text = some "ISSUANCE_ON_DEMAND" then .ok .issuanceOnDemand
    else .err (errMsg .invalidStructure "Invalid Issuance Type format")

def revRegId (did credDefId : String) (revRegType : RegistryType) (tag : String) : String :=
  String.intercalate ":" [did, "4", credDefId, revRegType.toStr, tag]

section Create

variable {C P K G T : Type}

/-- What the library makes for a definition: keys, accumulator and generator of tails. -/
abbrev NewRegistry (C P K G T : Type) :=
  C → (maxCredNum : ℕ) → (issuanceByDefault : Bool) →
    IndyResult (P × K × G × RevocationTailsGenerator T)

abbrev RegistryAction (C P K G α : Type) := Stateful (Disk × RegistryWallet C P K G) IndyError α

def onDisk {α : Type} (action : DiskAction α) : RegistryAction C P K G α :=
  fun s => ((action s.1).1, (action s.1).2, s.2)

def addIndyObject {α : Type} (records : RegistryWallet C P K G → AssocMap String α)
    (setRecords : AssocMap String α → RegistryWallet C P K G → RegistryWallet C P K G)
    (id : String) (object : α) : RegistryAction C P K G Unit :=
  fun s =>
    if id ∈ records s.2 then
      (.err (errMsg .walletItemAlreadyExists "Wallet item already exists"), s)
    else (.ok (), s.1, setRecords ((records s.2).insert id object) s.2)

variable (library : TailLibrary T) (failures : IoFailures) (writer : Option DefaultWriterConfig)

def createAndStoreRevocationRegistry (quoted : ReadsQuoted) (newRegistry : NewRegistry C P K G T)
    (schedule : ∀ generator : RevocationTailsGenerator T,
      Schedule (tailJob library generator) generator.size)
    (request : RegistryRequest) :
    RegistryAction C P K G (String × RevocationRegistryDefinition P × G) := do
  let revRegType ← Stateful.read (fun _ => readRegistryType quoted request.type)
  let issuanceType ← Stateful.read (fun _ => readIssuanceType quoted request.config.issuanceType)
  let maxCredNum := request.config.maxCredNum.getD 100000
  let id := revRegId request.issuerDid request.credDefId revRegType request.tag
  let credDef ← Stateful.read (fun s =>
    Outcome.ofOption (errMsg .walletItemNotFound "Wallet item not found")
      (s.2.credDefs.lookup request.credDefId))
  let (publicKeys, revocKeyPrivate, revocRegistry, generator) ←
    Stateful.read (fun _ => newRegistry credDef maxCredNum issuanceType.toBool)
  let (tailsLocation, tailsHash) ←
    onDisk (storeTailsFromGenerator library failures writer (schedule generator))
  let revocRegDef : RevocationRegistryDefinition P := ⟨id, revRegType, request.tag,
    request.credDefId, ⟨issuanceType, maxCredNum, publicKeys, tailsHash, tailsLocation⟩⟩
  addIndyObject (·.revRegDefs) (fun records w => { w with revRegDefs := records }) id revocRegDef
  addIndyObject (·.revRegs) (fun records w => { w with revRegs := records }) id revocRegistry
  addIndyObject (·.revRegPrivateKeys) (fun records w => { w with revRegPrivateKeys := records }) id
    revocKeyPrivate
  addIndyObject (·.revRegInfos) (fun records w => { w with revRegInfos := records }) id ⟨0, ∅⟩
  pure (id, revocRegDef, revocRegistry)

/-! ### Failing workers -/

/-- Some worker comes to no bytes. -/
def SomeFails (generator : RevocationTailsGenerator T) : Prop :=
  ∃ i < generator.size, ∀ bytes, tailJob library generator i ≠ .publish bytes

/-- The blob cannot even be started: no writer, no temporary file, or no tag in it. -/
def StartFails : Prop :=
  writer = none ∨ failures .createTmpDir ≠ none ∨ failures .createFile ≠ none ∨
    failures (.write 0) ≠ none

/-- The library with its generator replaced by a given one. -/
def withGenerator (generator : RevocationTailsGenerator T)
    (material : C → ℕ → Bool → IndyResult (P × K × G)) : NewRegistry C P K G T :=
  fun credDef maxCredNum byDefault =>
    (fun m => (m.1, m.2.1, m.2.2, generator)) <$> material credDef maxCredNum byDefault

/-- In every order of the workers storing is an error, and creating leaves files and records. -/
structure FailsCleanly (C P K G : Type) (generator : RevocationTailsGenerator T) : Prop where
  refused : ∀ (schedule : Schedule (tailJob library generator) generator.size) disk,
    ∃ e, (storeTailsFromGenerator library failures writer schedule disk).1 = .err e
  untouched : ∀ quoted (material : C → ℕ → Bool → IndyResult (P × K × G)) schedule request s,
    (createAndStoreRevocationRegistry library failures writer quoted
      (withGenerator generator material) schedule request s).2 = s

end Create

section Failing

variable {C P K G T : Type} {library : TailLibrary T} {failures : IoFailures}
  {writer : Option DefaultWriterConfig} {generator : RevocationTailsGenerator T}
  {schedule : Schedule (tailJob library generator) generator.size}

theorem indexTails_eq_panic {tailsData : List (ℕ × Bytes)} {indices : List ℕ}
    (h : ∃ i ∈ indices, tailsData[i]? = none) (map : AssocMap ℕ Bytes) :
    indexTails tailsData indices map = .panic := by
  induction indices generalizing map with
  | nil =>
    obtain ⟨i, hi, -⟩ := h
    cases hi
  | cons i rest ih =>
    rw [indexTails]
    cases hget : tailsData[i]? with
    | none => rfl
    | some p =>
      rw [unwrap_some, ok_bind]
      refine ih ?_ _
      obtain ⟨j, hj, hnone⟩ := h
      rcases List.mem_cons.mp hj with rfl | hj
      · rw [hget] at hnone
        cases hnone
      · exact ⟨j, hj, hnone⟩

theorem length_shared_lt (h : SomeFails library generator) :
    schedule.final.shared.length < generator.size := by
  rw [schedule.shared_perm.length_eq, WorkerPool.published]
  conv_rhs => rw [← List.length_range (n := generator.size)]
  rw [List.length_filterMap_lt_length_iff_exists]
  obtain ⟨i, hi, hnot⟩ := h
  refine ⟨i, List.mem_range.mpr hi, ?_⟩
  cases hjob : tailJob library generator i with
  | publish bytes => exact absurd hjob (hnot bytes)
  | withhold => rfl
  | abort => rfl

theorem writeTails_of_fails (h : SomeFails library generator) :
    writeTails library failures writer schedule =
      startBlob failures writer >>= fun _ => Outcome.panic := by
  have hout : ∃ i ∈ List.range generator.size, schedule.final.shared[i]? = none :=
    ⟨_, List.mem_range.mpr (length_shared_lt h), List.getElem?_eq_none le_rfl⟩
  rw [writeTails, joinWorkers]
  split
  · rfl
  · simp only [ok_bind, indexTails_eq_panic hout, panic_bind]

theorem startBlob_ne_panic : startBlob failures writer ≠ .panic := by
  have hattempt : ∀ call, attempt failures call ≠ .panic := by
    intro call
    cases h : failures call <;> simp [attempt, h]
  cases writer with
  | none => exact err_ne_panic _
  | some config =>
    refine bind_ne_panic (bind_ne_panic (ok_ne_panic _) fun _ =>
      bind_ne_panic (hattempt _) fun _ => bind_ne_panic (hattempt _) fun _ =>
        ok_ne_panic _) fun blob => ?_
    exact bind_ne_panic (hattempt _) fun _ => ok_ne_panic _

theorem startFails_iff : StartFails failures writer ↔ ∃ e, startBlob failures writer = .err e := by
  constructor
  · intro h
    cases hstart : startBlob failures writer with
    | err e => exact ⟨e, rfl⟩
    | panic => exact absurd hstart startBlob_ne_panic
    | ok blob =>
      obtain ⟨config, rfl, hdir, hfile, hwrite, -⟩ := startBlob_eq_ok.mp hstart
      rcases h with hnone | hnot | hnot | hnot
      · cases hnone
      · exact absurd hdir hnot
      · exact absurd hfile hnot
      · exact absurd hwrite hnot
  · rintro ⟨e, he⟩
    by_contra hnot
    rw [StartFails] at hnot
    push Not at hnot
    obtain ⟨hwriter, hdir, hfile, hwrite⟩ := hnot
    obtain ⟨config, hconfig⟩ := Option.ne_none_iff_exists'.mp hwriter
    have hok := startBlob_eq_ok.mpr ⟨config, hconfig, hdir, hfile, hwrite, rfl⟩
    rw [he] at hok
    cases hok

theorem storeTails_of_fails (h : SomeFails library generator) (disk : Disk) :
    (StartFails failures writer → ∃ e,
        storeTailsFromGenerator library failures writer schedule disk = (.err e, disk)) ∧
      (¬ StartFails failures writer →
        storeTailsFromGenerator library failures writer schedule disk = (.panic, disk)) := by
  rw [startFails_iff]
  constructor
  · rintro ⟨e, he⟩
    refine ⟨e, Stateful.bind_err ?_⟩
    rw [Stateful.read, writeTails_of_fails h, he]
    rfl
  · intro hnot
    refine Stateful.bind_panic ?_
    rw [Stateful.read, writeTails_of_fails h]
    cases hstart : startBlob failures writer with
    | err e => exact absurd ⟨e, hstart⟩ hnot
    | panic => rfl
    | ok blob => rfl

theorem create_untouched (hstore : ∀ (schedule : Schedule (tailJob library generator)
      generator.size) disk,
      (storeTailsFromGenerator library failures writer schedule disk).2 = disk ∧
        ∀ stored, (storeTailsFromGenerator library failures writer schedule disk).1 ≠ .ok stored)
    (quoted : ReadsQuoted) (material : C → ℕ → Bool → IndyResult (P × K × G))
    (schedule : ∀ generator : RevocationTailsGenerator T,
      Schedule (tailJob library generator) generator.size)
    (request : RegistryRequest) (s : Disk × RegistryWallet C P K G) :
    (createAndStoreRevocationRegistry library failures writer quoted
      (withGenerator generator material) schedule request s).2 = s := by
  have hread : ∀ {α : Type} (g : Disk × RegistryWallet C P K G → IndyResult α),
      Stateful.Triple (fun t => t = s) (Stateful.read g) (fun _ t => t = s) (fun t => t = s) :=
    fun g => Stateful.triple_read (fun _ _ ht _ => ht) (fun _ ht => ht)
  have htails : Stateful.Triple (fun t => t = s)
      (onDisk (storeTailsFromGenerator library failures writer (schedule generator)))
      (fun _ _ => False) (fun t => t = s) := by
    rintro t rfl
    obtain ⟨hsame, hnot⟩ := hstore (schedule generator) t.1
    rw [onDisk, hsame]
    cases hrun : (storeTailsFromGenerator library failures writer (schedule generator) t.1).1 with
    | ok stored => exact hnot stored hrun
    | err e => rfl
    | panic => rfl
  refine Stateful.Triple.ends (P := fun t => t = s) (I := fun t => t = s) ?_ rfl
  refine Stateful.triple_bind (hread _) fun revRegType => ?_
  refine Stateful.triple_bind (hread _) fun issuanceType => ?_
  refine Stateful.triple_bind (hread _) fun credDef => ?_
  refine Stateful.triple_bind (Q := fun made t => t = s ∧ made.2.2.2 = generator)
    (Stateful.triple_read ?_ (fun _ ht => ht)) fun made => Stateful.triple_of_fact ?_
  · intro t made ht hmade
    obtain ⟨m, -, rfl⟩ := map_eq_ok_iff.mp hmade
    exact ⟨ht, rfl⟩
  · rintro rfl
    exact Stateful.triple_bind htails fun _ _ hfalse => hfalse.elim

end Failing

/-- A worker that cannot make its tail is reported as an error exactly when the blob could not be
started in the first place. -/
theorem failsCleanly_iff {T : Type} (C P K G : Type) (library : TailLibrary T)
    (failures : IoFailures) (writer : Option DefaultWriterConfig)
    (generator : RevocationTailsGenerator T) :
    (SomeFails library generator → FailsCleanly library failures writer C P K G generator) ↔
      (∀ i < generator.size, ∃ bytes, tailJob library generator i = .publish bytes) ∨
        StartFails failures writer := by
  have hall : ¬ SomeFails library generator ↔
      ∀ i < generator.size, ∃ bytes, tailJob library generator i = .publish bytes := by
    rw [SomeFails]
    push Not
    rfl
  constructor
  · intro h
    rw [← hall]
    by_contra hboth
    push Not at hboth
    obtain ⟨hfails, hstart⟩ := hboth
    let schedule : Schedule (tailJob library generator) generator.size := Classical.arbitrary _
    obtain ⟨e, he⟩ := (h hfails).refused schedule ∅
    rw [(storeTails_of_fails hfails ∅).2 hstart] at he
    cases he
  · rintro (hnone | hstart) hfails
    · exact absurd hfails (hall.mpr hnone)
    · have hstore := fun schedule disk =>
        (@storeTails_of_fails _ _ _ _ _ schedule hfails disk).1 hstart
      refine ⟨fun schedule disk => ?_, create_untouched fun schedule disk => ?_⟩
      · obtain ⟨e, he⟩ := hstore schedule disk
        exact ⟨e, by rw [he]⟩
      · obtain ⟨e, he⟩ := hstore schedule disk
        rw [he]
        exact ⟨rfl, err_ne_ok e⟩

/-- A generator of two tails that can only make the first. -/
def oneTail : RevocationTailsGenerator PlainTail where
  size := 2
  generateTail i :=
    if i = 0 then .ok (some (plainTail i)) else .err (errMsg .invalidState "No more tails")

def oneTailSchedule : Schedule (tailJob plainLibrary oneTail) oneTail.size where
  events := [.spawn, .spawn, .work 0, .work 1, .work 0]
  joined := by
    refine ⟨rfl, fun phase hphase => ?_⟩
    rcases List.mem_cons.mp hphase with rfl | hphase
    · rfl
    · rw [List.mem_singleton.mp hphase]
      rfl

theorem oneTail_aborts :
    (storeTailsFromGenerator plainLibrary (fun _ => none) (some ⟨"/tails", ""⟩) oneTailSchedule
        ∅).1 = .panic ∧
      ¬ FailsCleanly plainLibrary (fun _ => none) (some ⟨"/tails", ""⟩) Unit Unit Unit Unit
        oneTail := by
  have hpanic : (storeTailsFromGenerator plainLibrary (fun _ => none) (some ⟨"/tails", ""⟩)
      oneTailSchedule ∅).1 = .panic := rfl
  refine ⟨hpanic, fun h => ?_⟩
  obtain ⟨e, he⟩ := h.refused oneTailSchedule ∅
  rw [hpanic] at he
  cases he

theorem create_of_fails {C P K G T : Type} {library : TailLibrary T} {failures : IoFailures}
    {writer : Option DefaultWriterConfig} {generator : RevocationTailsGenerator T}
    (h : SomeFails library generator) (quoted : ReadsQuoted)
    (material : C → ℕ → Bool → IndyResult (P × K × G))
    (schedule : ∀ generator : RevocationTailsGenerator T,
      Schedule (tailJob library generator) generator.size)
    (request : RegistryRequest) (s : Disk × RegistryWallet C P K G) :
    (createAndStoreRevocationRegistry library failures writer quoted
      (withGenerator generator material) schedule request s).2 = s := by
  refine create_untouched (fun schedule disk => ?_) quoted material schedule request s
  obtain ⟨herr, hpanic⟩ := @storeTails_of_fails _ _ failures writer _ schedule h disk
  by_cases hstart : StartFails failures writer
  · obtain ⟨e, he⟩ := herr hstart
    rw [he]
    exact ⟨rfl, err_ne_ok e⟩
  · rw [hpanic hstart]
    exact ⟨rfl, panic_ne_ok⟩

/-- An issuer with one credential definition and no registry yet. -/
def issuerWallet : RegistryWallet Unit Unit Unit Unit :=
  ⟨AList.singleton "definition" (), ∅, ∅, ∅, ∅⟩

theorem oneTail_leaves_all :
    (createAndStoreRevocationRegistry plainLibrary (fun _ => none) (some ⟨"/tails", ""⟩)
      (fun _ => none) (withGenerator oneTail fun _ _ _ => .ok ((), (), ()))
      (fun _ => Classical.arbitrary _) ⟨"issuer", none, "tag", "definition", ⟨none, some 1⟩⟩
      (∅, issuerWallet)).2 = (∅, issuerWallet) :=
  create_of_fails ⟨1, by decide, fun bytes he => by cases he⟩ _ _ _ _ _

end IndySdk.Tails
