import IndySdk.Errors
import IndySdk.Lockstep
import IndySdk.Numerals
import Mathlib.Algebra.BigOperators.Group.Finset.Basic
import Mathlib.Order.Interval.Finset.Nat

/-!
# Revocation registries of an issuer

A wallet keeps an accumulator and an info record for each registry. Issuing, revoking and recovering
read both, compute both anew and write them back one after the other. The set of the info record
holds the valid identifiers of a registry that issues on demand, and the revoked ones of a registry
that issues by default.
-/

namespace IndySdk.Anoncreds

open Outcome

inductive IssuanceType where
  | issuanceByDefault
  | issuanceOnDemand
  deriving DecidableEq, Repr

def IssuanceType.toBool : IssuanceType → Bool
  | .issuanceByDefault => true
  | .issuanceOnDemand => false

structure RevocationRegistryConfig where
  issuanceType : Option IssuanceType
  maxCredNum : Option ℕ

structure RevocationRegistryDefinitionValue where
  issuanceType : IssuanceType
  maxCredNum : ℕ
  deriving DecidableEq

structure RevocationRegistryInfo where
  currId : ℕ
  usedIds : Finset ℕ
  deriving DecidableEq

/-- The records that a wallet keeps for a registry, with the accumulator in a group. -/
structure RevRegRecords (G : Type) where
  revRegDef : RevocationRegistryDefinitionValue
  revReg : G
  revRegInfo : RevocationRegistryInfo
  deriving DecidableEq

/-- The calls of a command on the wallet, the tails and the serializer. -/
inductive IssuerOperation where
  | getCredDef
  | getPrivateKey
  | getSchemaId
  | getRevRegDef
  | getRevReg
  | getRevRegDefPrivate
  | getRevRegInfo
  | newTailsAccessor
  | newWitness
  | serializeCredential
  | serializeDelta
  | updateRevReg
  | updateRevRegInfo
  deriving DecidableEq

structure IssuerWorld where
  attempt : IssuerOperation → IndyResult Unit
  overflowChecks : Bool

/-- The accumulator operations of the cryptographic library. -/
structure CryptoIssuer (G : Type) where
  newRevocationRegistryDef : (maxCredNum : ℕ) → (issuanceByDefault : Bool) → IndyResult G
  signCredentialWithRevoc :
    (revIdx maxCredNum : ℕ) → (issuanceByDefault : Bool) → (revReg : G) → IndyResult G
  revokeCredential : (maxCredNum revIdx : ℕ) → (revReg : G) → IndyResult G
  recoveryCredential : (maxCredNum revIdx : ℕ) → (revReg : G) → IndyResult G

def parseCredRevId (credRevId : String) : IndyResult ℕ :=
  ofOption (errMsg .invalidStructure "Cannot parse CredentialRevocationId")
    (Numerals.parseUnsigned 32 credRevId)

def revocIdNotFound (credRevocId : ℕ) : IndyError :=
  errMsg .invalidUserRevocId "Revocation id: _ not found in RevocationRegistry" [credRevocId.repr]

/-- Removing an identifier that is not in the set is an error. -/
def removeUsed (usedIds : Finset ℕ) (credRevocId : ℕ) : IndyResult (Finset ℕ) :=
  if credRevocId ∈ usedIds then .ok (usedIds.erase credRevocId)
  else .err (revocIdNotFound credRevocId)

/-- Inserting an identifier that is in the set is an error. -/
def insertUsed (usedIds : Finset ℕ) (credRevocId : ℕ) : IndyResult (Finset ℕ) :=
  if credRevocId ∈ usedIds then .err (revocIdNotFound credRevocId)
  else .ok (insert credRevocId usedIds)

section

variable {G : Type} (crypto : CryptoIssuer G) (world : IssuerWorld) (records : RevRegRecords G)

def createRevocationRegistry (config : RevocationRegistryConfig) :
    IndyResult (RevRegRecords G) := do
  let issuanceType := config.issuanceType.getD .issuanceOnDemand
  let maxCredNum := config.maxCredNum.getD 100000
  let revReg ← crypto.newRevocationRegistryDef maxCredNum issuanceType.toBool
  pure ⟨⟨issuanceType, maxCredNum⟩, revReg, ⟨0, ∅⟩⟩

/-- Write both records, the accumulator first. -/
def storeRecords (revReg : G) (info : RevocationRegistryInfo) : IndyResult Unit × RevRegRecords G :=
  match world.attempt .updateRevReg with
  | .ok _ =>
    match world.attempt .updateRevRegInfo with
    | .ok _ => (.ok (), { records with revReg := revReg, revRegInfo := info })
    | failed => (failed, { records with revReg := revReg })
  | failed => (failed, records)

/-- Store what a command computed; a command that fails stores nothing. -/
def storeComputed {α : Type} (computed : IndyResult (G × RevocationRegistryInfo × α)) :
    IndyResult α × RevRegRecords G :=
  match computed with
  | .ok (revReg, info, a) =>
    ((fun _ => a) <$> (storeRecords world records revReg info).1,
      (storeRecords world records revReg info).2)
  | .err e => (.err e, records)
  | .panic => (.panic, records)

def issueRecords (blobStorageReaderHandle : Option ℤ) :
    IndyResult (G × RevocationRegistryInfo × Option String) := do
  world.attempt .getCredDef
  world.attempt .getPrivateKey
  world.attempt .getSchemaId
  world.attempt .getRevRegDef
  world.attempt .getRevReg
  world.attempt .getRevRegDefPrivate
  world.attempt .getRevRegInfo
  let revRegDef := records.revRegDef
  let currId ← wordAdd 32 world.overflowChecks 1 records.revRegInfo.currId
  if revRegDef.maxCredNum < currId then
    .err (errMsg .revocationRegistryFull "RevocationRegistryAccumulator is full")
  else
    let usedIds :=
      match revRegDef.issuanceType with
      | .issuanceOnDemand => insert currId records.revRegInfo.usedIds
      | .issuanceByDefault => records.revRegInfo.usedIds
    let _ ← (ofOption (errMsg .invalidStructure "TailsReaderHandle not found")
      blobStorageReaderHandle : IndyResult ℤ)
    world.attempt .newTailsAccessor
    let revReg ← crypto.signCredentialWithRevoc currId revRegDef.maxCredNum
      revRegDef.issuanceType.toBool records.revReg
    world.attempt .newWitness
    world.attempt .serializeCredential
    world.attempt .serializeDelta
    pure (revReg, ⟨currId, usedIds⟩, some currId.repr)

def newCredential (blobStorageReaderHandle : Option ℤ) :
    IndyResult (Option String) × RevRegRecords G :=
  storeComputed world records (issueRecords crypto world records blobStorageReaderHandle)

/-- What revoking and recovering have in common: a change of the set and one of the accumulator. -/
def changeRecords (changeUsed : Finset ℕ → ℕ → IndyResult (Finset ℕ))
    (changeReg : ℕ → ℕ → G → IndyResult G) (credRevocId : String) :
    IndyResult (G × RevocationRegistryInfo × Option String) := do
  let credRevocId ← parseCredRevId credRevocId
  world.attempt .getRevRegDef
  world.attempt .getRevReg
  world.attempt .newTailsAccessor
  let bound ← wordAdd 32 world.overflowChecks records.revRegDef.maxCredNum 1
  if bound < credRevocId then .err (revocIdNotFound credRevocId)
  else
    world.attempt .getRevRegInfo
    let usedIds ← changeUsed records.revRegInfo.usedIds credRevocId
    let revReg ← changeReg records.revRegDef.maxCredNum credRevocId records.revReg
    world.attempt .serializeDelta
    pure (revReg, ⟨records.revRegInfo.currId, usedIds⟩, none)

def revokeRecords (credRevocId : String) :
    IndyResult (G × RevocationRegistryInfo × Option String) :=
  let changeUsed :=
    match records.revRegDef.issuanceType with
    | .issuanceOnDemand => removeUsed
    | .issuanceByDefault => insertUsed
  changeRecords world records changeUsed crypto.revokeCredential credRevocId

def revokeCredential (credRevocId : String) : IndyResult (Option String) × RevRegRecords G :=
  storeComputed world records (revokeRecords crypto world records credRevocId)

def recoveryRecords (credRevocId : String) :
    IndyResult (G × RevocationRegistryInfo × Option String) :=
  let changeUsed :=
    match records.revRegDef.issuanceType with
    | .issuanceOnDemand => insertUsed
    | .issuanceByDefault => removeUsed
  changeRecords world records changeUsed crypto.recoveryCredential credRevocId

def recoveryCredential (credRevocId : String) : IndyResult (Option String) × RevRegRecords G :=
  storeComputed world records (recoveryRecords crypto world records credRevocId)

end

inductive RegistryCall where
  | newCredential (blobStorageReaderHandle : Option ℤ)
  | revokeCredential (credRevocId : String)
  | recoveryCredential (credRevocId : String)

/-- The commands on one registry; a call answers with the identifier it issues. -/
def registryMachine {G : Type} (crypto : CryptoIssuer G) :
    Machine (RevRegRecords G) (IssuerWorld × RegistryCall) (IndyResult (Option String)) where
  step input records :=
    match input.2 with
    | .newCredential handle => newCredential crypto input.1 records handle
    | .revokeCredential id => revokeCredential crypto input.1 records id
    | .recoveryCredential id => recoveryCredential crypto input.1 records id

/-- The identifiers that the info record says are valid. -/
def RevRegRecords.validIds {G : Type} (records : RevRegRecords G) : Finset ℕ :=
  match records.revRegDef.issuanceType with
  | .issuanceOnDemand => records.revRegInfo.usedIds
  | .issuanceByDefault =>
    Finset.Icc 1 records.revRegDef.maxCredNum \ records.revRegInfo.usedIds

theorem removeUsed_ok {usedIds usedIds' : Finset ℕ} {id : ℕ} :
    removeUsed usedIds id = .ok usedIds' ↔ id ∈ usedIds ∧ usedIds' = usedIds.erase id := by
  rw [removeUsed]
  by_cases h : id ∈ usedIds
  · rw [if_pos h, Outcome.ok.injEq]
    exact ⟨fun he => ⟨h, he.symm⟩, fun he => he.2.symm⟩
  · rw [if_neg h]
    constructor
    · intro he
      cases he
    · exact fun he => absurd he.1 h

theorem insertUsed_ok {usedIds usedIds' : Finset ℕ} {id : ℕ} :
    insertUsed usedIds id = .ok usedIds' ↔ id ∉ usedIds ∧ usedIds' = insert id usedIds := by
  rw [insertUsed]
  by_cases h : id ∈ usedIds
  · rw [if_pos h]
    constructor
    · intro he
      cases he
    · exact fun he => absurd h he.1
  · rw [if_neg h, Outcome.ok.injEq]
    exact ⟨fun he => ⟨h, he.symm⟩, fun he => he.2.symm⟩

section

variable {G : Type} {crypto : CryptoIssuer G} {world : IssuerWorld} {records : RevRegRecords G}
  {revReg : G} {info : RevocationRegistryInfo} {answer : Option String}

theorem issueRecords_ok {handle : Option ℤ}
    (h : issueRecords crypto world records handle = .ok (revReg, info, answer)) :
    ∃ id, (wordAdd 32 world.overflowChecks 1 records.revRegInfo.currId : IndyResult ℕ) =
        .ok id ∧ id ≤ records.revRegDef.maxCredNum ∧
      crypto.signCredentialWithRevoc id records.revRegDef.maxCredNum
        records.revRegDef.issuanceType.toBool records.revReg = .ok revReg ∧
      info = ⟨id, match records.revRegDef.issuanceType with
        | .issuanceOnDemand => insert id records.revRegInfo.usedIds
        | .issuanceByDefault => records.revRegInfo.usedIds⟩ ∧
      answer = some id.repr := by
  rw [issueRecords] at h
  obtain ⟨⟨⟩, -, h⟩ := bind_eq_ok_iff.mp h
  obtain ⟨⟨⟩, -, h⟩ := bind_eq_ok_iff.mp h
  obtain ⟨⟨⟩, -, h⟩ := bind_eq_ok_iff.mp h
  obtain ⟨⟨⟩, -, h⟩ := bind_eq_ok_iff.mp h
  obtain ⟨⟨⟩, -, h⟩ := bind_eq_ok_iff.mp h
  obtain ⟨⟨⟩, -, h⟩ := bind_eq_ok_iff.mp h
  obtain ⟨⟨⟩, -, h⟩ := bind_eq_ok_iff.mp h
  obtain ⟨id, hid, h⟩ := bind_eq_ok_iff.mp h
  split_ifs at h with hfull
  obtain ⟨handle, -, h⟩ := bind_eq_ok_iff.mp h
  obtain ⟨⟨⟩, -, h⟩ := bind_eq_ok_iff.mp h
  obtain ⟨signed, hsigned, h⟩ := bind_eq_ok_iff.mp h
  obtain ⟨⟨⟩, -, h⟩ := bind_eq_ok_iff.mp h
  obtain ⟨⟨⟩, -, h⟩ := bind_eq_ok_iff.mp h
  obtain ⟨⟨⟩, -, h⟩ := bind_eq_ok_iff.mp h
  cases h
  exact ⟨id, hid, not_lt.mp hfull, hsigned, rfl, rfl⟩

theorem changeRecords_ok {changeUsed : Finset ℕ → ℕ → IndyResult (Finset ℕ)}
    {changeReg : ℕ → ℕ → G → IndyResult G} {text : String}
    (h : changeRecords world records changeUsed changeReg text = .ok (revReg, info, answer)) :
    ∃ id bound usedIds, Numerals.parseUnsigned 32 text = some id ∧
      (wordAdd 32 world.overflowChecks records.revRegDef.maxCredNum 1 : IndyResult ℕ) =
        .ok bound ∧ id ≤ bound ∧ changeUsed records.revRegInfo.usedIds id = .ok usedIds ∧
      changeReg records.revRegDef.maxCredNum id records.revReg = .ok revReg ∧
      info = ⟨records.revRegInfo.currId, usedIds⟩ ∧ answer = none := by
  rw [changeRecords] at h
  obtain ⟨id, hid, h⟩ := bind_eq_ok_iff.mp h
  obtain ⟨⟨⟩, -, h⟩ := bind_eq_ok_iff.mp h
  obtain ⟨⟨⟩, -, h⟩ := bind_eq_ok_iff.mp h
  obtain ⟨⟨⟩, -, h⟩ := bind_eq_ok_iff.mp h
  obtain ⟨bound, hbound, h⟩ := bind_eq_ok_iff.mp h
  split_ifs at h with hlt
  obtain ⟨⟨⟩, -, h⟩ := bind_eq_ok_iff.mp h
  obtain ⟨usedIds, hused, h⟩ := bind_eq_ok_iff.mp h
  obtain ⟨changed, hchanged, h⟩ := bind_eq_ok_iff.mp h
  obtain ⟨⟨⟩, -, h⟩ := bind_eq_ok_iff.mp h
  cases h
  exact ⟨id, bound, usedIds, ofOption_eq_ok.mp hid, hbound, not_lt.mp hlt, hused,
    hchanged, rfl, rfl⟩

/-- The second of two writes fails after the first one went through. -/
def IssuerWorld.Torn (world : IssuerWorld) : Prop :=
  (∃ u, world.attempt .updateRevReg = .ok u) ∧ ∀ u, world.attempt .updateRevRegInfo ≠ .ok u

theorem storeComputed_cases {α : Type}
    (computed : IndyResult (G × RevocationRegistryInfo × α)) :
    ((∀ a, (storeComputed world records computed).1 ≠ .ok a) ∧
      (storeComputed world records computed).2 = records) ∨
    ∃ revReg info a, computed = .ok (revReg, info, a) ∧
      (((storeComputed world records computed).1 = .ok a ∧
        (storeComputed world records computed).2 =
          { records with revReg := revReg, revRegInfo := info }) ∨
      (world.Torn ∧ (∀ a, (storeComputed world records computed).1 ≠ .ok a) ∧
        (storeComputed world records computed).2 = { records with revReg := revReg })) := by
  cases computed with
  | err e => exact .inl ⟨fun a => err_ne_ok e a, rfl⟩
  | panic => exact .inl ⟨fun a => panic_ne_ok a, rfl⟩
  | ok value =>
    obtain ⟨revReg, info, a⟩ := value
    rw [storeComputed, storeRecords]
    cases hreg : world.attempt .updateRevReg with
    | err e => exact .inl ⟨fun a => err_ne_ok e a, rfl⟩
    | panic => exact .inl ⟨fun a => panic_ne_ok a, rfl⟩
    | ok u =>
      refine .inr ⟨revReg, info, a, rfl, ?_⟩
      cases hinfo : world.attempt .updateRevRegInfo with
      | ok u' => exact .inl ⟨rfl, rfl⟩
      | err e =>
        refine .inr ⟨⟨⟨u, hreg⟩, fun u' h => ?_⟩, fun a => err_ne_ok e a, rfl⟩
        rw [hinfo] at h
        cases h
      | panic =>
        refine .inr ⟨⟨⟨u, hreg⟩, fun u' h => ?_⟩, fun a => panic_ne_ok a, rfl⟩
        rw [hinfo] at h
        cases h

/-- What a call computes before anything is stored. -/
def RegistryCall.computed (crypto : CryptoIssuer G) (world : IssuerWorld)
    (records : RevRegRecords G) :
    RegistryCall → IndyResult (G × RevocationRegistryInfo × Option String)
  | .newCredential handle => issueRecords crypto world records handle
  | .revokeCredential id => revokeRecords crypto world records id
  | .recoveryCredential id => recoveryRecords crypto world records id

theorem registryMachine_step (input : IssuerWorld × RegistryCall) :
    (registryMachine crypto).step input records =
      storeComputed input.1 records (input.2.computed crypto input.1 records) := by
  obtain ⟨world, call⟩ := input
  cases call <;> rfl

end

end IndySdk.Anoncreds
