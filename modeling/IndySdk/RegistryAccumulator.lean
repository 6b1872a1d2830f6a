import IndySdk.RevocationRegistry
import Mathlib.Algebra.Group.TypeTags.Basic
import Mathlib.Algebra.Ring.Int.Defs

/-!
# The accumulator of a registry

With a library that adds and removes the tails of indices in a commutative group, the accumulator is
the product of the tails of the valid identifiers for as long as no call adds a tail twice or takes
away one that was never counted.
-/

namespace IndySdk.Anoncreds

open Finset

/-- The library adds and removes the tails of the indices it is given. -/
structure CryptoIssuer.AddsTails {G : Type} [CommGroup G] (crypto : CryptoIssuer G)
    (tail : ℕ → G) : Prop where
  created : ∀ {maxCredNum issuanceByDefault revReg},
    crypto.newRevocationRegistryDef maxCredNum issuanceByDefault = .ok revReg →
      revReg = if issuanceByDefault then ∏ i ∈ Finset.Icc 1 maxCredNum, tail i else 1
  signed : ∀ {revIdx maxCredNum issuanceByDefault revReg revReg'},
    crypto.signCredentialWithRevoc revIdx maxCredNum issuanceByDefault revReg = .ok revReg' →
      revReg' = if issuanceByDefault then revReg else revReg * tail revIdx
  revoked : ∀ {maxCredNum revIdx revReg revReg'},
    crypto.revokeCredential maxCredNum revIdx revReg = .ok revReg' → revReg' = revReg / tail revIdx
  recovered : ∀ {maxCredNum revIdx revReg revReg'},
    crypto.recoveryCredential maxCredNum revIdx revReg = .ok revReg' →
      revReg' = revReg * tail revIdx

variable {G : Type} [CommGroup G] {tail : ℕ → G}

/-- The accumulator is the product of the tails of the valid identifiers. -/
def Accumulates (tail : ℕ → G) (records : RevRegRecords G) : Prop :=
  records.revReg = ∏ i ∈ records.validIds, tail i

/-- A call that counts each valid identifier once: a fresh identifier is not in the set yet, an
identifier revoked by default is one of the registry, and both records are written or neither. -/
def CountsOnce (records : RevRegRecords G) (input : IssuerWorld × RegistryCall) : Prop :=
  match input.2, records.revRegDef.issuanceType with
  | .newCredential _, .issuanceOnDemand =>
    ¬ input.1.Torn ∧ ∀ id, (Outcome.wordAdd 32 input.1.overflowChecks 1 records.revRegInfo.currId :
      IndyResult ℕ) = .ok id → id ∉ records.revRegInfo.usedIds
  | .newCredential _, .issuanceByDefault => True
  | .revokeCredential text, .issuanceByDefault =>
    ¬ input.1.Torn ∧ ∀ id, Numerals.parseUnsigned 32 text = some id →
      id ≠ 0 ∧ id ≠ records.revRegDef.maxCredNum + 1
  | .revokeCredential _, .issuanceOnDemand | .recoveryCredential _, _ => ¬ input.1.Torn

/-- What runs keep: the product, and a set of revoked identifiers within the registry. -/
structure Counted (tail : ℕ → G) (records : RevRegRecords G) : Prop where
  accumulates : Accumulates tail records
  within : records.revRegDef.issuanceType = .issuanceByDefault →
    records.revRegInfo.usedIds ⊆ Finset.Icc 1 records.revRegDef.maxCredNum

theorem prod_insert_tail {s : Finset ℕ} {id : ℕ} (h : id ∉ s) :
    ∏ i ∈ insert id s, tail i = (∏ i ∈ s, tail i) * tail id := by
  rw [prod_insert h, mul_comm]

theorem prod_erase_tail {s : Finset ℕ} {id : ℕ} (h : id ∈ s) :
    ∏ i ∈ s.erase id, tail i = (∏ i ∈ s, tail i) / tail id := by
  rw [← mul_prod_erase s tail h, mul_comm, mul_div_cancel_right]

theorem le_of_le_bound {overflowChecks : Bool} {maxCredNum bound id : ℕ}
    (hbound : (Outcome.wordAdd 32 overflowChecks maxCredNum 1 : IndyResult ℕ) = .ok bound)
    (hid : id ≤ bound) : id ≤ maxCredNum + 1 := by
  rw [Outcome.wordAdd] at hbound
  split_ifs at hbound
  · rw [← Outcome.ok.inj hbound] at hid
    exact hid
  · have heq := Outcome.ok.inj hbound
    omega

section

variable {crypto : CryptoIssuer G} {world : IssuerWorld} {records : RevRegRecords G} {revReg : G}
  {info : RevocationRegistryInfo} {answer : Option String}

theorem issue_counted (hcrypto : crypto.AddsTails tail) (h : Counted tail records)
    {handle : Option ℤ} (hcond : CountsOnce records (world, .newCredential handle))
    (hok : issueRecords crypto world records handle = .ok (revReg, info, answer)) :
    Counted tail { records with revReg := revReg, revRegInfo := info } := by
  obtain ⟨id, hid, hle, hsign, rfl, -⟩ := issueRecords_ok hok
  obtain ⟨⟨issuanceType, maxCredNum⟩, reg, ⟨currId, usedIds⟩⟩ := records
  obtain ⟨hacc, hwithin⟩ := h
  have hreg := hcrypto.signed hsign
  cases issuanceType with
  | issuanceByDefault => exact ⟨hreg.trans hacc, hwithin⟩
  | issuanceOnDemand =>
    have hfresh : id ∉ usedIds := hcond.2 id hid
    have hacc' : reg = ∏ i ∈ usedIds, tail i := hacc
    refine ⟨?_, fun htype => ?_⟩
    · have hprod : revReg = ∏ i ∈ insert id usedIds, tail i := by
        rw [prod_insert_tail hfresh, ← hacc']
        exact hreg
      exact hprod
    · cases htype

theorem revoke_counted (hcrypto : crypto.AddsTails tail) (h : Counted tail records)
    {text : String} (hcond : CountsOnce records (world, .revokeCredential text))
    (hok : revokeRecords crypto world records text = .ok (revReg, info, answer)) :
    Counted tail { records with revReg := revReg, revRegInfo := info } := by
  obtain ⟨id, bound, usedIds', hid, hbound, hle, hused, hrevoke, rfl, -⟩ := changeRecords_ok hok
  obtain ⟨⟨issuanceType, maxCredNum⟩, reg, ⟨currId, usedIds⟩⟩ := records
  obtain ⟨hacc, hwithin⟩ := h
  have hreg := hcrypto.revoked hrevoke
  cases issuanceType with
  | issuanceByDefault =>
    obtain ⟨hnew, rfl⟩ := insertUsed_ok.mp hused
    obtain ⟨hzero, hmax⟩ := hcond.2 id hid
    have hbounded := le_of_le_bound hbound hle
    have hmem : id ∈ Finset.Icc 1 maxCredNum := by
      apply mem_Icc.mpr
      have hne : id ≠ maxCredNum + 1 := hmax
      have hle' : id ≤ maxCredNum + 1 := hbounded
      omega
    have hacc' : reg = ∏ i ∈ Finset.Icc 1 maxCredNum \ usedIds, tail i := hacc
    refine ⟨?_, fun _ => insert_subset hmem (hwithin rfl)⟩
    have hprod : revReg = ∏ i ∈ Finset.Icc 1 maxCredNum \ insert id usedIds, tail i := by
      rw [sdiff_insert, prod_erase_tail (mem_sdiff.mpr ⟨hmem, hnew⟩), ← hacc']
      exact hreg
    exact hprod
  | issuanceOnDemand =>
    obtain ⟨hold, rfl⟩ := removeUsed_ok.mp hused
    have hacc' : reg = ∏ i ∈ usedIds, tail i := hacc
    refine ⟨?_, fun htype => ?_⟩
    · have hprod : revReg = ∏ i ∈ usedIds.erase id, tail i := by
        rw [prod_erase_tail hold, ← hacc']
        exact hreg
      exact hprod
    · cases htype

theorem recovery_counted (hcrypto : crypto.AddsTails tail) (h : Counted tail records)
    {text : String} (hok : recoveryRecords crypto world records text = .ok (revReg, info, answer)) :
    Counted tail { records with revReg := revReg, revRegInfo := info } := by
  obtain ⟨id, bound, usedIds', -, -, -, hused, hrecover, rfl, -⟩ := changeRecords_ok hok
  obtain ⟨⟨issuanceType, maxCredNum⟩, reg, ⟨currId, usedIds⟩⟩ := records
  obtain ⟨hacc, hwithin⟩ := h
  have hreg := hcrypto.recovered hrecover
  cases issuanceType with
  | issuanceByDefault =>
    obtain ⟨hold, rfl⟩ := removeUsed_ok.mp hused
    have hmem : id ∈ Finset.Icc 1 maxCredNum := hwithin rfl hold
    have hacc' : reg = ∏ i ∈ Finset.Icc 1 maxCredNum \ usedIds, tail i := hacc
    refine ⟨?_, fun _ => (erase_subset id usedIds).trans (hwithin rfl)⟩
    have hnotin : id ∉ Finset.Icc 1 maxCredNum \ usedIds :=
      fun hin => (mem_sdiff.mp hin).2 hold
    have hprod : revReg = ∏ i ∈ Finset.Icc 1 maxCredNum \ usedIds.erase id, tail i := by
      rw [sdiff_erase hmem, prod_insert_tail hnotin, ← hacc']
      exact hreg
    exact hprod
  | issuanceOnDemand =>
    obtain ⟨hnew, rfl⟩ := insertUsed_ok.mp hused
    have hacc' : reg = ∏ i ∈ usedIds, tail i := hacc
    refine ⟨?_, fun htype => ?_⟩
    · have hprod : revReg = ∏ i ∈ insert id usedIds, tail i := by
        rw [prod_insert_tail hnew, ← hacc']
        exact hreg
      exact hprod
    · cases htype

theorem not_torn (hcrypto : crypto.AddsTails tail) {input : IssuerWorld × RegistryCall}
    (hcond : CountsOnce records input) (htorn : input.1.Torn)
    (hok : input.2.computed crypto input.1 records = .ok (revReg, info, answer)) :
    revReg = records.revReg := by
  obtain ⟨world, call⟩ := input
  obtain ⟨⟨issuanceType, maxCredNum⟩, reg, oldInfo⟩ := records
  cases call with
  | newCredential handle =>
    cases issuanceType with
    | issuanceOnDemand => exact absurd htorn hcond.1
    | issuanceByDefault =>
      obtain ⟨id, -, -, hsign, -, -⟩ := issueRecords_ok hok
      exact hcrypto.signed hsign
  | revokeCredential text =>
    cases issuanceType with
    | issuanceOnDemand => exact absurd htorn hcond
    | issuanceByDefault => exact absurd htorn hcond.1
  | recoveryCredential text => exact absurd htorn hcond

theorem step_counted (hcrypto : crypto.AddsTails tail) {input : IssuerWorld × RegistryCall}
    (h : Counted tail records) (hcond : CountsOnce records input) :
    Counted tail ((registryMachine crypto).step input records).2 := by
  rw [registryMachine_step]
  rcases @storeComputed_cases G input.1 records _ (input.2.computed crypto input.1 records) with
    ⟨-, hkept⟩ | ⟨revReg, info, answer, hok, ⟨-, hstored⟩ | ⟨htorn, -, hhalf⟩⟩
  · rw [hkept]
    exact h
  · rw [hstored]
    obtain ⟨world, call⟩ := input
    cases call with
    | newCredential handle => exact issue_counted hcrypto h hcond hok
    | revokeCredential text => exact revoke_counted hcrypto h hcond hok
    | recoveryCredential text => exact recovery_counted hcrypto h hok
  · rw [hhalf, not_torn hcrypto hcond htorn hok]
    exact h

theorem created_counted (hcrypto : crypto.AddsTails tail) {config : RevocationRegistryConfig}
    (hcreate : createRevocationRegistry crypto config = .ok records) : Counted tail records := by
  obtain ⟨reg, hreg, hcreate⟩ := Outcome.bind_eq_ok_iff.mp hcreate
  cases hcreate
  have hvalue := hcrypto.created hreg
  generalize config.issuanceType.getD .issuanceOnDemand = issuanceType at hvalue
  generalize config.maxCredNum.getD 100000 = maxCredNum at hvalue
  refine ⟨?_, fun _ => empty_subset _⟩
  rw [Accumulates, hvalue]
  cases issuanceType with
  | issuanceByDefault =>
    rw [RevRegRecords.validIds, sdiff_empty]
    rfl
  | issuanceOnDemand => rfl

/-- Runs: after every call the accumulator is the product of the tails of the valid identifiers, as
long as every call counts once. -/
theorem accumulates_after_every_call (hcrypto : crypto.AddsTails tail)
    {config : RevocationRegistryConfig}
    (hcreate : createRevocationRegistry crypto config = .ok records)
    {inputs : List (IssuerWorld × RegistryCall)}
    (hcond : (registryMachine crypto).Along CountsOnce records inputs) :
    (registryMachine crypto).Along
      (fun records input => Accumulates tail ((registryMachine crypto).step input records).2)
      records inputs := by
  refine Machine.along_of_along ?_ (created_counted hcrypto hcreate) hcond
  intro s input hs hc
  have hnext := step_counted hcrypto hs hc
  exact ⟨hnext.accumulates, hnext⟩

end

/-- A library over the integers: the tail of an index is one above it. -/
def integerIssuer : CryptoIssuer (Multiplicative ℤ) where
  newRevocationRegistryDef maxCredNum issuanceByDefault :=
    .ok (if issuanceByDefault then
      ∏ i ∈ Finset.Icc 1 maxCredNum, Multiplicative.ofAdd ((i : ℤ) + 1) else 1)
  signCredentialWithRevoc revIdx _ issuanceByDefault revReg :=
    .ok (if issuanceByDefault then revReg else revReg * Multiplicative.ofAdd ((revIdx : ℤ) + 1))
  revokeCredential _ revIdx revReg := .ok (revReg / Multiplicative.ofAdd ((revIdx : ℤ) + 1))
  recoveryCredential _ revIdx revReg := .ok (revReg * Multiplicative.ofAdd ((revIdx : ℤ) + 1))

def integerTail (i : ℕ) : Multiplicative ℤ := Multiplicative.ofAdd ((i : ℤ) + 1)

theorem integerIssuer_addsTails : integerIssuer.AddsTails integerTail where
  created h := (Outcome.ok.inj h).symm
  signed h := (Outcome.ok.inj h).symm
  revoked h := (Outcome.ok.inj h).symm
  recovered h := (Outcome.ok.inj h).symm

def workingWorld : IssuerWorld := ⟨fun _ => .ok (), false⟩

def onDemandRecords : RevRegRecords (Multiplicative ℤ) := ⟨⟨.issuanceOnDemand, 5⟩, 1, ⟨0, ∅⟩⟩

theorem accumulates_issueRevoke :
    (registryMachine integerIssuer).Along (fun records input =>
      Accumulates integerTail ((registryMachine integerIssuer).step input records).2)
      onDemandRecords [(workingWorld, .newCredential (some 1)),
        (workingWorld, .revokeCredential "1")] := by
  have htorn : ¬ workingWorld.Torn := fun htorn => htorn.2 () rfl
  have hcreate : createRevocationRegistry integerIssuer ⟨none, some 5⟩ = .ok onDemandRecords := rfl
  refine accumulates_after_every_call integerIssuer_addsTails hcreate ⟨⟨htorn, ?_⟩, htorn, trivial⟩
  exact fun id _ => notMem_empty id

/-- An identifier is recovered before it is issued: its tail is counted twice. -/
theorem recoverBeforeIssue_not_accumulates :
    createRevocationRegistry integerIssuer ⟨none, some 5⟩ = .ok onDemandRecords ∧
    ¬ (registryMachine integerIssuer).Along (fun records input =>
      Accumulates integerTail ((registryMachine integerIssuer).step input records).2)
      onDemandRecords [(workingWorld, .recoveryCredential "1"),
        (workingWorld, .newCredential (some 1))] := by
  refine ⟨rfl, ?_⟩
  rintro ⟨-, haccumulates, -⟩
  exact absurd haccumulates (by unfold Accumulates; decide +kernel)

end IndySdk.Anoncreds
