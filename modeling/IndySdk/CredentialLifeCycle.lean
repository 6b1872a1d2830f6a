import IndySdk.RegistryAccumulator

/-!
# The life cycle of revocable credentials

The history of a registry is what its calls answered: identifiers that were issued, and those of
them that were revoked and not recovered since. Calls are to follow the history; the records decide
as the history does for as long as no call names an identifier that the records know and the history
does not.
-/

namespace IndySdk.Anoncreds

open Outcome Numerals Finset

/-- What the calls on a registry have answered so far. -/
structure LifeCycle where
  issued : Finset ℕ
  revoked : Finset ℕ
  deriving DecidableEq

namespace LifeCycle

def named (text : String) : Finset ℕ := (parseUnsigned 32 text).toFinset

/-- A call that succeeds enters the history. -/
def after (history : LifeCycle) :
    RegistryCall → IndyResult (Option String) → LifeCycle
  | .newCredential _, .ok (some text) => { history with issued := history.issued ∪ named text }
  | .revokeCredential text, .ok _ => { history with revoked := history.revoked ∪ named text }
  | .recoveryCredential text, .ok _ => { history with revoked := history.revoked \ named text }
  | _, _ => history

def Valid (history : LifeCycle) (text : String) : Prop :=
  ∃ id, parseUnsigned 32 text = some id ∧ id ∈ history.issued ∧ id ∉ history.revoked

def Revoked (history : LifeCycle) (text : String) : Prop :=
  ∃ id, parseUnsigned 32 text = some id ∧ id ∈ history.issued ∧ id ∈ history.revoked

end LifeCycle

variable {G : Type} (crypto : CryptoIssuer G)

/-- A registry together with its history. -/
def registryHistory : Machine (RevRegRecords G × LifeCycle) (IssuerWorld × RegistryCall)
    (IndyResult (Option String)) where
  step input s :=
    let answered := (registryMachine crypto).step input s.1
    (answered.1, answered.2, s.2.after input.2 answered.1)

/-- Everything that a call needs of the wallet, the tails and the library goes through. -/
structure Works (world : IssuerWorld) : Prop where
  attempts : ∀ operation, world.attempt operation = .ok ()
  revokes : ∀ maxCredNum revIdx revReg, ∃ revReg',
    crypto.revokeCredential maxCredNum revIdx revReg = .ok revReg'
  recovers : ∀ maxCredNum revIdx revReg, ∃ revReg',
    crypto.recoveryCredential maxCredNum revIdx revReg = .ok revReg'

/-- What one call is to do after a history. -/
structure FollowsHistory (s : RevRegRecords G × LifeCycle) (input : IssuerWorld × RegistryCall) :
    Prop where
  issued : ∀ handle text, input.2 = .newCredential handle →
    ((registryMachine crypto).step input s.1).1 = .ok (some text) →
      ∃ id, parseUnsigned 32 text = some id ∧ 1 ≤ id ∧ id ≤ s.1.revRegDef.maxCredNum ∧
        id ∉ s.2.issued ∧ id ∈ ((registryMachine crypto).step input s.1).2.validIds
  revoked : ∀ text, input.2 = .revokeCredential text →
    (((registryMachine crypto).step input s.1).1 = .ok none → s.2.Valid text) ∧
      (Works crypto input.1 → s.2.Valid text →
        ((registryMachine crypto).step input s.1).1 = .ok none)
  recovered : ∀ text, input.2 = .recoveryCredential text →
    (((registryMachine crypto).step input s.1).1 = .ok none → s.2.Revoked text) ∧
      (Works crypto input.1 → s.2.Revoked text →
        ((registryMachine crypto).step input s.1).1 = .ok none)
  refused : (∀ answer, ((registryMachine crypto).step input s.1).1 ≠ .ok answer) →
    ((registryMachine crypto).step input s.1).2 = s.1

/-- A call whose identifier, if it lies within the bound that the records are checked against, was
issued before, and whose writes do not fail half way where they change the accumulator. -/
def NamesIssued (s : RevRegRecords G × LifeCycle) (input : IssuerWorld × RegistryCall) : Prop :=
  s.1.revRegDef.maxCredNum + 1 < 2 ^ 32 ∧
  match input.2, s.1.revRegDef.issuanceType with
  | .newCredential _, .issuanceByDefault => True
  | .revokeCredential text, .issuanceByDefault | .recoveryCredential text, .issuanceOnDemand =>
    ¬ input.1.Torn ∧ ∀ id, parseUnsigned 32 text = some id →
      id ≤ s.1.revRegDef.maxCredNum + 1 → id ∈ s.2.issued
  | _, _ => ¬ input.1.Torn

/-- What the records say of a history. -/
structure Tracks (s : RevRegRecords G × LifeCycle) : Prop where
  current : s.1.revRegInfo.currId ≤ s.1.revRegDef.maxCredNum
  issued : s.2.issued = Finset.Icc 1 s.1.revRegInfo.currId
  revoked : s.2.revoked ⊆ s.2.issued
  used : s.1.revRegInfo.usedIds =
    match s.1.revRegDef.issuanceType with
    | .issuanceOnDemand => s.2.issued \ s.2.revoked
    | .issuanceByDefault => s.2.revoked

variable {crypto} {s : RevRegRecords G × LifeCycle} {world : IssuerWorld} {text : String}

theorem LifeCycle.after_of_failed {history : LifeCycle} {call : RegistryCall}
    {answer : IndyResult (Option String)} (h : ∀ a, answer ≠ .ok a) :
    history.after call answer = history := by
  cases answer with
  | ok a => exact absurd rfl (h a)
  | err e => cases call <;> rfl
  | panic => cases call <;> rfl

theorem LifeCycle.named_of_parse {id : ℕ} (h : parseUnsigned 32 text = some id) :
    named text = {id} := by
  rw [named, h, Option.toFinset_some]

section

variable {records : RevRegRecords G}

theorem storeComputed_of_works {α : Type} {revReg : G} {info : RevocationRegistryInfo} {a : α}
    (hworks : ∀ operation, world.attempt operation = .ok ()) :
    storeComputed world records (.ok (revReg, info, a)) =
      (.ok a, { records with revReg := revReg, revRegInfo := info }) := by
  rw [storeComputed, storeRecords, hworks, hworks]
  rfl

theorem changeRecords_of_works {changeUsed : Finset ℕ → ℕ → IndyResult (Finset ℕ)}
    {changeReg : ℕ → ℕ → G → IndyResult G} {text : String} {id : ℕ}
    {usedIds : Finset ℕ} {revReg : G}
    (hworks : ∀ operation, world.attempt operation = .ok ())
    (hbound : records.revRegDef.maxCredNum + 1 < 2 ^ 32)
    (hid : parseUnsigned 32 text = some id) (hle : id ≤ records.revRegDef.maxCredNum)
    (hused : changeUsed records.revRegInfo.usedIds id = .ok usedIds)
    (hreg : changeReg records.revRegDef.maxCredNum id records.revReg = .ok revReg) :
    changeRecords world records changeUsed changeReg text =
      .ok (revReg, ⟨records.revRegInfo.currId, usedIds⟩, none) := by
  have hadd : (Outcome.wordAdd 32 world.overflowChecks records.revRegDef.maxCredNum 1 :
      IndyResult ℕ) = .ok (records.revRegDef.maxCredNum + 1) := if_pos hbound
  rw [changeRecords, parseCredRevId, hid, ofOption_some, ok_bind, hworks,
    ok_bind, hworks, ok_bind, hworks, ok_bind, hadd, ok_bind,
    if_neg (by omega), hworks, ok_bind, hused, ok_bind, hreg, ok_bind,
    hworks]
  rfl

end

theorem Tracks.le_of_issued (h : Tracks s) {id : ℕ} (hid : id ∈ s.2.issued) :
    1 ≤ id ∧ id ≤ s.1.revRegInfo.currId := by
  rw [h.issued] at hid
  exact mem_Icc.mp hid

theorem revoke_of_valid (h : Tracks s) (hbound : s.1.revRegDef.maxCredNum + 1 < 2 ^ 32)
    (hworks : Works crypto world) (hvalid : s.2.Valid text) :
    ((registryMachine crypto).step (world, .revokeCredential text) s.1).1 = .ok none := by
  obtain ⟨id, hid, hissued, hrevoked⟩ := hvalid
  have hle := (h.le_of_issued hissued).2.trans h.current
  obtain ⟨revReg, hreg⟩ := hworks.revokes s.1.revRegDef.maxCredNum id s.1.revReg
  have hused := h.used
  have hchange : ∃ usedIds, (match s.1.revRegDef.issuanceType with
      | .issuanceOnDemand => removeUsed
      | .issuanceByDefault => insertUsed) s.1.revRegInfo.usedIds id = .ok usedIds := by
    cases htype : s.1.revRegDef.issuanceType with
    | issuanceOnDemand =>
      rw [htype] at hused
      refine ⟨_, removeUsed_ok.mpr ⟨?_, rfl⟩⟩
      rw [hused]
      exact mem_sdiff.mpr ⟨hissued, hrevoked⟩
    | issuanceByDefault =>
      rw [htype] at hused
      refine ⟨_, insertUsed_ok.mpr ⟨?_, rfl⟩⟩
      rw [hused]
      exact hrevoked
  obtain ⟨usedIds, hchange⟩ := hchange
  have hcomputed : (RegistryCall.revokeCredential text).computed crypto world s.1 =
      .ok (revReg, ⟨s.1.revRegInfo.currId, usedIds⟩, none) :=
    changeRecords_of_works hworks.attempts hbound hid hle hchange hreg
  rw [registryMachine_step]
  dsimp only
  rw [hcomputed, storeComputed_of_works hworks.attempts]

theorem recover_of_revoked (h : Tracks s) (hbound : s.1.revRegDef.maxCredNum + 1 < 2 ^ 32)
    (hworks : Works crypto world) (hrevoked : s.2.Revoked text) :
    ((registryMachine crypto).step (world, .recoveryCredential text) s.1).1 = .ok none := by
  obtain ⟨id, hid, hissued, hrevoked⟩ := hrevoked
  have hle := (h.le_of_issued hissued).2.trans h.current
  obtain ⟨revReg, hreg⟩ := hworks.recovers s.1.revRegDef.maxCredNum id s.1.revReg
  have hused := h.used
  have hchange : ∃ usedIds, (match s.1.revRegDef.issuanceType with
      | .issuanceOnDemand => insertUsed
      | .issuanceByDefault => removeUsed) s.1.revRegInfo.usedIds id = .ok usedIds := by
    cases htype : s.1.revRegDef.issuanceType with
    | issuanceOnDemand =>
      rw [htype] at hused
      refine ⟨_, insertUsed_ok.mpr ⟨?_, rfl⟩⟩
      rw [hused]
      exact fun hin => (mem_sdiff.mp hin).2 hrevoked
    | issuanceByDefault =>
      rw [htype] at hused
      refine ⟨_, removeUsed_ok.mpr ⟨?_, rfl⟩⟩
      rw [hused]
      exact hrevoked
  obtain ⟨usedIds, hchange⟩ := hchange
  have hcomputed : (RegistryCall.recoveryCredential text).computed crypto world s.1 =
      .ok (revReg, ⟨s.1.revRegInfo.currId, usedIds⟩, none) :=
    changeRecords_of_works hworks.attempts hbound hid hle hchange hreg
  rw [registryMachine_step]
  dsimp only
  rw [hcomputed, storeComputed_of_works hworks.attempts]

theorem Tracks.of_failed (h : Tracks s) {input : IssuerWorld × RegistryCall}
    (hbound : s.1.revRegDef.maxCredNum + 1 < 2 ^ 32)
    (hfailed : ∀ a, ((registryMachine crypto).step input s.1).1 ≠ .ok a)
    (hkept : ((registryMachine crypto).step input s.1).2 = s.1) :
    FollowsHistory crypto s input ∧ Tracks ((registryHistory crypto).step input s).2 := by
  constructor
  · obtain ⟨world, call⟩ := input
    refine ⟨?_, ?_, ?_, fun _ => hkept⟩
    · exact fun handle text _ hok => absurd hok (hfailed _)
    · rintro text rfl
      exact ⟨fun hok => absurd hok (hfailed _), fun hworks => revoke_of_valid h hbound hworks⟩
    · rintro text rfl
      exact ⟨fun hok => absurd hok (hfailed _), fun hworks => recover_of_revoked h hbound hworks⟩
  · have hnext : ((registryHistory crypto).step input s).2 = s := by
      refine Prod.ext hkept ?_
      exact LifeCycle.after_of_failed hfailed
    rw [hnext]
    exact h

/-- A call that succeeds, with what it answers and stores. -/
structure Succeeds (crypto : CryptoIssuer G) (s : RevRegRecords G × LifeCycle)
    (input : IssuerWorld × RegistryCall) (revReg : G) (info : RevocationRegistryInfo)
    (answer : Option String) : Prop where
  computed : input.2.computed crypto input.1 s.1 = .ok (revReg, info, answer)
  answered : ((registryMachine crypto).step input s.1).1 = .ok answer
  stored : ((registryMachine crypto).step input s.1).2 =
    { s.1 with revReg := revReg, revRegInfo := info }

section

variable {revReg : G} {info : RevocationRegistryInfo} {answer : Option String} {text : String}

theorem issue_follows (h : Tracks s) {handle : Option ℤ}
    (hbound : s.1.revRegDef.maxCredNum + 1 < 2 ^ 32)
    (hok : Succeeds crypto s (world, .newCredential handle) revReg info answer) :
    FollowsHistory crypto s (world, .newCredential handle) ∧
      Tracks ((registryHistory crypto).step (world, .newCredential handle) s).2 := by
  obtain ⟨id, hid, hle, -, hinfo, rfl⟩ := issueRecords_ok hok.computed
  have hnext : ((registryHistory crypto).step (world, .newCredential handle) s).2 =
      ({ s.1 with revReg := revReg, revRegInfo := info },
        { s.2 with issued := s.2.issued ∪ LifeCycle.named id.repr }) := by
    refine Prod.ext hok.stored ?_
    show s.2.after (.newCredential handle)
      ((registryMachine crypto).step (world, .newCredential handle) s.1).1 = _
    rw [hok.answered]
    rfl
  subst hinfo
  have hcurrent := h.current
  have hadd : id = 1 + s.1.revRegInfo.currId := by
    rw [Outcome.wordAdd, if_pos (by omega), Outcome.ok.injEq] at hid
    exact hid.symm
  have hparse : parseUnsigned 32 id.repr = some id :=
    parseUnsigned_repr (by omega)
  have hnew : id ∉ s.2.issued := fun hin => by
    have hrange := h.le_of_issued hin
    omega
  have hissued : insert id s.2.issued = Finset.Icc 1 id := by
    rw [h.issued]
    ext i
    rw [mem_insert, mem_Icc, mem_Icc]
    omega
  have hnewRevoked : id ∉ s.2.revoked := fun hin => hnew (h.revoked hin)
  constructor
  · refine ⟨?_, ?_, ?_, fun hfailed => absurd hok.answered (hfailed _)⟩
    · intro handle' text _ htext
      rw [hok.answered] at htext
      cases htext
      refine ⟨id, hparse, by omega, hle, hnew, ?_⟩
      have hused := h.used
      rw [hok.stored, RevRegRecords.validIds]
      cases htype : s.1.revRegDef.issuanceType with
      | issuanceOnDemand => exact mem_insert_self _ _
      | issuanceByDefault =>
        rw [htype] at hused
        refine mem_sdiff.mpr ⟨mem_Icc.mpr ⟨by omega, hle⟩, ?_⟩
        have hnot : id ∉ s.1.revRegInfo.usedIds := hused ▸ hnewRevoked
        exact hnot
    · intro text htext
      cases htext
    · intro text htext
      cases htext
  · rw [hnext]
    have hunion : s.2.issued ∪ LifeCycle.named id.repr = insert id s.2.issued := by
      rw [LifeCycle.named_of_parse hparse, union_comm]
      rfl
    rw [hunion]
    refine ⟨hle, hissued, h.revoked.trans (subset_insert _ _), ?_⟩
    have hused := h.used
    cases htype : s.1.revRegDef.issuanceType with
    | issuanceOnDemand =>
      rw [htype] at hused
      dsimp only
      rw [hused, insert_sdiff_of_notMem _ hnewRevoked]
    | issuanceByDefault =>
      rw [htype] at hused
      exact hused

theorem revoke_follows (h : Tracks s) (hnames : NamesIssued s (world, .revokeCredential text))
    (hok : Succeeds crypto s (world, .revokeCredential text) revReg info answer) :
    FollowsHistory crypto s (world, .revokeCredential text) ∧
      Tracks ((registryHistory crypto).step (world, .revokeCredential text) s).2 := by
  obtain ⟨id, bound, usedIds, hid, hadd, hle, hchange, -, hinfo, rfl⟩ :=
    changeRecords_ok hok.computed
  have hnext : ((registryHistory crypto).step (world, .revokeCredential text) s).2 =
      ({ s.1 with revReg := revReg, revRegInfo := info },
        { s.2 with revoked := insert id s.2.revoked }) := by
    refine Prod.ext hok.stored ?_
    show s.2.after (.revokeCredential text)
      ((registryMachine crypto).step (world, .revokeCredential text) s.1).1 = _
    rw [hok.answered, LifeCycle.after, LifeCycle.named_of_parse hid, union_comm]
    rfl
  subst hinfo
  have hused := h.used
  -- the set tells whether the identifier is valid, in opposite ways for the two kinds
  have hcases : id ∈ s.2.issued ∧ id ∉ s.2.revoked ∧ usedIds =
      match s.1.revRegDef.issuanceType with
      | .issuanceOnDemand => s.2.issued \ insert id s.2.revoked
      | .issuanceByDefault => insert id s.2.revoked := by
    obtain ⟨-, hrest⟩ := hnames
    cases htype : s.1.revRegDef.issuanceType with
    | issuanceOnDemand =>
      rw [htype] at hchange hused
      obtain ⟨hin, rfl⟩ := removeUsed_ok.mp hchange
      rw [hused] at hin ⊢
      obtain ⟨hissued, hrevoked⟩ := mem_sdiff.mp hin
      exact ⟨hissued, hrevoked, (sdiff_insert _ _ _).symm⟩
    | issuanceByDefault =>
      rw [htype] at hchange hused hrest
      obtain ⟨hnotin, rfl⟩ := insertUsed_ok.mp hchange
      rw [hused] at hnotin ⊢
      exact ⟨hrest.2 id hid (le_of_le_bound hadd hle), hnotin, rfl⟩
  obtain ⟨hissued, hrevoked, hset⟩ := hcases
  constructor
  · refine ⟨?_, ?_, ?_, fun hfailed => absurd hok.answered (hfailed _)⟩
    · intro handle text' hcall
      cases hcall
    · rintro text' hcall
      cases hcall
      exact ⟨fun _ => ⟨id, hid, hissued, hrevoked⟩, fun _ _ => hok.answered⟩
    · intro text' hcall
      cases hcall
  · rw [hnext]
    exact ⟨h.current, h.issued, insert_subset hissued h.revoked, hset⟩

theorem recovery_follows (h : Tracks s) (hnames : NamesIssued s (world, .recoveryCredential text))
    (hok : Succeeds crypto s (world, .recoveryCredential text) revReg info answer) :
    FollowsHistory crypto s (world, .recoveryCredential text) ∧
      Tracks ((registryHistory crypto).step (world, .recoveryCredential text) s).2 := by
  obtain ⟨id, bound, usedIds, hid, hadd, hle, hchange, -, hinfo, rfl⟩ :=
    changeRecords_ok hok.computed
  have hnext : ((registryHistory crypto).step (world, .recoveryCredential text) s).2 =
      ({ s.1 with revReg := revReg, revRegInfo := info },
        { s.2 with revoked := s.2.revoked.erase id }) := by
    refine Prod.ext hok.stored ?_
    show s.2.after (.recoveryCredential text)
      ((registryMachine crypto).step (world, .recoveryCredential text) s.1).1 = _
    rw [hok.answered, LifeCycle.after, LifeCycle.named_of_parse hid,
      sdiff_singleton_eq_erase]
  subst hinfo
  have hused := h.used
  have hcases : id ∈ s.2.issued ∧ id ∈ s.2.revoked ∧ usedIds =
      match s.1.revRegDef.issuanceType with
      | .issuanceOnDemand => s.2.issued \ s.2.revoked.erase id
      | .issuanceByDefault => s.2.revoked.erase id := by
    obtain ⟨-, hrest⟩ := hnames
    cases htype : s.1.revRegDef.issuanceType with
    | issuanceOnDemand =>
      rw [htype] at hchange hused hrest
      obtain ⟨hnotin, rfl⟩ := insertUsed_ok.mp hchange
      have hissued := hrest.2 id hid (le_of_le_bound hadd hle)
      rw [hused] at hnotin ⊢
      refine ⟨hissued, ?_, (sdiff_erase hissued).symm⟩
      by_contra hvalid
      exact hnotin (mem_sdiff.mpr ⟨hissued, hvalid⟩)
    | issuanceByDefault =>
      rw [htype] at hchange hused
      obtain ⟨hin, rfl⟩ := removeUsed_ok.mp hchange
      rw [hused] at hin ⊢
      exact ⟨h.revoked hin, hin, rfl⟩
  obtain ⟨hissued, hrevoked, hset⟩ := hcases
  constructor
  · refine ⟨?_, ?_, ?_, fun hfailed => absurd hok.answered (hfailed _)⟩
    · intro handle text' hcall
      cases hcall
    · intro text' hcall
      cases hcall
    · rintro text' hcall
      cases hcall
      exact ⟨fun _ => ⟨id, hid, hissued, hrevoked⟩, fun _ _ => hok.answered⟩
  · rw [hnext]
    exact ⟨h.current, h.issued, (erase_subset _ _).trans h.revoked, hset⟩

end

/-- Signing a credential of a registry that issues by default leaves the accumulator alone. -/
def CryptoIssuer.SignsByDefault (crypto : CryptoIssuer G) : Prop :=
  ∀ {revIdx maxCredNum revReg revReg'},
    crypto.signCredentialWithRevoc revIdx maxCredNum true revReg = .ok revReg' → revReg' = revReg

/-- The step lemma: a call that names issued identifiers follows the history. -/
theorem step_follows (hsign : crypto.SignsByDefault) (h : Tracks s)
    {input : IssuerWorld × RegistryCall} (hnames : NamesIssued s input) :
    FollowsHistory crypto s input ∧ Tracks ((registryHistory crypto).step input s).2 := by
  have hbound := hnames.1
  rcases @storeComputed_cases G input.1 s.1 _ (input.2.computed crypto input.1 s.1) with
    ⟨hfailed, hkept⟩ | ⟨revReg, info, answer, hok, ⟨hanswered, hstored⟩ | ⟨htorn, hfailed, hhalf⟩⟩
  · rw [← registryMachine_step] at hkept
    refine h.of_failed hbound ?_ hkept
    rw [registryMachine_step]
    exact hfailed
  · rw [← registryMachine_step] at hanswered hstored
    obtain ⟨world, call⟩ := input
    cases call with
    | newCredential handle => exact issue_follows h hbound ⟨hok, hanswered, hstored⟩
    | revokeCredential text => exact revoke_follows h hnames ⟨hok, hanswered, hstored⟩
    | recoveryCredential text => exact recovery_follows h hnames ⟨hok, hanswered, hstored⟩
  · have hsame : revReg = s.1.revReg := by
      obtain ⟨world, call⟩ := input
      obtain ⟨-, hrest⟩ := hnames
      cases htype : s.1.revRegDef.issuanceType with
      | issuanceOnDemand =>
        rw [htype] at hrest
        cases call with
        | newCredential handle => exact absurd htorn hrest
        | revokeCredential text => exact absurd htorn hrest
        | recoveryCredential text => exact absurd htorn hrest.1
      | issuanceByDefault =>
        rw [htype] at hrest
        cases call with
        | newCredential handle =>
          obtain ⟨id, -, -, hsigned, -, -⟩ := issueRecords_ok hok
          rw [htype] at hsigned
          exact hsign hsigned
        | revokeCredential text => exact absurd htorn hrest.1
        | recoveryCredential text => exact absurd htorn hrest
    rw [hsame, ← registryMachine_step] at hhalf
    refine h.of_failed hbound ?_ hhalf
    rw [registryMachine_step]
    exact hfailed

theorem created_tracks {config : RevocationRegistryConfig} {records : RevRegRecords G}
    (hcreate : createRevocationRegistry crypto config = .ok records) :
    Tracks (records, ⟨∅, ∅⟩) := by
  obtain ⟨reg, -, hcreate⟩ := bind_eq_ok_iff.mp hcreate
  cases hcreate
  refine ⟨Nat.zero_le _, rfl, Finset.Subset.refl _, ?_⟩
  cases config.issuanceType.getD .issuanceOnDemand <;> rfl

/-- Runs: the calls on a registry follow its history as long as each of them names an identifier
that was issued, or one that is refused at once. -/
theorem follows_history (hsign : crypto.SignsByDefault) {config : RevocationRegistryConfig}
    {records : RevRegRecords G}
    (hcreate : createRevocationRegistry crypto config = .ok records)
    {inputs : List (IssuerWorld × RegistryCall)}
    (hnames : (registryHistory crypto).Along NamesIssued (records, ⟨∅, ∅⟩) inputs) :
    (registryHistory crypto).Along (FollowsHistory crypto) (records, ⟨∅, ∅⟩) inputs := by
  refine Machine.along_of_along ?_ (created_tracks hcreate) hnames
  intro s input h hc
  exact step_follows hsign h hc

theorem integerIssuer_signsByDefault : integerIssuer.SignsByDefault := by
  intro revIdx maxCredNum revReg revReg' h
  exact (Outcome.ok.inj h).symm

theorem follows_issueRevoke : (registryHistory integerIssuer).Along (FollowsHistory integerIssuer)
    (onDemandRecords, ⟨∅, ∅⟩) [(workingWorld, .newCredential (some 1)),
      (workingWorld, .revokeCredential "1")] := by
  have htorn : ¬ workingWorld.Torn := fun htorn => htorn.2 () rfl
  have hcreate : createRevocationRegistry integerIssuer ⟨none, some 5⟩ = .ok onDemandRecords := rfl
  exact follows_history integerIssuer_signsByDefault hcreate
    ⟨⟨by decide, htorn⟩, ⟨by decide, htorn⟩, trivial⟩

def byDefaultRecords : RevRegRecords (Multiplicative ℤ) :=
  ⟨⟨.issuanceByDefault, 5⟩, ∏ i ∈ Finset.Icc 1 5, integerTail i, ⟨0, ∅⟩⟩

/-- An identifier above the registry is revoked, although nothing was issued. -/
theorem revokeAbove_not_follows :
    createRevocationRegistry integerIssuer ⟨some .issuanceByDefault, some 5⟩ =
      .ok byDefaultRecords ∧
    ¬ (registryHistory integerIssuer).Along (FollowsHistory integerIssuer)
      (byDefaultRecords, ⟨∅, ∅⟩) [(workingWorld, .revokeCredential "6")] := by
  refine ⟨rfl, ?_⟩
  rintro ⟨hfollows, -⟩
  obtain ⟨id, -, hissued, -⟩ := (hfollows.revoked "6" rfl).1 (by decide +kernel)
  exact absurd hissued (notMem_empty id)

end IndySdk.Anoncreds
