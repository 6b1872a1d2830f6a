import IndySdk.RegistryAccumulator
import IndySdk.RegistryLevel

/-!
# Revocations and the ledger

What the ledger has of a registry is what the wallet has of it for as long as each delta that the
wallet makes is written. A delta exists only within the call that makes it: once the wallet has
changed, the identifier cannot be revoked again.
-/

namespace IndySdk.Vcx

open Outcome
open Anoncreds (RevRegRecords CryptoIssuer integerIssuer)

namespace PostingRun

variable {G : Type} [DecidableEq G] (crypto : CryptoIssuer G) (s : PostingRun G)

/-- What each call should keep: the ledger is level with the wallet, what was reported as revoked is
revoked on the ledger, and a call that fails leaves its revocation to be published. -/
structure Sound (call : VcxCall) : Prop where
  settled : ∀ revRegId, ((postingMachine crypto).step call s).2.state.Published revRegId →
    ((postingMachine crypto).step call s).2.state.Settled revRegId
  reported : ∀ revocation ∈ ((postingMachine crypto).step call s).2.reported,
    ((postingMachine crypto).step call s).2.state.OnLedger revocation.1 revocation.2
  retriable : ∀ handle world revRegId credRevId, call = .revokeCred handle world →
    s.state.Publishable crypto handle revRegId credRevId →
      ((postingMachine crypto).step call s).2.state.OnLedger revRegId credRevId ∨
        ((postingMachine crypto).step call s).2.state.Publishable crypto handle revRegId credRevId

/-- A registry that is created has its initial entry on the ledger when the call succeeds; once the
wallet has changed for a revocation its delta is written, and the wallet does not change by half. -/
def Reaches : VcxCall → Prop
  | .createNewCredentialDef _ world => ∀ details maxCreds created,
    world.deserializeDetails = some details → details.supportRevocation = some true →
      details.maxCreds = some maxCreds →
        ((s.state.createCredDef world).2.createRevRegDef crypto world maxCreds).1 = .ok created →
          ¬ world.entryTxn.Overlooked
  | .revokeCred handle world => ∀ c revRegId credRevId did,
    s.state.credentials[handle]? = some c →
      Revocations.revocationInfo c = .ok (revRegId, credRevId) → world.institutionDid = .ok did →
        ¬ world.wallet.Torn ∧ ∀ delta,
          (s.state.libindyIssuerRevokeCredential crypto world revRegId credRevId).1 = .ok delta →
            world.deltaTxn.buildAndPay.2 = true
  | .issuerCredentialCreate _ _ | .receiveRequest _ _ _ | .sendCredential _ _ _ => True

end PostingRun

namespace Revocations

variable {G : Type} [DecidableEq G] {crypto : CryptoIssuer G} {s : Revocations G}
  {credRevId : String}

omit [DecidableEq G] in
theorem revokeCredential_used {wallet : Anoncreds.IssuerWorld} {records : RevRegRecords G} {id : ℕ}
    (hid : Numerals.parseUnsigned 32 credRevId = some id)
    (hdefault : records.revRegDef.issuanceType = .issuanceByDefault)
    (hused : id ∈ records.revRegInfo.usedIds) (answer : Option String) :
    (Anoncreds.revokeCredential crypto wallet records credRevId).1 ≠ .ok answer := by
  intro hok
  unfold Anoncreds.revokeCredential at hok
  rcases Anoncreds.storeComputed_cases
    (Anoncreds.revokeRecords crypto wallet records credRevId) with
    ⟨hfailed, -⟩ | ⟨revReg, info, answer', hrevoked, -⟩
  · exact hfailed answer hok
  · rw [Anoncreds.revokeRecords, hdefault] at hrevoked
    obtain ⟨id', _, usedIds, hid', -, -, hnew, -, -, -⟩ := Anoncreds.changeRecords_ok hrevoked
    rw [hid] at hid'
    cases hid'
    exact (Anoncreds.insertUsed_ok.mp hnew).1 hused

/-- An identifier that the wallet has revoked cannot be revoked again, so a delta that was not
written is never published. -/
theorem not_publishable_of_used {handle : ℕ} {c : IssuerCredential} {revRegId : String}
    (records : RevRegRecords G) (id : ℕ) (hc : s.credentials[handle]? = some c)
    (hinfo : revocationInfo c = .ok (revRegId, credRevId))
    (hid : Numerals.parseUnsigned 32 credRevId = some id)
    (hrecords : s.wallet revRegId = some (.complete records))
    (hdefault : records.revRegDef.issuanceType = .issuanceByDefault)
    (hused : id ∈ records.revRegInfo.usedIds) :
    ¬ s.Publishable crypto handle revRegId credRevId := by
  rintro ⟨world, hok, -⟩
  have hfailed : ∀ delta,
      (s.libindyIssuerRevokeCredential crypto world revRegId credRevId).1 ≠ .ok delta := by
    unfold libindyIssuerRevokeCredential
    split
    · exact err_ne_ok _
    · exact panic_ne_ok
    · exact err_ne_ok _
    · exact panic_ne_ok
    rw [hrecords]
    intro delta hdelta
    obtain ⟨answer, hanswer, -⟩ := map_eq_ok_iff.mp hdelta
    exact revokeCredential_used hid hdefault hused answer (mapIndyResult_ok.mp hanswer)
  unfold revokeCred at hok
  rw [hc] at hok
  dsimp only at hok
  rw [hinfo] at hok
  dsimp only at hok
  unfold revokeCredential at hok
  cases hdid : world.institutionDid with
  | err e =>
    rw [hdid] at hok
    cases hok
  | panic =>
    rw [hdid] at hok
    cases hok
  | ok did =>
    rw [hdid] at hok
    dsimp only at hok
    generalize s.libindyIssuerRevokeCredential crypto world revRegId credRevId = revoked
      at hfailed hok
    obtain ⟨result, state⟩ := revoked
    cases result with
    | err e => cases hok
    | panic => cases hok
    | ok delta => exact hfailed delta rfl

theorem onLedger_iff {revRegId : String} (id : ℕ) (revoked : Finset ℕ)
    (hid : Numerals.parseUnsigned 32 credRevId = some id)
    (hrevoked : (s.accumulated revRegId).map Prod.snd = some revoked) :
    s.OnLedger revRegId credRevId ↔ id ∈ revoked := by
  obtain ⟨⟨revReg, ids⟩, haccumulated, rfl⟩ := Option.map_eq_some_iff.mp hrevoked
  constructor
  · rintro ⟨id', revReg', revoked', hid', haccumulated', hmem⟩
    rw [hid] at hid'
    rw [haccumulated] at haccumulated'
    cases hid'
    cases haccumulated'
    exact hmem
  · exact fun hmem => ⟨id, revReg, ids, hid, haccumulated, hmem⟩

end Revocations

namespace PostingRun

variable {G : Type} [DecidableEq G] {crypto : CryptoIssuer G} {s : PostingRun G}

/-- What runs keep: the ledger is level with the wallet, and has what was reported. -/
structure Kept (s : PostingRun G) : Prop where
  level : s.state.Level
  reported : ∀ revocation ∈ s.reported, s.state.Published revocation.1 ∧
    s.state.OnLedger revocation.1 revocation.2

theorem Kept.of_extends (h : s.Kept) {state : Revocations G} (hlevel : state.Level)
    (hextends : s.state.Extends state) : Kept { s with state } where
  level := hlevel
  reported := by
    intro revocation hmem
    obtain ⟨hpublished, hledger⟩ := h.reported revocation hmem
    exact ⟨(hextends _ hpublished).1, (hextends _ hpublished).2 _ hledger⟩

variable (crypto s) in
theorem step_revokeCred (handle : ℕ) (world : Revocations.RevokeWorld) :
    ((postingMachine crypto).step (.revokeCred handle world) s).2.state =
        (s.state.revokeCred crypto handle world).2 ∧
      ∀ revocation ∈ ((postingMachine crypto).step (.revokeCred handle world) s).2.reported,
        revocation ∈ s.reported ∨
          (s.state.revokeCred crypto handle world).1 = .ok revocation := by
  unfold postingMachine
  dsimp only
  generalize s.state.revokeCred crypto handle world = revoked
  obtain ⟨result, state⟩ := revoked
  cases result with
  | err e => exact ⟨rfl, fun _ h => .inl h⟩
  | panic => exact ⟨rfl, fun _ h => .inl h⟩
  | ok revocation =>
    refine ⟨rfl, fun other hother => ?_⟩
    rcases List.mem_append.mp hother with hold | hnew
    · exact .inl hold
    · exact .inr (congrArg Outcome.ok (List.mem_singleton.mp hnew).symm)

/-- The step lemma: a call that reaches the ledger keeps it level. -/
theorem kept_step (hcrypto : LeavesDefault crypto) (h : s.Kept) {call : VcxCall}
    (hreach : s.Reaches crypto call) : ((postingMachine crypto).step call s).2.Kept := by
  cases call with
  | createNewCredentialDef args world =>
    obtain ⟨hlevel, hkeeps⟩ :=
      Revocations.createNewCredentialDef_level h.level hreach
    exact h.of_extends hlevel hkeeps.extends
  | issuerCredentialCreate credDefHandle args =>
    obtain ⟨hlevel, hkeeps⟩ :=
      Revocations.issuerCredentialCreate_level h.level credDefHandle args
    exact h.of_extends hlevel hkeeps.extends
  | receiveRequest handle offer request =>
    obtain ⟨hlevel, hkeeps⟩ := Revocations.receiveRequest_level h.level handle offer request
    exact h.of_extends hlevel hkeeps.extends
  | sendCredential handle world issue =>
    obtain ⟨hlevel, hkeeps⟩ := Revocations.sendCredential_level hcrypto h.level handle world issue
    exact h.of_extends hlevel hkeeps.extends
  | revokeCred handle world =>
    obtain ⟨hstate, hreported⟩ := step_revokeCred crypto s handle world
    rcases Revocations.revokeCred_cases h.level hreach with ⟨hfailed, hsame⟩ |
      ⟨c, revRegId, credRevId, hc, hinfo, hpublished, hlevel, hextends, hledger⟩
    · constructor
      · rw [hstate, hsame]
        exact h.level
      · intro revocation hmem
        rw [hstate, hsame]
        rcases hreported revocation hmem with hold | hnew
        · exact h.reported revocation hold
        · exact absurd hnew (hfailed revocation)
    · constructor
      · rw [hstate]
        exact hlevel
      · intro revocation hmem
        rw [hstate]
        rcases hreported revocation hmem with hold | hnew
        · obtain ⟨hpublished', hledger'⟩ := h.reported revocation hold
          exact ⟨(hextends _ hpublished').1, (hextends _ hpublished').2 _ hledger'⟩
        · obtain ⟨c', hc', hinfo'⟩ := Revocations.revokeCred_info hnew
          rw [hc] at hc'
          cases hc'
          rw [hinfo] at hinfo'
          cases hinfo'
          exact ⟨(hextends _ hpublished).1, hledger⟩

theorem sound_step (hcrypto : LeavesDefault crypto) (h : s.Kept) {call : VcxCall}
    (hreach : s.Reaches crypto call) : s.Sound crypto call := by
  have hkept := kept_step hcrypto h hreach
  refine ⟨fun revRegId => hkept.level.settled, fun p hp => (hkept.reported p hp).2, ?_⟩
  rintro handle world revRegId credRevId rfl hpublishable
  obtain ⟨hstate, -⟩ := step_revokeCred crypto s handle world
  rw [hstate]
  rcases Revocations.revokeCred_cases h.level hreach with ⟨-, hsame⟩ |
    ⟨c, revRegId', credRevId', hc, hinfo, -, -, -, hledger⟩
  · rw [hsame]
    exact .inr hpublishable
  · obtain ⟨world', hok, -⟩ := hpublishable
    obtain ⟨c', hc', hinfo'⟩ := Revocations.revokeCred_info hok
    rw [hc] at hc'
    cases hc'
    rw [hinfo] at hinfo'
    cases hinfo'
    exact .inl hledger

end PostingRun

/-- Runs that start without wallet records, entries or objects: as long as each call reaches the
ledger, the ledger is level with the wallet after every call, it has each revocation that was
reported, and a call that fails leaves its revocation to be published. -/
theorem posting_runs_sound {G : Type} [DecidableEq G] {crypto : CryptoIssuer G}
    (hcrypto : LeavesDefault crypto) (calls : List VcxCall)
    (hreach : (postingMachine crypto).Along (PostingRun.Reaches crypto) {} calls) :
    (postingMachine crypto).Along (PostingRun.Sound crypto) {} calls := by
  have hstart : PostingRun.Kept ({} : PostingRun G) := by
    refine ⟨⟨?_, ?_, fun _ => rfl, ?_⟩, fun _ h => absurd h List.not_mem_nil⟩
    · rintro revRegId ⟨d, hd, -⟩
      exact absurd hd List.not_mem_nil
    · intro revRegId records h
      cases h
    · exact fun h => absurd h List.not_mem_nil
  exact Machine.along_of_along
    (fun s call hs hc => ⟨PostingRun.sound_step hcrypto hs hc, PostingRun.kept_step hcrypto hs hc⟩)
    hstart hreach

def freeLedger (submission : Submission) : LedgerWorld where
  buildRequest := .ok "request"
  getTxnPrice := .ok 0
  institutionDid := .ok "2hoqvcwupRTUNkXn6ArYzs"
  inputs _ := .ok (0, [], "")
  outputs _ _ := .ok []
  serializeInputsAndOutputs _ _ := .ok ("[]", "[]")
  signRequest _ req := .ok req
  addRequestFees _ req _ _ := .ok (req, "null")
  submit _ := submission
  parseResponseWithFees _ _ := .ok "[]"

def revocableCredDef : Revocations.CredDefWorld where
  deserializeDetails := some ⟨some true, some "tails", some 5⟩
  getSchemaJson := .ok "schema"
  credDefId := "cred_def_id"
  newCredDef := .ok ()
  addCredDef := .ok ()
  addCredDefKeys := .ok ()
  credDefTxn := freeLedger (.reply "REPLY")
  openWriter := .ok ()
  revRegId := "rev_reg_id"
  revRegDefJson := "rev_reg_def"
  getCredDef := .ok ()
  storeTails := .ok ()
  addObject _ := .ok ()
  revRegDefTxn := freeLedger (.reply "REPLY")
  entryTxn := freeLedger (.reply "REPLY")

def revoking (submission : Submission) : Revocations.RevokeWorld where
  institutionDid := .ok "2hoqvcwupRTUNkXn6ArYzs"
  openReader := .ok 1
  wallet := Anoncreds.workingWorld
  deltaTxn := freeLedger submission

/-- A registry is created, one credential is issued from it and then revoked. -/
def revokingCalls (submission : Submission) : List VcxCall :=
  [.createNewCredentialDef ⟨"source", "name", "2hoqvcwupRTUNkXn6ArYzs", "tag"⟩ revocableCredDef,
    .issuerCredentialCreate 0 ⟨"credential", "attributes", 0⟩,
    .receiveRequest 0 ⟨"offer", "cred_def_id", none⟩ {
      libindyCredReq := "req", libindyCredReqMeta := "meta", credDefId := "cred_def_id"
      toDid := "did", fromDid := "did", msgRefId := some "msg" },
    .sendCredential 0 (issuingWorld "1" (.acknowledged "uid"))
      ⟨fun _ => .ok 1, Anoncreds.workingWorld, "cred", .ok "cred"⟩,
    .revokeCred 0 (revoking submission)]

theorem posting_revokingCalls :
    (postingMachine integerIssuer).Along (PostingRun.Sound integerIssuer) {}
      (revokingCalls (.reply "REPLY")) := by
  have hcrypto : LeavesDefault integerIssuer := Anoncreds.integerIssuer_addsTails.signed
  refine posting_runs_sound hcrypto _ ⟨?_, trivial, trivial, trivial, ?_, trivial⟩
  · rintro _ _ _ - - - - ⟨-, hlost⟩
    exact absurd hlost (by decide +kernel)
  · intro _ _ _ _ _ _ _
    exact ⟨fun htorn => htorn.2 () rfl, fun _ _ => by decide +kernel⟩

/-- The delta does not arrive: the wallet has revoked the credential, the ledger has not, and no
call can make up for it. -/
theorem revocation_lost :
    ¬ (postingMachine integerIssuer).Along (PostingRun.Sound integerIssuer) {}
      (revokingCalls (.lost ⟨.other 1038, "", []⟩)) := by
  rintro ⟨-, -, -, -, hrevoked, -⟩
  rcases hrevoked.retriable 0 _ "rev_reg_id" "1" rfl ⟨revoking (.reply "REPLY"), by decide +kernel,
    (Revocations.onLedger_iff 1 {1} (by decide +kernel) (by decide +kernel)).mpr
      (by decide)⟩ with hledger | hpublishable
  · exact absurd ((Revocations.onLedger_iff 1 ∅ (by decide +kernel)
      (by decide +kernel)).mp hledger) (by decide)
  · exact Revocations.not_publishable_of_used
      ⟨⟨.issuanceByDefault, 5⟩, Multiplicative.ofAdd 18, ⟨1, {1}⟩⟩ 1
      (List.getElem?_eq_getElem (by decide +kernel)) (by decide +kernel) (by decide +kernel)
      (by decide +kernel) rfl (by decide) hpublishable

end IndySdk.Vcx
