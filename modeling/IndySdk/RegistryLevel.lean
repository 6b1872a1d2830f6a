import IndySdk.RevocationPosting
import IndySdk.SendRetries

/-!
# What a call does to the registries

The ledger is level with the wallet when the entries of each registry that has an object accumulate
to the registry in the wallet. Calls other than those that revoke keep it so by leaving both alone,
and a call that revokes by writing the delta it has made.
-/

namespace IndySdk.Vcx

open Outcome Function
open Anoncreds (RevRegRecords CryptoIssuer IssuanceType)

/-- Issuing from a registry that issues by default leaves its accumulator alone. -/
def LeavesDefault {G : Type} (crypto : CryptoIssuer G) : Prop :=
  ∀ {revIdx maxCredNum revReg revReg'},
    crypto.signCredentialWithRevoc revIdx maxCredNum true revReg = .ok revReg' → revReg' = revReg

/-- The ledger answers a transaction that it has not written with a rejection, and the caller takes
it for a reply. -/
def LedgerWorld.Overlooked (world : LedgerWorld) : Prop :=
  (∃ paid, world.buildAndPay.1 = .ok paid) ∧ world.buildAndPay.2 = false

namespace Revocations

variable {G : Type} [DecidableEq G] (crypto : CryptoIssuer G) (s : Revocations G)

/-- An object of the registry exists. -/
def Published (revRegId : String) : Prop :=
  ∃ d ∈ s.credentialDefs, d.revRegId = some revRegId

/-- The ledger accumulates to the registry of the wallet. -/
def Settled (revRegId : String) : Prop :=
  ∃ records, s.wallet revRegId = some (.complete records) ∧
    s.accumulated revRegId = some (records.revReg, records.revRegInfo.usedIds)

def OnLedger (revRegId credRevId : String) : Prop :=
  ∃ id revReg revoked, Numerals.parseUnsigned 32 credRevId = some id ∧
    s.accumulated revRegId = some (revReg, revoked) ∧ id ∈ revoked

/-- A call could succeed and bring the revocation to the ledger. -/
def Publishable (handle : ℕ) (revRegId credRevId : String) : Prop :=
  ∃ world, (s.revokeCred crypto handle world).1 = .ok (revRegId, credRevId) ∧
    (s.revokeCred crypto handle world).2.OnLedger revRegId credRevId

end Revocations

/-! ### What the calls change -/

theorem IssuerCredential.sendCredential_revRegId (world : IssuerWorld) (c : IssuerCredential) :
    (c.sendCredential world).2.1.revRegId = c.revRegId := by
  rcases c.sendCredential_cases world with ⟨r, hsend, -⟩ | ⟨did, attrs, issued, -, -, hrest⟩
  · rw [hsend]
  rcases hrest with ⟨r, hsend, -⟩ | ⟨message, data, credReqMsgId, -, hsend⟩
  · rw [hsend]
  · rw [hsend]
    rcases (send world (countMessage { c with credRevId := issued.2.1 }) data
      credReqMsgId).result_cases with ⟨uid, h⟩ | ⟨e, h⟩
    · rw [finishSend_sent h]
      rfl
    · obtain ⟨delivered, hfinish, -⟩ := finishSend_failed h
      rw [hfinish]
      rfl

namespace Revocations

section

variable {G : Type} {s : Revocations G}

theorem setWallet_self {revRegId : String} {registry : WalletRegistry G}
    (h : s.wallet revRegId = some registry) : s.setWallet revRegId registry = s := by
  unfold setWallet
  rw [← h, update_eq_self]

theorem setWallet_wallet (revRegId : String) (registry : WalletRegistry G) :
    (s.setWallet revRegId registry).wallet revRegId = some registry :=
  update_self _ _ _

theorem setWallet_wallet_of_ne {revRegId other : String} (registry : WalletRegistry G)
    (h : other ≠ revRegId) : (s.setWallet revRegId registry).wallet other = s.wallet other :=
  update_of_ne h _ _

theorem post_written (revRegId : String) (entry : RegistryEntry G) :
    (s.post revRegId entry true).ledger revRegId = s.ledger revRegId ++ [entry] :=
  update_self _ _ _

theorem post_ledger_of_ne {revRegId other : String} (entry : RegistryEntry G) (written : Bool)
    (h : other ≠ revRegId) : (s.post revRegId entry written).ledger other = s.ledger other := by
  cases written with
  | true => exact update_of_ne h _ _
  | false => rfl

theorem post_wallet (revRegId : String) (entry : RegistryEntry G) (written : Bool) :
    (s.post revRegId entry written).wallet = s.wallet := by
  cases written <;> rfl

theorem post_credentialDefs (revRegId : String) (entry : RegistryEntry G) (written : Bool) :
    (s.post revRegId entry written).credentialDefs = s.credentialDefs := by
  cases written <;> rfl

theorem post_credentials (revRegId : String) (entry : RegistryEntry G) (written : Bool) :
    (s.post revRegId entry written).credentials = s.credentials := by
  cases written <;> rfl

end

variable {G : Type} [DecidableEq G] {crypto : CryptoIssuer G} {s s' : Revocations G}

/-- What runs keep of the state. -/
structure Level (s : Revocations G) : Prop where
  settled : ∀ {revRegId}, s.Published revRegId → s.Settled revRegId
  byDefault : ∀ {revRegId records}, s.wallet revRegId = some (.complete records) →
    records.revRegDef.issuanceType = .issuanceByDefault
  unposted : ∀ {revRegId}, s.wallet revRegId = none → s.ledger revRegId = []
  known : ∀ {c revRegId}, c ∈ s.credentials → c.revRegId = some revRegId → s.Published revRegId

/-- Changes that neither the ledger nor the accumulators of the wallet show. -/
theorem Level.of_same (h : s.Level)
    (hwallet : ∀ revRegId, s'.wallet revRegId = s.wallet revRegId ∨ ∃ records records',
      s.wallet revRegId = some (.complete records) ∧
        s'.wallet revRegId = some (.complete records') ∧
        records'.revRegDef = records.revRegDef ∧ records'.revReg = records.revReg ∧
        records'.revRegInfo.usedIds = records.revRegInfo.usedIds)
    (hledger : s'.ledger = s.ledger)
    (hdefs : ∀ {d revRegId}, d ∈ s'.credentialDefs → d.revRegId = some revRegId →
      s.Published revRegId)
    (hdefs' : ∀ {revRegId}, s.Published revRegId → s'.Published revRegId)
    (hknown : ∀ {c revRegId}, c ∈ s'.credentials → c.revRegId = some revRegId →
      s.Published revRegId) : s'.Level where
  settled := by
    rintro revRegId ⟨d, hd, hid⟩
    obtain ⟨records, hrecords, haccumulated⟩ := h.settled (hdefs hd hid)
    have hsame : s'.accumulated revRegId = s.accumulated revRegId := by
      rw [accumulated, hledger]
      rfl
    rcases hwallet revRegId with hkept | ⟨old, new, hold, hnew, -, hreg, hused⟩
    · exact ⟨records, hkept.trans hrecords, hsame.trans haccumulated⟩
    · rw [hrecords] at hold
      cases hold
      refine ⟨new, hnew, hsame.trans ?_⟩
      rw [haccumulated, hreg, hused]
  byDefault := by
    intro revRegId records hrecords
    rcases hwallet revRegId with hkept | ⟨old, new, hold, hnew, hdef, -, -⟩
    · exact h.byDefault (hkept.symm.trans hrecords)
    · rw [hnew] at hrecords
      cases hrecords
      rw [hdef]
      exact h.byDefault hold
  unposted := by
    intro revRegId hnone
    rw [hledger]
    rcases hwallet revRegId with hkept | ⟨old, new, -, hnew, -⟩
    · exact h.unposted (hkept.symm.trans hnone)
    · rw [hnew] at hnone
      cases hnone
  known := fun hc hid => hdefs' (hknown hc hid)

omit [DecidableEq G] in
theorem newRegistry_ok {world : CredDefWorld} {maxCreds : ℕ} {records : RevRegRecords G}
    (h : newRegistry crypto world maxCreds = .ok records) :
    records.revRegDef.issuanceType = .issuanceByDefault ∧ records.revRegInfo.usedIds = ∅ := by
  obtain ⟨_, -, h⟩ := bind_eq_ok_iff.mp h
  obtain ⟨created, hcreated, h⟩ := bind_eq_ok_iff.mp h
  obtain ⟨_, -, h⟩ := bind_eq_ok_iff.mp h
  cases h
  obtain ⟨revReg, -, hcreated⟩ := bind_eq_ok_iff.mp hcreated
  cases hcreated
  exact ⟨rfl, rfl⟩

theorem Level.setWallet (h : s.Level) {revRegId : String} {registry : WalletRegistry G}
    (hfree : s.wallet revRegId = none)
    (hdefault : ∀ records, registry = .complete records →
      records.revRegDef.issuanceType = .issuanceByDefault) :
    (s.setWallet revRegId registry).Level where
  settled := by
    rintro other hother
    obtain ⟨records, hrecords, haccumulated⟩ := h.settled hother
    refine ⟨records, ?_, haccumulated⟩
    rw [setWallet_wallet_of_ne registry (fun he => ?_), hrecords]
    rw [he, hfree] at hrecords
    cases hrecords
  byDefault := by
    intro other records hrecords
    by_cases hother : other = revRegId
    · rw [hother, setWallet_wallet] at hrecords
      exact hdefault records (Option.some.inj hrecords)
    · rw [setWallet_wallet_of_ne registry hother] at hrecords
      exact h.byDefault hrecords
  unposted := by
    intro other hnone
    by_cases hother : other = revRegId
    · rw [hother, setWallet_wallet] at hnone
      cases hnone
    · rw [setWallet_wallet_of_ne registry hother] at hnone
      exact h.unposted hnone
  known := h.known

theorem Level.post (h : s.Level) {revRegId : String} (hnot : ¬ s.Published revRegId)
    (hstored : s.wallet revRegId ≠ none) (entry : RegistryEntry G) (written : Bool) :
    (s.post revRegId entry written).Level := by
  have hpublished : ∀ {other},
      (s.post revRegId entry written).Published other ↔ s.Published other := by
    intro other
    unfold Published
    rw [post_credentialDefs]
  constructor
  · intro other hother
    have hold := hpublished.mp hother
    obtain ⟨records, hrecords, haccumulated⟩ := h.settled hold
    refine ⟨records, by rw [post_wallet, hrecords], ?_⟩
    have hne : other ≠ revRegId := by
      rintro rfl
      exact hnot hold
    rw [accumulated, post_ledger_of_ne entry written hne]
    exact haccumulated
  · intro other records hrecords
    rw [post_wallet] at hrecords
    exact h.byDefault hrecords
  · intro other hnone
    rw [post_wallet] at hnone
    have hne : other ≠ revRegId := by
      rintro rfl
      exact hstored hnone
    rw [post_ledger_of_ne entry written hne, h.unposted hnone]
  · intro c other hc hid
    rw [post_credentials] at hc
    exact hpublished.mpr (h.known hc hid)

theorem Level.not_published (h : s.Level) {revRegId : String}
    (hfree : s.wallet revRegId = none) : ¬ s.Published revRegId := by
  intro hpublished
  obtain ⟨records, hrecords, -⟩ := h.settled hpublished
  rw [hfree] at hrecords
  cases hrecords

omit [DecidableEq G] in
theorem addRegistry_cases (world : CredDefWorld) (records : RevRegRecords G) :
    ((∀ r, (s.addRegistry world records).1 ≠ .ok r) ∧ (s.addRegistry world records).2 = s) ∨
      s.wallet world.revRegId = none ∧
        (((∀ r, (s.addRegistry world records).1 ≠ .ok r) ∧
            (s.addRegistry world records).2 = s.setWallet world.revRegId .incomplete) ∨
          ((s.addRegistry world records).1 = .ok records ∧
            (s.addRegistry world records).2 =
              s.setWallet world.revRegId (.complete records))) := by
  unfold Revocations.addRegistry
  cases hfree : s.wallet world.revRegId with
  | some registry => exact .inl ⟨fun r => err_ne_ok _ r, rfl⟩
  | none =>
    dsimp only [Option.isSome_none]
    rw [if_neg Bool.false_ne_true]
    cases world.addObject .definition with
    | err e => exact .inl ⟨fun r => err_ne_ok e r, rfl⟩
    | panic => exact .inl ⟨fun r => panic_ne_ok r, rfl⟩
    | ok u =>
      refine .inr ⟨rfl, ?_⟩
      dsimp only
      split
      · exact .inl ⟨fun r => err_ne_ok _ r, rfl⟩
      · exact .inl ⟨fun r => panic_ne_ok r, rfl⟩
      · exact .inr ⟨rfl, rfl⟩

omit [DecidableEq G] in
theorem mapIndyResult_ok {α : Type} {result : IndyResult α} {a : α} :
    mapIndyResult result = .ok a ↔ result = .ok a := by
  cases result with
  | ok b => rw [mapIndyResult, Outcome.ok.injEq, Outcome.ok.injEq]
  | err e => exact iff_of_false (err_ne_ok _ a) (err_ne_ok e a)
  | panic => exact iff_of_false (panic_ne_ok a) (panic_ne_ok a)

variable (crypto s) in
omit [DecidableEq G] in
theorem createAndStoreRevocReg_cases (world : CredDefWorld) (maxCreds : ℕ) :
    ((∀ r, (s.createAndStoreRevocReg crypto world maxCreds).1 ≠ .ok r) ∧
        (s.createAndStoreRevocReg crypto world maxCreds).2 = s) ∨
      s.wallet world.revRegId = none ∧
        (((∀ r, (s.createAndStoreRevocReg crypto world maxCreds).1 ≠ .ok r) ∧
            (s.createAndStoreRevocReg crypto world maxCreds).2 =
              s.setWallet world.revRegId .incomplete) ∨
          ∃ records, newRegistry crypto world maxCreds = .ok records ∧
            (s.createAndStoreRevocReg crypto world maxCreds).1 = .ok records ∧
            (s.createAndStoreRevocReg crypto world maxCreds).2 =
              s.setWallet world.revRegId (.complete records)) := by
  unfold createAndStoreRevocReg
  cases world.openWriter with
  | err e => exact .inl ⟨fun r => err_ne_ok e r, rfl⟩
  | panic => exact .inl ⟨fun r => panic_ne_ok r, rfl⟩
  | ok u =>
    dsimp only
    cases hnew : newRegistry crypto world maxCreds with
    | err e => exact .inl ⟨fun r => err_ne_ok _ r, rfl⟩
    | panic => exact .inl ⟨fun r => panic_ne_ok r, rfl⟩
    | ok records =>
      dsimp only
      rcases addRegistry_cases (s := s) world records with ⟨hfailed, hsame⟩ | ⟨hfree, hadded⟩
      · exact .inl ⟨fun r h => hfailed r (mapIndyResult_ok.mp h), hsame⟩
      · refine .inr ⟨hfree, hadded.imp ?_ ?_⟩
        · exact fun h => ⟨fun r hr => h.1 r (mapIndyResult_ok.mp hr), h.2⟩
        · exact fun h => ⟨records, rfl, mapIndyResult_ok.mpr h.1, h.2⟩

variable (crypto s) in
omit [DecidableEq G] in
/-- What creating a registry leaves behind. The initial entry is posted when the definition is. -/
theorem createRegistry_cases (world : CredDefWorld) (details : RevocationDetails) :
    ((∀ p, (s.createRegistry crypto world details).1 ≠ .ok p) ∧
        (s.createRegistry crypto world details).2 = s) ∨
      s.wallet world.revRegId = none ∧
        (((∀ p, (s.createRegistry crypto world details).1 ≠ .ok p) ∧
            (s.createRegistry crypto world details).2 =
              s.setWallet world.revRegId .incomplete) ∨
          ∃ maxCreds records, newRegistry crypto world maxCreds = .ok records ∧
            (((∀ p, (s.createRegistry crypto world details).1 ≠ .ok p) ∧
                (s.createRegistry crypto world details).2 =
                  s.setWallet world.revRegId (.complete records)) ∨
              (details.maxCreds = some maxCreds ∧
                (∃ created, (s.createRevRegDef crypto world maxCreds).1 = .ok created) ∧
                (s.createRegistry crypto world details).2 =
                  (s.setWallet world.revRegId (.complete records)).post world.revRegId
                    ⟨none, records.revReg, ∅⟩ world.entryTxn.buildAndPay.2 ∧
                ∀ p, (s.createRegistry crypto world details).1 = .ok p →
                  ∃ paid, world.entryTxn.buildAndPay.1 = .ok paid))) := by
  unfold createRegistry
  cases details.tailsFile with
  | none => exact .inl ⟨fun r => err_ne_ok _ r, rfl⟩
  | some dir =>
    cases details.maxCreds with
    | none => exact .inl ⟨fun r => err_ne_ok _ r, rfl⟩
    | some maxCreds =>
      dsimp only
      unfold createRevRegDef
      have hcases := createAndStoreRevocReg_cases crypto s world maxCreds
      generalize hstored : s.createAndStoreRevocReg crypto world maxCreds = stored at hcases ⊢
      obtain ⟨result, state⟩ := stored
      cases result with
      | err e =>
        rcases hcases with ⟨-, hsame⟩ | ⟨hfree, ⟨-, hstate⟩ | ⟨records, hnew, hok, hstate⟩⟩
        · exact .inl ⟨fun r => err_ne_ok _ r, hsame⟩
        · exact .inr ⟨hfree, .inl ⟨fun r => err_ne_ok _ r, hstate⟩⟩
        · cases hok
      | panic =>
        rcases hcases with ⟨-, hsame⟩ | ⟨hfree, ⟨-, hstate⟩ | ⟨records, hnew, hok, hstate⟩⟩
        · exact .inl ⟨fun r => panic_ne_ok r, hsame⟩
        · exact .inr ⟨hfree, .inl ⟨fun r => panic_ne_ok r, hstate⟩⟩
        · cases hok
      | ok records =>
        rcases hcases with ⟨hno, -⟩ | ⟨hfree, ⟨hno, -⟩ | ⟨records', hnew, hok, hstate⟩⟩
        · exact absurd rfl (hno records)
        · exact absurd rfl (hno records)
        cases hok
        subst hstate
        refine .inr ⟨hfree, .inr ⟨maxCreds, records, hnew, ?_⟩⟩
        dsimp only
        cases hdef : world.revRegDefTxn.buildAndPay.1 with
        | err e => exact .inl ⟨fun r => err_ne_ok _ r, rfl⟩
        | panic => exact .inl ⟨fun r => panic_ne_ok r, rfl⟩
        | ok paid =>
          refine .inr ⟨rfl, ?_, rfl, ?_⟩
          · rw [hstored]
            exact ⟨_, rfl⟩
          intro p hp
          cases hentry : world.entryTxn.buildAndPay.1 with
          | ok paid' => exact ⟨paid', rfl⟩
          | err e =>
            rw [hentry] at hp
            exact absurd hp (err_ne_ok _ p)
          | panic =>
            rw [hentry] at hp
            exact absurd hp (panic_ne_ok p)

variable (crypto) in
theorem createRegistry_level (h : s.Level) (world : CredDefWorld) (details : RevocationDetails) :
    (s.createRegistry crypto world details).2.Level := by
  rcases createRegistry_cases crypto s world details with
    ⟨-, hsame⟩ | ⟨hfree, ⟨-, hstate⟩ | ⟨maxCreds, records, hnew, hrest⟩⟩
  · rw [hsame]
    exact h
  · rw [hstate]
    exact h.setWallet hfree (fun _ hcomplete => by cases hcomplete)
  · have hstored : (s.setWallet world.revRegId (.complete records)).Level :=
      h.setWallet hfree (by
        rintro _ ⟨⟩
        exact (newRegistry_ok hnew).1)
    rcases hrest with ⟨-, hstate⟩ | ⟨-, -, hstate, -⟩
    · rw [hstate]
      exact hstored
    · rw [hstate]
      refine hstored.post (h.not_published hfree) ?_ _ _
      rw [setWallet_wallet]
      exact Option.some_ne_none _

theorem createRegistry_settled (h : s.Level) {world : CredDefWorld} {details : RevocationDetails}
    (hreach : ∀ maxCreds created, details.maxCreds = some maxCreds →
      (s.createRevRegDef crypto world maxCreds).1 = .ok created → ¬ world.entryTxn.Overlooked)
    {p : Option PaymentTxn × Option PaymentTxn}
    (hok : (s.createRegistry crypto world details).1 = .ok p) :
    (s.createRegistry crypto world details).2.Settled world.revRegId := by
  rcases createRegistry_cases crypto s world details with
    ⟨hno, -⟩ | ⟨hfree, ⟨hno, -⟩ | ⟨maxCreds, records, hnew, ⟨hno, -⟩ |
      ⟨hmax, ⟨created, hcreated⟩, hstate, hentry⟩⟩⟩
  · exact absurd hok (hno p)
  · exact absurd hok (hno p)
  · exact absurd hok (hno p)
  have hwritten : world.entryTxn.buildAndPay.2 = true := by
    by_contra hlost
    exact hreach maxCreds created hmax hcreated ⟨hentry p hok, Bool.eq_false_iff.mpr hlost⟩
  rw [hstate, hwritten]
  refine ⟨records, ?_, ?_⟩
  · rw [post_wallet, setWallet_wallet]
  · have hledger : (s.setWallet world.revRegId (.complete records)).ledger world.revRegId = [] :=
      h.unposted hfree
    rw [accumulated, post_written, hledger, (newRegistry_ok hnew).2]
    rfl

theorem Level.addCredentialDef (h : s.Level) {d : CredentialDef}
    (hsettled : ∀ revRegId, d.revRegId = some revRegId → s.Settled revRegId) :
    (s.addCredentialDef d).2.Level where
  settled := by
    rintro revRegId ⟨d', hd', hid⟩
    rcases List.mem_append.mp hd' with hold | hnew
    · exact h.settled ⟨d', hold, hid⟩
    · rw [List.mem_singleton.mp hnew] at hid
      exact hsettled revRegId hid
  byDefault := h.byDefault
  unposted := h.unposted
  known := by
    intro c revRegId hc hid
    obtain ⟨d', hd', hid'⟩ := h.known hc hid
    exact ⟨d', List.mem_append_left _ hd', hid'⟩

omit [DecidableEq G] in
theorem createCredDef_state (world : CredDefWorld) :
    ∃ ids, (s.createCredDef world).2 = { s with walletCredDefs := ids } := by
  have hstored : ∃ ids, (s.createAndStoreCredentialDef world).2 =
      { s with walletCredDefs := ids } := by
    unfold createAndStoreCredentialDef
    by_cases htaken : world.credDefId ∈ s.walletCredDefs
    · rw [if_pos htaken]
      exact ⟨s.walletCredDefs, rfl⟩
    · rw [if_neg htaken]
      dsimp only
      split
      · exact ⟨_, rfl⟩
      · exact ⟨s.walletCredDefs, rfl⟩
  unfold createCredDef
  split
  · rename_i hstate
    rwa [hstate] at hstored
  · rename_i hstate
    rwa [hstate] at hstored
  · rename_i hstate
    rwa [hstate] at hstored

theorem Level.withCredDefs (h : s.Level) (ids : Finset String) :
    { s with walletCredDefs := ids }.Level := ⟨h.settled, h.byDefault, h.unposted, h.known⟩

/-- The registries of the objects keep their objects and their entries. -/
def Keeps (s s' : Revocations G) : Prop :=
  ∀ revRegId, s.Published revRegId →
    s'.Published revRegId ∧ s'.ledger revRegId = s.ledger revRegId

omit [DecidableEq G] in
theorem Keeps.of_eq (hdefs : s'.credentialDefs = s.credentialDefs)
    (hledger : s'.ledger = s.ledger) : s.Keeps s' := by
  rintro revRegId ⟨d, hd, hid⟩
  exact ⟨⟨d, hdefs ▸ hd, hid⟩, congrFun hledger revRegId⟩

omit [DecidableEq G] in
theorem Keeps.trans {s'' : Revocations G} (h : s.Keeps s') (h' : s'.Keeps s'') : s.Keeps s'' := by
  intro revRegId hpublished
  obtain ⟨hpublished', hledger⟩ := h revRegId hpublished
  obtain ⟨hpublished'', hledger'⟩ := h' revRegId hpublished'
  exact ⟨hpublished'', hledger'.trans hledger⟩

omit [DecidableEq G] in
theorem keeps_addCredentialDef (d : CredentialDef) : s.Keeps (s.addCredentialDef d).2 := by
  rintro revRegId ⟨d', hd', hid⟩
  exact ⟨⟨d', List.mem_append_left _ hd', hid⟩, rfl⟩

variable (crypto) in
theorem createRegistry_keeps (h : s.Level) (world : CredDefWorld) (details : RevocationDetails) :
    s.Keeps (s.createRegistry crypto world details).2 := by
  rcases createRegistry_cases crypto s world details with
    ⟨-, hsame⟩ | ⟨hfree, ⟨-, hstate⟩ | ⟨maxCreds, records, -, ⟨-, hstate⟩ | ⟨-, -, hstate, -⟩⟩⟩
  · rw [hsame]
    exact Keeps.of_eq rfl rfl
  · rw [hstate]
    exact Keeps.of_eq rfl rfl
  · rw [hstate]
    exact Keeps.of_eq rfl rfl
  · rw [hstate]
    rintro revRegId ⟨d, hd, hid⟩
    have hne : revRegId ≠ world.revRegId := by
      rintro rfl
      exact h.not_published hfree ⟨d, hd, hid⟩
    refine ⟨⟨d, ?_, hid⟩, ?_⟩
    · rw [post_credentialDefs]
      exact hd
    · rw [post_ledger_of_ne _ _ hne]
      rfl

/-- The step lemma for creating a credential definition. -/
theorem createNewCredentialDef_level (h : s.Level) {args : CredDefArgs} {world : CredDefWorld}
    (hreach : ∀ details maxCreds created, world.deserializeDetails = some details →
      details.supportRevocation = some true → details.maxCreds = some maxCreds →
        ((s.createCredDef world).2.createRevRegDef crypto world maxCreds).1 = .ok created →
          ¬ world.entryTxn.Overlooked) :
    (s.createNewCredentialDef crypto args world).2.Level ∧
      s.Keeps (s.createNewCredentialDef crypto args world).2 := by
  unfold createNewCredentialDef
  have hsame : s.Level ∧ s.Keeps s := ⟨h, Keeps.of_eq rfl rfl⟩
  have hdefs : (s.createCredDef world).2.Level ∧ s.Keeps (s.createCredDef world).2 := by
    obtain ⟨ids, hids⟩ := createCredDef_state (s := s) world
    rw [hids]
    exact ⟨h.withCredDefs ids, Keeps.of_eq rfl rfl⟩
  cases hdetails : world.deserializeDetails with
  | none => exact hsame
  | some details =>
    cases world.getSchemaJson with
    | err e => exact hsame
    | panic => exact hsame
    | ok schema =>
      have hreach' := hreach details
      rw [hdetails] at hreach'
      dsimp only
      generalize s.createCredDef world = created at hdefs hreach' ⊢
      obtain ⟨result, state⟩ := created
      cases result with
      | err e => exact hdefs
      | panic => exact hdefs
      | ok payment =>
        dsimp only at hdefs hreach' ⊢
        obtain ⟨hdefs, hkept⟩ := hdefs
        by_cases hrevocation : details.supportRevocation = some true
        · rw [if_pos hrevocation]
          have hlevel := createRegistry_level crypto hdefs world details
          have hsettled : ∀ p, (state.createRegistry crypto world details).1 = .ok p →
              (state.createRegistry crypto world details).2.Settled world.revRegId :=
            fun p => createRegistry_settled hdefs
              (fun maxCreds created => hreach' maxCreds created rfl hrevocation)
          have hkept' := hkept.trans (createRegistry_keeps crypto hdefs world details)
          generalize state.createRegistry crypto world details = stored at hlevel hsettled hkept' ⊢
          obtain ⟨result, state'⟩ := stored
          cases result with
          | err e => exact ⟨hlevel, hkept'⟩
          | panic => exact ⟨hlevel, hkept'⟩
          | ok p =>
            refine ⟨hlevel.addCredentialDef ?_, hkept'.trans (keeps_addCredentialDef _)⟩
            rintro revRegId ⟨⟩
            exact hsettled p rfl
        · rw [if_neg hrevocation]
          exact ⟨hdefs.addCredentialDef (fun revRegId hid => by cases hid),
            hkept.trans (keeps_addCredentialDef _)⟩

theorem issuerCredentialCreate_level (h : s.Level) (credDefHandle : ℕ) (args : CredentialArgs) :
    (s.issuerCredentialCreate credDefHandle args).2.Level ∧
      s.Keeps (s.issuerCredentialCreate credDefHandle args).2 := by
  unfold issuerCredentialCreate
  cases hd : s.credentialDefs[credDefHandle]? with
  | none => exact ⟨h, Keeps.of_eq rfl rfl⟩
  | some d =>
    refine ⟨⟨h.settled, h.byDefault, h.unposted, ?_⟩, Keeps.of_eq rfl rfl⟩
    intro c revRegId hc hid
    rcases List.mem_append.mp hc with hold | hnew
    · exact h.known hold hid
    · rw [List.mem_singleton.mp hnew] at hid
      exact ⟨d, List.mem_of_getElem? hd, hid⟩

theorem Level.setCredential (h : s.Level) {handle : ℕ} {c c' : IssuerCredential}
    (hc : s.credentials[handle]? = some c) (hid : c'.revRegId = c.revRegId) :
    (s.setCredential handle c').Level where
  settled := h.settled
  byDefault := h.byDefault
  unposted := h.unposted
  known := by
    intro other revRegId hother hother'
    rcases List.mem_or_eq_of_mem_set hother with hold | rfl
    · exact h.known hold hother'
    · exact h.known (List.mem_of_getElem? hc) (hid ▸ hother')

theorem receiveRequest_level (h : s.Level) (handle : ℕ) (offer : CredentialOffer)
    (request : CredentialRequest) :
    (s.receiveRequest handle offer request).Level ∧
      s.Keeps (s.receiveRequest handle offer request) := by
  unfold receiveRequest
  cases hc : s.credentials[handle]? with
  | none => exact ⟨h, Keeps.of_eq rfl rfl⟩
  | some c =>
    dsimp only
    by_cases hstate : c.state = .initialized
    · rw [if_pos hstate]
      exact ⟨h.setCredential hc rfl, Keeps.of_eq rfl rfl⟩
    · rw [if_neg hstate]
      exact ⟨h, Keeps.of_eq rfl rfl⟩

omit [DecidableEq G] in
theorem newCredential_byDefault (hcrypto : LeavesDefault crypto) {wallet : Anoncreds.IssuerWorld}
    {records : RevRegRecords G} {reader : Option ℤ}
    (hdefault : records.revRegDef.issuanceType = .issuanceByDefault) :
    (Anoncreds.newCredential crypto wallet records reader).2.revRegDef = records.revRegDef ∧
      (Anoncreds.newCredential crypto wallet records reader).2.revReg = records.revReg ∧
      (Anoncreds.newCredential crypto wallet records reader).2.revRegInfo.usedIds =
        records.revRegInfo.usedIds := by
  rcases Anoncreds.storeComputed_cases
    (Anoncreds.issueRecords crypto wallet records reader) with
    ⟨-, hkept⟩ | ⟨revReg, info, answer, hissued, hstored⟩
  · unfold Anoncreds.newCredential
    rw [hkept]
    exact ⟨rfl, rfl, rfl⟩
  · obtain ⟨id, -, -, hsign, rfl, -⟩ := Anoncreds.issueRecords_ok hissued
    rw [hdefault] at hsign
    have hreg := hcrypto hsign
    unfold Anoncreds.newCredential
    rcases hstored with ⟨-, hstored⟩ | ⟨-, -, hhalf⟩
    · rw [hstored, hdefault]
      exact ⟨rfl, hreg, rfl⟩
    · rw [hhalf]
      exact ⟨rfl, hreg, rfl⟩

theorem libindyIssuerCreateCredential_level (hcrypto : LeavesDefault crypto) (h : s.Level)
    (issue : IssueWorld) (revRegId tailsFile : Option String) :
    (s.libindyIssuerCreateCredential crypto issue revRegId tailsFile).2.Level ∧
      s.Keeps (s.libindyIssuerCreateCredential crypto issue revRegId tailsFile).2 ∧
      (s.libindyIssuerCreateCredential crypto issue revRegId tailsFile).2.credentials =
        s.credentials := by
  have hsame : s.Level ∧ s.Keeps s ∧ s.credentials = s.credentials :=
    ⟨h, Keeps.of_eq rfl rfl, rfl⟩
  unfold libindyIssuerCreateCredential
  dsimp only
  split
  · exact hsame
  · exact hsame
  · exact hsame
  · rename_i reader id hreader
    split
    · rename_i records hrecords
      obtain ⟨hdef, hreg, hused⟩ := newCredential_byDefault hcrypto
        (h.byDefault hrecords)
      refine ⟨h.of_same ?_ rfl (fun hd hid => ⟨_, hd, hid⟩) (fun hp => hp) h.known,
        Keeps.of_eq rfl rfl, rfl⟩
      intro other
      by_cases hother : other = id
      · subst hother
        exact .inr ⟨records, _, hrecords, setWallet_wallet _ _, hdef, hreg, hused⟩
      · exact .inl (setWallet_wallet_of_ne _ hother)
    · exact hsame

theorem sendCredential_level (hcrypto : LeavesDefault crypto) (h : s.Level) (handle : ℕ)
    (world : IssuerWorld) (issue : IssueWorld) :
    (s.sendCredential crypto handle world issue).2.Level ∧
      s.Keeps (s.sendCredential crypto handle world issue).2 := by
  unfold sendCredential
  cases hc : s.credentials[handle]? with
  | none => exact ⟨h, Keeps.of_eq rfl rfl⟩
  | some c =>
    dsimp only
    obtain ⟨hlevel, hkept, hcredentials⟩ :=
      libindyIssuerCreateCredential_level hcrypto h issue c.revRegId c.tailsFile
    have hid := c.sendCredential_revRegId { world with
      createCredential := fun _ _ _ _ _ =>
        (s.libindyIssuerCreateCredential crypto issue c.revRegId c.tailsFile).1 }
    by_cases hreached : reachesIssue world c = true
    · rw [if_pos hreached]
      exact ⟨hlevel.setCredential (hcredentials ▸ hc) hid, hkept⟩
    · rw [if_neg hreached]
      exact ⟨h.setCredential hc hid, Keeps.of_eq rfl rfl⟩

/-- Unless the wallet changes by half, libindy revokes or changes nothing. -/
theorem libindyIssuerRevokeCredential_cases (h : s.Level) {world : RevokeWorld}
    (htorn : ¬ world.wallet.Torn) (revRegId credRevId : String) :
    ((∀ delta, (s.libindyIssuerRevokeCredential crypto world revRegId credRevId).1 ≠ .ok delta) ∧
        (s.libindyIssuerRevokeCredential crypto world revRegId credRevId).2 = s) ∨
      ∃ id records records', Numerals.parseUnsigned 32 credRevId = some id ∧
        s.wallet revRegId = some (.complete records) ∧
        records'.revRegDef = records.revRegDef ∧
        records'.revRegInfo.usedIds = insert id records.revRegInfo.usedIds ∧
        s.libindyIssuerRevokeCredential crypto world revRegId credRevId =
          (.ok ⟨some records.revReg, records'.revReg, {id}⟩,
            s.setWallet revRegId (.complete records')) := by
  unfold libindyIssuerRevokeCredential
  split
  · exact .inl ⟨fun delta => err_ne_ok _ delta, rfl⟩
  · exact .inl ⟨fun delta => panic_ne_ok delta, rfl⟩
  · exact .inl ⟨fun delta => err_ne_ok _ delta, rfl⟩
  · exact .inl ⟨fun delta => panic_ne_ok delta, rfl⟩
  rename_i reader id hreader hid
  split
  · rename_i records hrecords
    dsimp only
    unfold Anoncreds.revokeCredential
    rcases Anoncreds.storeComputed_cases
      (Anoncreds.revokeRecords crypto world.wallet records credRevId) with
      ⟨hfailed, hkept⟩ | ⟨revReg, info, answer, hrevoked, hstored⟩
    · rw [hkept, setWallet_self hrecords]
      refine .inl ⟨fun delta hdelta => ?_, rfl⟩
      obtain ⟨a, ha, -⟩ := map_eq_ok_iff.mp hdelta
      exact hfailed a (mapIndyResult_ok.mp ha)
    · rcases hstored with ⟨hok, hstored⟩ | ⟨hhalf, -, -⟩
      · have hparsed := ofOption_eq_ok.mp hid
        rw [Anoncreds.revokeRecords, h.byDefault hrecords] at hrevoked
        obtain ⟨id', _, usedIds, hid', -, -, hused, -, rfl, -⟩ :=
          Anoncreds.changeRecords_ok hrevoked
        rw [hparsed] at hid'
        cases hid'
        obtain ⟨-, rfl⟩ := Anoncreds.insertUsed_ok.mp hused
        rw [hok, hstored]
        exact .inr ⟨id, records, { records with
          revReg := revReg
          revRegInfo := ⟨records.revRegInfo.currId, insert id records.revRegInfo.usedIds⟩ },
          hparsed, hrecords, rfl, rfl, rfl⟩
      · exact absurd hhalf htorn
  · exact .inl ⟨fun delta => err_ne_ok _ delta, rfl⟩

omit [DecidableEq G] in
theorem revocationInfo_ok {c : IssuerCredential} {revRegId credRevId : String}
    (h : revocationInfo c = .ok (revRegId, credRevId)) : c.revRegId = some revRegId := by
  obtain ⟨_, -, h⟩ := bind_eq_ok_iff.mp h
  obtain ⟨id, hid, h⟩ := bind_eq_ok_iff.mp h
  obtain ⟨_, -, h⟩ := bind_eq_ok_iff.mp h
  cases h
  exact ofOption_eq_ok.mp hid

/-- The wallet revokes and the delta is written: the ledger follows. -/
theorem Level.revoke (h : s.Level) {revRegId : String} {id : ℕ} {records records' : RevRegRecords G}
    (hrecords : s.wallet revRegId = some (.complete records))
    (hdef : records'.revRegDef = records.revRegDef)
    (hused : records'.revRegInfo.usedIds = insert id records.revRegInfo.usedIds)
    (hpublished : s.Published revRegId) :
    ((s.setWallet revRegId (.complete records')).post revRegId
        ⟨some records.revReg, records'.revReg, {id}⟩ true).Level ∧
      ((s.setWallet revRegId (.complete records')).post revRegId
        ⟨some records.revReg, records'.revReg, {id}⟩ true).accumulated revRegId =
          some (records'.revReg, records'.revRegInfo.usedIds) := by
  have haccumulated : ((s.setWallet revRegId (.complete records')).post revRegId
      ⟨some records.revReg, records'.revReg, {id}⟩ true).accumulated revRegId =
        some (records'.revReg, records'.revRegInfo.usedIds) := by
    obtain ⟨stored, hstored, hlevel⟩ := h.settled hpublished
    rw [hrecords] at hstored
    cases hstored
    have hchained : (⟨some records.revReg, records'.revReg, {id}⟩ : RegistryEntry G).before =
        some records.revReg := rfl
    rw [accumulated, post_written, hused, Finset.insert_eq, Finset.union_comm]
    exact Change.accumulate_concat_of_chained hlevel hchained
  refine ⟨⟨?_, ?_, ?_, h.known⟩, haccumulated⟩
  · intro other hother
    by_cases hsame : other = revRegId
    · subst hsame
      exact ⟨records', setWallet_wallet _ _, haccumulated⟩
    · obtain ⟨stored, hstored, hlevel⟩ := h.settled hother
      refine ⟨stored, (setWallet_wallet_of_ne _ hsame).trans hstored, ?_⟩
      rw [accumulated, post_ledger_of_ne _ _ hsame]
      exact hlevel
  · intro other stored hstored
    by_cases hsame : other = revRegId
    · subst hsame
      rw [post_wallet, setWallet_wallet] at hstored
      cases hstored
      rw [hdef]
      exact h.byDefault hrecords
    · rw [post_wallet, setWallet_wallet_of_ne _ hsame] at hstored
      exact h.byDefault hstored
  · intro other hnone
    by_cases hsame : other = revRegId
    · subst hsame
      rw [post_wallet, setWallet_wallet] at hnone
      cases hnone
    · rw [post_wallet, setWallet_wallet_of_ne _ hsame] at hnone
      rw [post_ledger_of_ne _ _ hsame]
      exact h.unposted hnone

/-- What is revoked on the ledger stays revoked. -/
def Extends (s s' : Revocations G) : Prop :=
  ∀ revRegId, s.Published revRegId → s'.Published revRegId ∧
    ∀ credRevId, s.OnLedger revRegId credRevId → s'.OnLedger revRegId credRevId

theorem Keeps.extends (h : s.Keeps s') : s.Extends s' := by
  intro revRegId hpublished
  obtain ⟨hpublished', hledger⟩ := h revRegId hpublished
  refine ⟨hpublished', ?_⟩
  rintro credRevId ⟨id, revReg, revoked, hid, haccumulated, hmem⟩
  refine ⟨id, revReg, revoked, hid, ?_, hmem⟩
  rw [accumulated, hledger]
  exact haccumulated

/-- What one call to revoke does, when its delta is written once it is made: nothing, or it brings
its revocation to the ledger. -/
theorem revokeCredential_cases (h : s.Level) {world : RevokeWorld} {revRegId credRevId : String}
    (hpublished : s.Published revRegId)
    (hreach : ∀ did, world.institutionDid = .ok did → ¬ world.wallet.Torn ∧ ∀ delta,
      (s.libindyIssuerRevokeCredential crypto world revRegId credRevId).1 = .ok delta →
        world.deltaTxn.buildAndPay.2 = true) :
    ((∀ payment, (s.revokeCredential crypto world revRegId credRevId).1 ≠ .ok payment) ∧
        (s.revokeCredential crypto world revRegId credRevId).2 = s) ∨
      ((s.revokeCredential crypto world revRegId credRevId).2.Level ∧
        s.Extends (s.revokeCredential crypto world revRegId credRevId).2 ∧
        (s.revokeCredential crypto world revRegId credRevId).2.OnLedger revRegId credRevId ∧
        (s.revokeCredential crypto world revRegId credRevId).2.credentials = s.credentials) := by
  unfold revokeCredential
  cases hdid : world.institutionDid with
  | err e => exact .inl ⟨fun payment => err_ne_ok e payment, rfl⟩
  | panic => exact .inl ⟨fun payment => panic_ne_ok payment, rfl⟩
  | ok did =>
    obtain ⟨htorn, hwritten⟩ := hreach did hdid
    dsimp only
    rcases libindyIssuerRevokeCredential_cases h htorn revRegId credRevId with
      ⟨hfailed, hsame⟩ | ⟨id, records, records', hid, hrecords, hdef, hused, hstep⟩
    · left
      generalize s.libindyIssuerRevokeCredential crypto world revRegId credRevId = revoked
        at hfailed hsame ⊢
      obtain ⟨result, state⟩ := revoked
      cases result with
      | err e => exact ⟨fun payment => err_ne_ok e payment, hsame⟩
      | panic => exact ⟨fun payment => panic_ne_ok payment, hsame⟩
      | ok delta => exact absurd rfl (hfailed delta)
    · right
      have hdelta := hwritten _ (congrArg Prod.fst hstep)
      rw [hstep]
      dsimp only
      rw [hdelta]
      obtain ⟨hlevel, haccumulated⟩ := h.revoke hrecords hdef hused hpublished
      have hmem : id ∈ records'.revRegInfo.usedIds := hused ▸ Finset.mem_insert_self id _
      refine ⟨hlevel, ?_, ⟨id, _, _, hid, haccumulated, hmem⟩, rfl⟩
      refine fun other hother => ⟨hother, ?_⟩
      rintro text ⟨id', revReg, revoked, hid', hother', hmem'⟩
      refine ⟨id', ?_⟩
      by_cases hsame : other = revRegId
      · subst hsame
        obtain ⟨stored, hstored, hlevel'⟩ := h.settled hother
        rw [hrecords] at hstored
        cases hstored
        rw [hlevel'] at hother'
        cases hother'
        exact ⟨_, _, hid', haccumulated, hused ▸ Finset.mem_insert_of_mem hmem'⟩
      · refine ⟨revReg, revoked, hid', ?_, hmem'⟩
        rw [accumulated, post_ledger_of_ne _ _ hsame]
        exact hother'

omit [DecidableEq G] in
theorem revokeCred_info {handle : ℕ} {world : RevokeWorld} {revocation : String × String}
    (h : (s.revokeCred crypto handle world).1 = .ok revocation) :
    ∃ c, s.credentials[handle]? = some c ∧ revocationInfo c = .ok revocation := by
  unfold revokeCred at h
  cases hc : s.credentials[handle]? with
  | none =>
    rw [hc] at h
    cases h
  | some c =>
    rw [hc] at h
    dsimp only at h
    cases hinfo : revocationInfo c with
    | err e =>
      rw [hinfo] at h
      cases h
    | panic =>
      rw [hinfo] at h
      cases h
    | ok info =>
      refine ⟨c, rfl, ?_⟩
      rw [hinfo] at h
      dsimp only at h
      split at h
      · cases h
      · cases h
      · cases h
        exact hinfo

/-- The step lemma for revoking. -/
theorem revokeCred_cases (h : s.Level) {handle : ℕ} {world : RevokeWorld}
    (hreach : ∀ c revRegId credRevId did, s.credentials[handle]? = some c →
      revocationInfo c = .ok (revRegId, credRevId) → world.institutionDid = .ok did →
        ¬ world.wallet.Torn ∧ ∀ delta,
          (s.libindyIssuerRevokeCredential crypto world revRegId credRevId).1 = .ok delta →
            world.deltaTxn.buildAndPay.2 = true) :
    ((∀ p, (s.revokeCred crypto handle world).1 ≠ .ok p) ∧
        (s.revokeCred crypto handle world).2 = s) ∨
      ∃ c revRegId credRevId, s.credentials[handle]? = some c ∧
        revocationInfo c = .ok (revRegId, credRevId) ∧ s.Published revRegId ∧
        (s.revokeCred crypto handle world).2.Level ∧
        s.Extends (s.revokeCred crypto handle world).2 ∧
        (s.revokeCred crypto handle world).2.OnLedger revRegId credRevId := by
  unfold revokeCred
  cases hc : s.credentials[handle]? with
  | none => exact .inl ⟨fun p => err_ne_ok _ p, rfl⟩
  | some c =>
    dsimp only
    cases hinfo : revocationInfo c with
    | err e => exact .inl ⟨fun p => err_ne_ok e p, rfl⟩
    | panic => exact .inl ⟨fun p => panic_ne_ok p, rfl⟩
    | ok info =>
      obtain ⟨revRegId, credRevId⟩ := info
      have hid := revocationInfo_ok hinfo
      have hpublished := h.known (List.mem_of_getElem? hc) hid
      have hcases := revokeCredential_cases h hpublished
        (fun did => hreach c revRegId credRevId did hc hinfo)
      dsimp only
      generalize s.revokeCredential crypto world revRegId credRevId = revoked at hcases ⊢
      obtain ⟨result, state⟩ := revoked
      rcases hcases with ⟨hfailed, hsame⟩ | ⟨hlevel, hextends, hledger, hcredentials⟩
      · cases result with
        | err e => exact .inl ⟨fun p => err_ne_ok e p, hsame⟩
        | panic => exact .inl ⟨fun p => panic_ne_ok p, hsame⟩
        | ok payment => exact absurd rfl (hfailed payment)
      · refine .inr ⟨c, revRegId, credRevId, rfl, hinfo, hpublished, ?_⟩
        cases result with
        | err e => exact ⟨hlevel, hextends, hledger⟩
        | panic => exact ⟨hlevel, hextends, hledger⟩
        | ok payment =>
          have hc' : state.credentials[handle]? = some c := hcredentials ▸ hc
          exact ⟨hlevel.setCredential hc' rfl, hextends, hledger⟩

end Revocations

end IndySdk.Vcx
