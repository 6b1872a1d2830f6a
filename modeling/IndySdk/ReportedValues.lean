import IndySdk.VerifierCoverage

/-!
# Values reported for revealed attributes

Next to the cryptographic proof a prover reports the raw and the encoded value of every revealed
attribute. The verifier reads the keys of that map and the claimed indices, never the values. A
`Report` is any other choice of reported values.
-/

namespace IndySdk.Anoncreds

variable {cl : ClCrypto} (toLowercase : String → String)

/-- New raw and encoded values for each referent and the information given for it. -/
abbrev Report := String → RevealedAttributeInfo → String × String

namespace Report

def apply (f : Report) (referent : String) (info : RevealedAttributeInfo) :
    RevealedAttributeInfo :=
  { info with raw := (f referent info).1, encoded := (f referent info).2 }

@[simp] theorem apply_subProofIndex (f : Report) (referent : String)
    (info : RevealedAttributeInfo) :
    (f.apply referent info).subProofIndex = info.subProofIndex := rfl

end Report

/-- The same proof with other values reported for the revealed attributes. -/
def Proof.report (proof : Proof cl) (f : Report) : Proof cl :=
  { proof with requestedProof := { proof.requestedProof with
      revealedAttrs := proof.requestedProof.revealedAttrs.mapValues f.apply } }

variable (proof : Proof cl) (f : Report)

@[simp] theorem Proof.report_identifiers : (proof.report f).identifiers = proof.identifiers := rfl

@[simp] theorem Proof.report_proof : (proof.report f).proof = proof.proof := rfl

/-- The value the cryptographic proof reveals for an attribute of a sub-proof, as read by
`revealedValue`, is there whenever the verifier accepts requests that ask for the attribute. -/
def RevealsRequested (revealedValue : cl.CryptoProof → ℕ → String → Option String) : Prop :=
  ∀ entries proof nonce, cl.verify entries proof nonce = .ok true →
    ∀ (i : ℕ) entry, entries[i]? = some entry →
      ∀ attr ∈ entry.subProofRequest.revealedAttrs, (revealedValue proof i attr).isSome

/-- The claimed encoded values are those of the cryptographic part, under the requested names. -/
def ValuesBound (revealedValue : cl.CryptoProof → ℕ → String → Option String)
    (proofReq : ProofRequest cl) (proof : Proof cl) : Prop :=
  ∀ referent info attr, proof.requestedProof.revealedAttrs.lookup referent = some info →
    proofReq.requestedAttributes.lookup referent = some attr →
    revealedValue proof.proof (asUsize info.subProofIndex)
      (attrCommonView toLowercase attr.name) = some info.encoded

theorem requestedForCredential_mapValues {β : Type} (i : ℕ)
    (claimed : AssocMap String RevealedAttributeInfo) (requested : AssocMap String β) :
    requestedForCredential i RevealedAttributeInfo.subProofIndex (claimed.mapValues f.apply)
        requested =
      requestedForCredential i RevealedAttributeInfo.subProofIndex claimed requested := by
  simp only [requestedForCredential, AssocMap.toPairs_mapValues, List.filter_map,
    List.filterMap_map]
  rfl

theorem subProofEntry_report (maps : LedgerMaps cl) (proofReq : ProofRequest cl) (i : ℕ) :
    subProofEntry toLowercase maps (proof.report f) proofReq i =
      subProofEntry toLowercase maps proof proofReq i := by
  have ha : getRevealedAttributesForCredential i (proof.report f).requestedProof proofReq =
      getRevealedAttributesForCredential i proof.requestedProof proofReq :=
    requestedForCredential_mapValues f i _ _
  simp only [subProofEntry, ha, Proof.report_identifiers]
  rfl

theorem subProofEntries_report (maps : LedgerMaps cl) (proofReq : ProofRequest cl) :
    subProofEntries toLowercase maps (proof.report f) proofReq =
      subProofEntries toLowercase maps proof proofReq := by
  rw [subProofEntries, subProofEntries, Proof.report_identifiers]
  congr 1
  funext i
  exact subProofEntry_report toLowercase proof f maps proofReq i

theorem verifyProof_report (maps : LedgerMaps cl) (proofReq : ProofRequest cl) :
    verifyProof toLowercase proofReq (proof.report f) maps =
      verifyProof toLowercase proofReq proof maps := by
  have hk : (proof.report f).requestedProof.revealedAttrs.keySet =
      proof.requestedProof.revealedAttrs.keySet :=
    AssocMap.keySet_mapValues f.apply proof.requestedProof.revealedAttrs
  simp only [verifyProof, verify, hk, subProofEntries_report, Proof.report_proof]
  rfl

/-- What acceptance says about revealed attributes: each was requested, the cryptographic part
reveals a value for it when its index names a sub-proof, and the verdict is the same whatever
values are reported. -/
theorem accepted_revealed {revealedValue : cl.CryptoProof → ℕ → String → Option String}
    (hcl : RevealsRequested revealedValue) {maps : LedgerMaps cl} {proofReq : ProofRequest cl}
    (h : verifyProof toLowercase proofReq proof maps = .ok true) :
    (∀ referent info, proof.requestedProof.revealedAttrs.lookup referent = some info →
      ∃ attr, proofReq.requestedAttributes.lookup referent = some attr ∧
        (asUsize info.subProofIndex < proof.identifiers.length →
          (revealedValue proof.proof (asUsize info.subProofIndex)
            (attrCommonView toLowercase attr.name)).isSome)) ∧
      ∀ f, verifyProof toLowercase proofReq (proof.report f) maps = .ok true := by
  obtain ⟨hattrs, -, hv⟩ := verifyProof_eq_ok toLowercase h
  obtain ⟨entries, he, hcv⟩ := Outcome.bind_eq_ok_iff.mp hv
  refine ⟨?_, fun f => (verifyProof_report toLowercase proof f maps proofReq).trans h⟩
  intro referent info hr
  have hk : referent ∈ proofReq.requestedAttributes.keySet := by
    rw [hattrs]
    exact Finset.mem_union_left _ (Finset.mem_union_left _ (AssocMap.mem_keySet.mpr ⟨info, hr⟩))
  obtain ⟨attr, ha⟩ := AssocMap.mem_keySet.mp hk
  refine ⟨attr, ha, fun hi => ?_⟩
  obtain ⟨i, entry, attr', -, hentry, rfl, ha', hmem⟩ :=
    revealedCovered_of_lt toLowercase he hr ha hi
  cases ha.symm.trans ha'
  exact hcl entries proof.proof proofReq.nonce hcv _ entry hentry _ hmem

/-- The revealed value listed by a proof of the example library. -/
def exampleRevealedValue (proof : List ExampleSubProof) (i : ℕ) (attr : String) : Option String :=
  proof[i]?.bind (fun p => p.revealed.lookup attr)

theorem isSome_lookup_of_mem {attr : String} {revealed : List (String × String)}
    (h : attr ∈ (revealed.map Prod.fst).toFinset) : (revealed.lookup attr).isSome := by
  rw [List.mem_toFinset, List.mem_map] at h
  obtain ⟨p, hp, rfl⟩ := h
  exact List.lookup_isSome_iff.mpr ⟨p, hp, by simp⟩

theorem exampleVerify_reveals {entries : List (SubProofEntry exampleTypes)}
    {proof : List ExampleSubProof} (h : exampleVerify entries proof = true) {i : ℕ}
    {entry : SubProofEntry exampleTypes} (hentry : entries[i]? = some entry) {attr : String}
    (hattr : attr ∈ entry.subProofRequest.revealedAttrs) :
    (exampleRevealedValue proof i attr).isSome := by
  simp only [exampleVerify, decide_eq_true_eq] at h
  obtain ⟨hlen, hall⟩ := h
  obtain ⟨hi, rfl⟩ := List.getElem?_eq_some_iff.mp hentry
  have hi' : i < proof.length := by omega
  have ha := List.all_eq_true.mp hall (entries[i], proof[i])
    (List.mem_iff_getElem.mpr ⟨i, by simp [hi, hi'], List.getElem_zip⟩)
  simp only [ExampleSubProof.answers, decide_eq_true_eq] at ha
  rw [exampleRevealedValue, List.getElem?_eq_getElem hi', Option.bind_some]
  exact isSome_lookup_of_mem (ha.1 ▸ hattr)

theorem example_revealsRequested : @RevealsRequested exampleCl exampleRevealedValue :=
  fun _ _ _ h _ _ hentry _ hattr => exampleVerify_reveals (Outcome.ok.inj h) hentry hattr

/-- An accepted proof whose attribute is requested and revealed. -/
theorem accepted_revealed_exampleProof :
    (∀ referent info,
      (exampleProof [⟨"age", .GE, 18⟩] 0).requestedProof.revealedAttrs.lookup referent = some info →
      ∃ attr, exampleRequest.requestedAttributes.lookup referent = some attr ∧
        (asUsize info.subProofIndex < (exampleProof [⟨"age", .GE, 18⟩] 0).identifiers.length →
          (exampleRevealedValue (exampleProof [⟨"age", .GE, 18⟩] 0).proof
            (asUsize info.subProofIndex) (attrCommonView id attr.name)).isSome)) ∧
      ∀ f, verifyProof id exampleRequest ((exampleProof [⟨"age", .GE, 18⟩] 0).report f)
        exampleMaps = .ok true :=
  accepted_revealed id _ example_revealsRequested exampleProof_accepted_in_range

/-- Two accepted proofs with one cryptographic part and different encoded values, the second of
which is not the revealed value. -/
theorem exampleProof_values_not_bound :
    verifyProof id exampleRequest (exampleProof [⟨"age", .GE, 18⟩] 0) exampleMaps = .ok true ∧
      verifyProof id exampleRequest
        ((exampleProof [⟨"age", .GE, 18⟩] 0).report (fun _ _ => ("Bob", "99"))) exampleMaps =
          .ok true ∧
      ValuesBound id exampleRevealedValue exampleRequest (exampleProof [⟨"age", .GE, 18⟩] 0) ∧
      ¬ ValuesBound id exampleRevealedValue exampleRequest
        ((exampleProof [⟨"age", .GE, 18⟩] 0).report (fun _ _ => ("Bob", "99"))) := by
  refine ⟨exampleProof_accepted_in_range, by decide +kernel, ?_, ?_⟩
  · intro referent info attr hr ha
    have hreferent : referent = "attr1" := by
      by_contra hne
      rw [exampleProof, AList.lookup_insert_ne hne] at hr
      cases hr
    subst hreferent
    have hi : some info = some ⟨0, "Alex", "1139481716457488690172217916278103335"⟩ := hr.symm
    have hn : some attr = some { name := "name" } := ha.symm
    cases hi
    cases hn
    decide
  · intro hb
    exact absurd (hb "attr1" ⟨0, "Bob", "99"⟩ { name := "name" } rfl rfl) (by decide)

end IndySdk.Anoncreds
