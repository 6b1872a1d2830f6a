import IndySdk.ProofVerifier

/-!
# What an accepted proof covers

`Covered` asks that every claimed referent reaches the cryptographic verifier, in the sub-proof
request of the identifier its `sub_proof_index` names. Nothing in the verifier checks that the
index names an identifier, and the loop over the identifiers passes over a referent whose index
does not, so acceptance gives coverage exactly when all claimed indices are in range.
-/

namespace IndySdk.Anoncreds

open AssocMap

variable {cl : ClCrypto} (toLowercase : String → String)

/-- The attribute requested under `referent` is revealed in the sub-proof request of the
identifier with the claimed index. -/
def RevealedCovered (entries : List (SubProofEntry cl.toClTypes)) (proofReq : ProofRequest cl)
    (proof : Proof cl) (referent : String) (info : RevealedAttributeInfo) : Prop :=
  ∃ i entry attr, i < proof.identifiers.length ∧ entries[i]? = some entry ∧
    i = asUsize info.subProofIndex ∧
    proofReq.requestedAttributes.lookup referent = some attr ∧
    attrCommonView toLowercase attr.name ∈ entry.subProofRequest.revealedAttrs

/-- The predicate requested under `referent` is part of the sub-proof request of the identifier
with the claimed index. -/
def PredicateCovered (entries : List (SubProofEntry cl.toClTypes)) (proof : Proof cl)
    (referent : String) (predicate : PredicateInfo) : Prop :=
  ∃ i entry info, i < proof.identifiers.length ∧ entries[i]? = some entry ∧
    proof.requestedProof.predicates.lookup referent = some info ∧ i = asUsize info.subProofIndex ∧
    ⟨attrCommonView toLowercase predicate.name, predicate.pType, predicate.pValue⟩ ∈
      entry.subProofRequest.predicates

structure Covered (entries : List (SubProofEntry cl.toClTypes)) (proofReq : ProofRequest cl)
    (proof : Proof cl) : Prop where
  revealed : ∀ referent info, proof.requestedProof.revealedAttrs.lookup referent = some info →
    RevealedCovered toLowercase entries proofReq proof referent info
  predicate : ∀ referent predicate,
    proofReq.requestedPredicates.lookup referent = some predicate →
    PredicateCovered toLowercase entries proof referent predicate

/-- Every claimed `sub_proof_index` names an identifier of the proof. -/
structure IndicesInRange (proof : Proof cl) : Prop where
  revealed : ∀ referent info, proof.requestedProof.revealedAttrs.lookup referent = some info →
    asUsize info.subProofIndex < proof.identifiers.length
  predicate : ∀ referent info, proof.requestedProof.predicates.lookup referent = some info →
    asUsize info.subProofIndex < proof.identifiers.length

theorem mem_revealedAttrs {attrs : List AttributeInfo} {predicates : List PredicateInfo}
    {attr : AttributeInfo} (h : attr ∈ attrs) : attrCommonView toLowercase attr.name ∈
      (buildSubProofRequest toLowercase attrs predicates).revealedAttrs := by
  rw [buildSubProofRequest, List.mem_toFinset]
  exact List.mem_map_of_mem h

theorem mem_predicates {attrs : List AttributeInfo} {predicates : List PredicateInfo}
    {predicate : PredicateInfo} (h : predicate ∈ predicates) :
    ⟨attrCommonView toLowercase predicate.name, predicate.pType, predicate.pValue⟩ ∈
      (buildSubProofRequest toLowercase attrs predicates).predicates := by
  rw [buildSubProofRequest, List.mem_toFinset, List.mem_map]
  refine ⟨predicate, h, ?_⟩
  cases predicate.pType
  rfl

variable {proofReq : ProofRequest cl} {proof : Proof cl}

theorem revealedCovered_of_lt {maps : LedgerMaps cl} {entries : List (SubProofEntry cl.toClTypes)}
    (he : subProofEntries toLowercase maps proof proofReq = .ok entries) {referent : String}
    {info : RevealedAttributeInfo} {attr : AttributeInfo}
    (hr : proof.requestedProof.revealedAttrs.lookup referent = some info)
    (ha : proofReq.requestedAttributes.lookup referent = some attr)
    (hi : asUsize info.subProofIndex < proof.identifiers.length) :
    RevealedCovered toLowercase entries proofReq proof referent info := by
  obtain ⟨entry, hentry, hbuilt⟩ := subProofEntries_getElem? toLowercase he hi
  refine ⟨_, entry, attr, hi, hentry, rfl, ha, ?_⟩
  rw [subProofEntry_request toLowercase hbuilt]
  exact mem_revealedAttrs toLowercase
    (mem_requestedForCredential.mpr ⟨referent, info, hr, ha, rfl⟩)

theorem predicateCovered_of_lt {maps : LedgerMaps cl} {entries : List (SubProofEntry cl.toClTypes)}
    (he : subProofEntries toLowercase maps proof proofReq = .ok entries) {referent : String}
    {info : SubProofReferent} {predicate : PredicateInfo}
    (hr : proof.requestedProof.predicates.lookup referent = some info)
    (hp : proofReq.requestedPredicates.lookup referent = some predicate)
    (hi : asUsize info.subProofIndex < proof.identifiers.length) :
    PredicateCovered toLowercase entries proof referent predicate := by
  obtain ⟨entry, hentry, hbuilt⟩ := subProofEntries_getElem? toLowercase he hi
  refine ⟨_, entry, info, hi, hentry, hr, rfl, ?_⟩
  rw [subProofEntry_request toLowercase hbuilt]
  exact mem_predicates toLowercase
    (mem_requestedForCredential.mpr ⟨referent, info, hr, hp, rfl⟩)

theorem indicesInRange_of_covered {entries : List (SubProofEntry cl.toClTypes)}
    (hp : proofReq.requestedPredicates.keySet = proof.requestedProof.predicates.keySet)
    (hc : Covered toLowercase entries proofReq proof) : IndicesInRange proof := by
  refine ⟨?_, ?_⟩
  · intro referent info hr
    obtain ⟨i, entry, attr, hi, -, rfl, -, -⟩ := hc.revealed referent info hr
    exact hi
  · intro referent info hr
    have hk : referent ∈ proofReq.requestedPredicates.keySet := by
      rw [hp]
      exact mem_keySet.mpr ⟨info, hr⟩
    obtain ⟨predicate, hpr⟩ := mem_keySet.mp hk
    obtain ⟨i, entry, info', hi, -, hr', rfl, -⟩ := hc.predicate referent predicate hpr
    cases hr.symm.trans hr'
    exact hi

/-- An accepted proof is covered by what the cryptographic verifier was given exactly when no
claimed index points past the identifiers. -/
theorem verifyProof_covered_iff {proofReq : ProofRequest cl} {proof : Proof cl}
    {maps : LedgerMaps cl} (h : verifyProof toLowercase proofReq proof maps = .ok true) :
    (∃ entries, subProofEntries toLowercase maps proof proofReq = .ok entries ∧
      Covered toLowercase entries proofReq proof) ↔ IndicesInRange proof := by
  obtain ⟨hattrs, hpreds, hv⟩ := verifyProof_eq_ok toLowercase h
  obtain ⟨entries, he, -⟩ := Outcome.bind_eq_ok_iff.mp hv
  constructor
  · rintro ⟨entries', -, hc⟩
    exact indicesInRange_of_covered toLowercase hpreds hc
  · intro hrange
    refine ⟨entries, he, ?_, ?_⟩
    · intro referent info hr
      have hk : referent ∈ proofReq.requestedAttributes.keySet := by
        rw [hattrs]
        exact Finset.mem_union_left _ (Finset.mem_union_left _
          (mem_keySet.mpr ⟨info, hr⟩))
      obtain ⟨attr, ha⟩ := mem_keySet.mp hk
      exact revealedCovered_of_lt toLowercase he hr ha (hrange.revealed referent info hr)
    · intro referent predicate hp
      have hk : referent ∈ proof.requestedProof.predicates.keySet := by
        rw [← hpreds]
        exact mem_keySet.mpr ⟨predicate, hp⟩
      obtain ⟨info, hr⟩ := mem_keySet.mp hk
      exact predicateCovered_of_lt toLowercase he hr hp (hrange.predicate referent info hr)

/-- What one sub-proof of the example library reveals and proves. -/
structure ExampleSubProof where
  revealed : List (String × String)
  predicates : List Predicate

def ExampleSubProof.answers {T : ClTypes} (p : ExampleSubProof) (entry : SubProofEntry T) : Bool :=
  entry.subProofRequest.revealedAttrs = (p.revealed.map Prod.fst).toFinset ∧
    entry.subProofRequest.predicates = p.predicates.toFinset

def exampleTypes : ClTypes where
  CryptoProof := List ExampleSubProof
  Nonce := Unit
  PrimaryPublicKey := Unit
  RevocationPublicKey := Unit
  CredentialPublicKey := Unit
  RevocationKeyPublic := Unit
  RevocationRegistry := Unit

def exampleVerify (entries : List (SubProofEntry exampleTypes)) (proof : List ExampleSubProof) :
    Bool :=
  entries.length = proof.length ∧ (entries.zip proof).all (fun p => p.2.answers p.1)

/-- A credential library whose proofs list what they prove, and which accepts a proof when its
sub-proofs answer the sub-proof requests one by one. -/
def exampleCl : ClCrypto where
  toClTypes := exampleTypes
  buildFromParts := fun _ _ => .ok ()
  addSubProofRequest := fun _ => .ok ()
  verify := fun entries proof _ => .ok (exampleVerify entries proof)

def exampleMaps : LedgerMaps exampleCl where
  schemas := AList.insert "schema" ⟨{"name", "age"}⟩ ∅
  credDefs := AList.insert "credDef" ⟨(), none⟩ ∅
  revRegDefs := ∅
  revRegs := ∅

/-- A request for a name and for an age of at least 18. -/
def exampleRequest : ProofRequest exampleCl where
  nonce := ()
  name := "request"
  version := "1.0"
  requestedAttributes := AList.insert "attr1" { name := "name" } ∅
  requestedPredicates := AList.insert "pred1" { name := "age", pType := .GE, pValue := 18 } ∅
  nonRevoked := none

/-- A proof over one identifier, with the age claimed of the sub-proof at `predicateIndex`. -/
def exampleProof (predicates : List Predicate) (predicateIndex : Int) : Proof exampleCl where
  proof := [⟨[("name", "1139481716457488690172217916278103335")], predicates⟩]
  requestedProof := {
    revealedAttrs := AList.insert "attr1" ⟨0, "Alex", "1139481716457488690172217916278103335"⟩ ∅
    selfAttestedAttrs := ∅
    unrevealedAttrs := ∅
    predicates := AList.insert "pred1" ⟨predicateIndex⟩ ∅ }
  identifiers := [⟨"schema", "credDef", none, none⟩]

theorem exampleProof_accepted_in_range :
    verifyProof id exampleRequest (exampleProof [⟨"age", .GE, 18⟩] 0) exampleMaps = .ok true := by
  rfl

theorem exampleProof_accepted_out_of_range :
    verifyProof id exampleRequest (exampleProof [] 1) exampleMaps = .ok true := by
  rfl

/-- The claimed index of an accepted proof is in range and its referents are covered. -/
theorem verifyProof_covered_iff_exampleProof :
    (∃ entries, subProofEntries id exampleMaps (exampleProof [⟨"age", .GE, 18⟩] 0) exampleRequest =
        .ok entries ∧ Covered id entries exampleRequest (exampleProof [⟨"age", .GE, 18⟩] 0)) ↔
      IndicesInRange (exampleProof [⟨"age", .GE, 18⟩] 0) :=
  verifyProof_covered_iff id exampleProof_accepted_in_range

/-- A proof that proves nothing about the age is accepted when the age is claimed of a sub-proof
that does not exist. -/
theorem exampleProof_not_covered :
    verifyProof id exampleRequest (exampleProof [] 1) exampleMaps = .ok true ∧
      ¬ ∃ entries, subProofEntries id exampleMaps (exampleProof [] 1) exampleRequest = .ok entries ∧
        Covered id entries exampleRequest (exampleProof [] 1) := by
  refine ⟨exampleProof_accepted_out_of_range, ?_⟩
  rintro ⟨entries, -, hc⟩
  obtain ⟨i, entry, info, hi, -, hr, rfl, -⟩ :=
    hc.predicate "pred1" { name := "age", pType := .GE, pValue := 18 } rfl
  cases hr
  exact absurd hi (by decide)

end IndySdk.Anoncreds
