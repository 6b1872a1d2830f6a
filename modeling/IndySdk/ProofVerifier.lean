import IndySdk.AssocMap
import IndySdk.Errors
import IndySdk.Json
import Mathlib.Data.Finset.Image

/-!
# Verification of anonymous-credential proofs

The command layer compares the referents of a proof with those of the proof request. The service
layer then rebuilds one sub-proof request for each identifier of the proof and hands them to the
cryptographic verifier, a third-party library that enters as a `ClCrypto`.
-/

namespace IndySdk.Anoncreds

open Outcome

inductive PredicateType where
  | GE
  deriving DecidableEq, Repr

structure NonRevocedInterval where
  «from» : Option ℕ
  «to» : Option ℕ

structure AttributeInfo where
  name : String
  restrictions : Option Json := none
  nonRevoked : Option NonRevocedInterval := none

structure PredicateInfo where
  name : String
  pType : PredicateType
  pValue : Int
  restrictions : Option Json := none
  nonRevoked : Option NonRevocedInterval := none

structure Identifier where
  schemaId : String
  credDefId : String
  revRegId : Option String
  timestamp : Option ℕ

structure SubProofReferent where
  subProofIndex : Int

structure RevealedAttributeInfo where
  subProofIndex : Int
  raw : String
  encoded : String

structure RequestedProof where
  revealedAttrs : AssocMap String RevealedAttributeInfo
  selfAttestedAttrs : AssocMap String String
  unrevealedAttrs : AssocMap String SubProofReferent
  predicates : AssocMap String SubProofReferent

structure Predicate where
  attrName : String
  pType : PredicateType
  value : Int
  deriving DecidableEq, Repr

structure SubProofRequest where
  revealedAttrs : Finset String
  predicates : Finset Predicate
  deriving DecidableEq

/-- The opaque types of the credential library. -/
structure ClTypes where
  CryptoProof : Type
  Nonce : Type
  PrimaryPublicKey : Type
  RevocationPublicKey : Type
  CredentialPublicKey : Type
  RevocationKeyPublic : Type
  RevocationRegistry : Type

/-- What one call of the library's `add_sub_proof_request` is given. -/
structure SubProofEntry (T : ClTypes) where
  subProofRequest : SubProofRequest
  credentialSchema : Finset String
  nonCredentialSchema : Finset String
  credentialPubKey : T.CredentialPublicKey
  revKeyPub : Option T.RevocationKeyPublic
  revReg : Option T.RevocationRegistry

/-- The credential library: key assembly, the consistency check made when a sub-proof request is
added, and the verification of a proof against everything that was added. -/
structure ClCrypto extends ClTypes where
  buildFromParts : PrimaryPublicKey → Option RevocationPublicKey → IndyResult CredentialPublicKey
  addSubProofRequest : SubProofEntry toClTypes → IndyResult Unit
  verify : List (SubProofEntry toClTypes) → CryptoProof → Nonce → IndyResult Bool

variable (cl : ClCrypto) (toLowercase : String → String)

structure Proof where
  proof : cl.CryptoProof
  requestedProof : RequestedProof
  identifiers : List Identifier

structure ProofRequest where
  nonce : cl.Nonce
  name : String
  version : String
  requestedAttributes : AssocMap String AttributeInfo
  requestedPredicates : AssocMap String PredicateInfo
  nonRevoked : Option NonRevocedInterval

structure SchemaV1 where
  attrNames : Finset String

structure CredentialDefinition where
  primary : cl.PrimaryPublicKey
  revocation : Option cl.RevocationPublicKey

structure RevocationRegistryDefinitionV1 where
  accumKey : cl.RevocationKeyPublic

structure RevocationRegistryV1 where
  value : cl.RevocationRegistry

/-- The ledger objects a proof is verified against. -/
structure LedgerMaps where
  schemas : AssocMap String SchemaV1
  credDefs : AssocMap String (CredentialDefinition cl)
  revRegDefs : AssocMap String (RevocationRegistryDefinitionV1 cl)
  revRegs : AssocMap String (AssocMap ℕ (RevocationRegistryV1 cl))

variable {cl}

/-- The cast of a signed index to the machine word. -/
def asUsize (i : Int) : ℕ := (i % 2 ^ 64).toNat

def attrCommonView (attr : String) : String :=
  toLowercase (String.ofList (attr.toList.filter (fun c => c ≠ ' ')))

def buildCredentialSchema (attrs : Finset String) : Finset String :=
  attrs.image (attrCommonView toLowercase)

def buildNonCredentialSchema : Finset String := {"master_secret"}

def buildSubProofRequest (attrsForCredential : List AttributeInfo)
    (predicatesForCredential : List PredicateInfo) : SubProofRequest where
  revealedAttrs :=
    (attrsForCredential.map (fun attr => attrCommonView toLowercase attr.name)).toFinset
  predicates := (predicatesForCredential.map (fun predicate =>
    ⟨attrCommonView toLowercase predicate.name, .GE, predicate.pValue⟩)).toFinset

/-- The referents claimed for one sub-proof, each replaced by what was requested under it. -/
def requestedForCredential {α β : Type} (subProofIndex : ℕ) (index : α → Int)
    (claimed : AssocMap String α) (requested : AssocMap String β) : List β :=
  (claimed.toPairs.filter (fun p =>
    subProofIndex = asUsize (index p.2) ∧ p.1 ∈ requested)).filterMap
      (fun p => requested.lookup p.1)

def getRevealedAttributesForCredential (subProofIndex : ℕ) (requestedProof : RequestedProof)
    (proofReq : ProofRequest cl) : List AttributeInfo :=
  requestedForCredential subProofIndex RevealedAttributeInfo.subProofIndex
    requestedProof.revealedAttrs proofReq.requestedAttributes

def getPredicatesForCredential (subProofIndex : ℕ) (requestedProof : RequestedProof)
    (proofReq : ProofRequest cl) : List PredicateInfo :=
  requestedForCredential subProofIndex SubProofReferent.subProofIndex
    requestedProof.predicates proofReq.requestedPredicates

/-- The revocation objects of one identifier, needed when its credential definition has a
revocation key. -/
def revocationFor (maps : LedgerMaps cl) (identifier : Identifier)
    (credDef : CredentialDefinition cl) :
    IndyResult (Option (RevocationRegistryDefinitionV1 cl) × Option (RevocationRegistryV1 cl)) :=
  if credDef.revocation.isSome then do
    let timestamp ← ofOption (errMsg .invalidStructure "Timestamp not found")
      identifier.timestamp
    let revRegId ← ofOption (errMsg .invalidStructure "Revocation Registry Id not found")
      identifier.revRegId
    let revRegDef ← ofOption
      (errMsg .invalidStructure "RevocationRegistryDefinition not found for id: _" [revRegId])
      (maps.revRegDefs.lookup revRegId)
    let revRegsForCred ← ofOption
      (errMsg .invalidStructure "RevocationRegistry not found for id: _" [revRegId])
      (maps.revRegs.lookup revRegId)
    let revReg ← ofOption
      (errMsg .invalidStructure "RevocationRegistry not found for timestamp: _"
        [toString timestamp])
      (revRegsForCred.lookup timestamp)
    pure (some revRegDef, some revReg)
  else pure (none, none)

/-- The body of the verifier's loop: what is added for the identifier at `subProofIndex`. -/
def subProofEntry (maps : LedgerMaps cl) (fullProof : Proof cl) (proofReq : ProofRequest cl)
    (subProofIndex : ℕ) : IndyResult (SubProofEntry cl.toClTypes) := do
  let identifier ← unwrap fullProof.identifiers[subProofIndex]?
  let schema ← ofOption
    (errMsg .invalidStructure "Schema not found for id: _" [identifier.schemaId])
    (maps.schemas.lookup identifier.schemaId)
  let credDef ← ofOption
    (errMsg .invalidStructure "CredentialDefinition not found for id: _" [identifier.credDefId])
    (maps.credDefs.lookup identifier.credDefId)
  let (revRegDef, revReg) ← revocationFor maps identifier credDef
  let credentialPubKey ← cl.buildFromParts credDef.primary credDef.revocation
  let entry : SubProofEntry cl.toClTypes := {
    subProofRequest := buildSubProofRequest toLowercase
      (getRevealedAttributesForCredential subProofIndex fullProof.requestedProof proofReq)
      (getPredicatesForCredential subProofIndex fullProof.requestedProof proofReq)
    credentialSchema := buildCredentialSchema toLowercase schema.attrNames
    nonCredentialSchema := buildNonCredentialSchema
    credentialPubKey
    revKeyPub := revRegDef.map RevocationRegistryDefinitionV1.accumKey
    revReg := revReg.map RevocationRegistryV1.value }
  cl.addSubProofRequest entry
  pure entry

/-- Everything the cryptographic verifier is given for a proof. -/
def subProofEntries (maps : LedgerMaps cl) (fullProof : Proof cl) (proofReq : ProofRequest cl) :
    IndyResult (List (SubProofEntry cl.toClTypes)) :=
  (List.range fullProof.identifiers.length).mapM (subProofEntry toLowercase maps fullProof proofReq)

def verify (maps : LedgerMaps cl) (fullProof : Proof cl) (proofReq : ProofRequest cl) :
    IndyResult Bool := do
  let entries ← subProofEntries toLowercase maps fullProof proofReq
  cl.verify entries fullProof.proof proofReq.nonce

def verifyProof (proofReq : ProofRequest cl) (proof : Proof cl) (maps : LedgerMaps cl) :
    IndyResult Bool :=
  let requestedAttrs := proofReq.requestedAttributes.keySet
  let receivedRevealedAttrs := proof.requestedProof.revealedAttrs.keySet
  let receivedUnrevealedAttrs := proof.requestedProof.unrevealedAttrs.keySet
  let receivedSelfAttestedAttrs := proof.requestedProof.selfAttestedAttrs.keySet
  let receivedAttrs := receivedRevealedAttrs ∪ receivedUnrevealedAttrs ∪ receivedSelfAttestedAttrs
  let requestedPredicates := proofReq.requestedPredicates.keySet
  let receivedPredicates := proof.requestedProof.predicates.keySet
  if requestedAttrs ≠ receivedAttrs then
    .err (errMsg .invalidStructure "Requested attributes _ do not correspond to received _")
  else if requestedPredicates ≠ receivedPredicates then
    .err (errMsg .invalidStructure "Requested predicates _ do not correspond to received _")
  else verify toLowercase maps proof proofReq

theorem mem_requestedForCredential {α β : Type} {subProofIndex : ℕ} {index : α → Int}
    {claimed : AssocMap String α} {requested : AssocMap String β} {b : β} :
    b ∈ requestedForCredential subProofIndex index claimed requested ↔
      ∃ referent a, claimed.lookup referent = some a ∧ requested.lookup referent = some b ∧
        subProofIndex = asUsize (index a) := by
  simp only [requestedForCredential, List.mem_filterMap, List.mem_filter, decide_eq_true_eq]
  constructor
  · rintro ⟨⟨referent, a⟩, ⟨hm, hi, -⟩, hb⟩
    exact ⟨referent, a, AssocMap.mem_toPairs.mp hm, hb, hi⟩
  · rintro ⟨referent, a, ha, hb, hi⟩
    have hr : referent ∈ requested := AList.lookup_isSome.mp (by rw [hb]; rfl)
    exact ⟨(referent, a), ⟨AssocMap.mem_toPairs.mpr ha, hi, hr⟩, hb⟩

variable {proofReq : ProofRequest cl} {maps : LedgerMaps cl}

theorem verifyProof_eq_ok {proof : Proof cl} {valid : Bool}
    (h : verifyProof toLowercase proofReq proof maps = .ok valid) :
    proofReq.requestedAttributes.keySet = proof.requestedProof.revealedAttrs.keySet ∪
        proof.requestedProof.unrevealedAttrs.keySet ∪
        proof.requestedProof.selfAttestedAttrs.keySet ∧
      proofReq.requestedPredicates.keySet = proof.requestedProof.predicates.keySet ∧
      verify toLowercase maps proof proofReq = .ok valid := by
  simp only [verifyProof] at h
  split_ifs at h with ha hp
  exact ⟨not_not.mp ha, not_not.mp hp, h⟩

theorem subProofEntry_request {fullProof : Proof cl} {i : ℕ} {entry : SubProofEntry cl.toClTypes}
    (h : subProofEntry toLowercase maps fullProof proofReq i = .ok entry) :
    entry.subProofRequest = buildSubProofRequest toLowercase
      (getRevealedAttributesForCredential i fullProof.requestedProof proofReq)
      (getPredicatesForCredential i fullProof.requestedProof proofReq) := by
  obtain ⟨identifier, -, h⟩ := bind_eq_ok_iff.mp h
  obtain ⟨schema, -, h⟩ := bind_eq_ok_iff.mp h
  obtain ⟨credDef, -, h⟩ := bind_eq_ok_iff.mp h
  obtain ⟨⟨revRegDef, revReg⟩, -, h⟩ := bind_eq_ok_iff.mp h
  obtain ⟨pubKey, -, h⟩ := bind_eq_ok_iff.mp h
  obtain ⟨-, -, h⟩ := bind_eq_ok_iff.mp h
  cases h
  rfl

theorem subProofEntries_getElem? {fullProof : Proof cl}
    {entries : List (SubProofEntry cl.toClTypes)}
    (h : subProofEntries toLowercase maps fullProof proofReq = .ok entries) {i : ℕ}
    (hi : i < fullProof.identifiers.length) :
    ∃ entry, entries[i]? = some entry ∧
      subProofEntry toLowercase maps fullProof proofReq i = .ok entry := by
  have hm := mapM_eq_ok_iff.mp h
  have hl : entries.length = fullProof.identifiers.length := by
    simpa using (congrArg List.length hm).symm
  have he := congrArg (fun l => l[i]?) hm
  have hi' : i < entries.length := by omega
  simp only [List.getElem?_map, List.getElem?_range hi, List.getElem?_eq_getElem hi',
    Option.map_some, Option.some.injEq] at he
  exact ⟨entries[i], List.getElem?_eq_getElem hi', he⟩

end IndySdk.Anoncreds
