import IndySdk.CredentialSearch

/-!
# Creation of anonymous-credential proofs

The prover groups what was requested by the credential and time it is to be proved with, and adds
one sub-proof for each group. The groups are kept in a hash map, so their order, and with it the
index of each, is any.
-/

namespace IndySdk.Anoncreds

open Outcome

structure ProvingCredentialKey where
  credId : String
  timestamp : Option ℕ
  deriving DecidableEq

structure RequestedAttribute where
  credId : String
  timestamp : Option ℕ
  revealed : Bool

structure RequestedCredentials where
  selfAttestedAttributes : AssocMap String String
  requestedAttributes : AssocMap String RequestedAttribute
  requestedPredicates : AssocMap String ProvingCredentialKey

structure RequestedAttributeInfo where
  attrReferent : String
  attrInfo : AttributeInfo
  revealed : Bool

structure RequestedPredicateInfo where
  predicateReferent : String
  predicateInfo : PredicateInfo

/-- The opaque types of the prover's side of the credential library. -/
structure ProverTypes where
  CredentialSignature : Type
  CredentialValues : Type
  MasterSecret : Type
  Witness : Type

/-- A credential with what the credential library signed. -/
structure SignedCredential (P : ProverTypes) extends Credential where
  signature : P.CredentialSignature

structure RevocationState (T : ClTypes) (P : ProverTypes) where
  revReg : T.RevocationRegistry
  witness : P.Witness

/-- What one call of the proof builder's `add_sub_proof_request` is given. -/
structure ProvedEntry (T : ClTypes) (P : ProverTypes) where
  subProofRequest : SubProofRequest
  credentialSchema : Finset String
  nonCredentialSchema : Finset String
  credentialSignature : P.CredentialSignature
  credentialValues : P.CredentialValues
  credentialPubKey : T.CredentialPublicKey
  revReg : Option T.RevocationRegistry
  witness : Option P.Witness

/-- The prover's side of the credential library. -/
structure ClProver (cl : ClCrypto) extends ProverTypes where
  buildCredentialValues : List (String × String) → MasterSecret → IndyResult CredentialValues
  addSubProofRequest : ProvedEntry cl.toClTypes toProverTypes → IndyResult Unit
  finalize : List (ProvedEntry cl.toClTypes toProverTypes) → cl.Nonce → IndyResult cl.CryptoProof

variable {cl : ClCrypto} (prover : ClProver cl) (toLowercase : String → String)
  (order : IterationOrder) (overflowChecks : Bool)

/-- What is proved with one credential. -/
abbrev ProvedGroup := List RequestedAttributeInfo × List RequestedPredicateInfo

def RequestedAttribute.key (requested : RequestedAttribute) : ProvingCredentialKey :=
  ⟨requested.credId, requested.timestamp⟩

def attributeFor (proofReq : ProofRequest cl) (referent : String)
    (requested : RequestedAttribute) : IndyResult RequestedAttributeInfo := do
  let attrInfo ← ofOption
    (errMsg .invalidStructure "AttributeInfo not found in ProofRequest for referent \"_\""
      [referent]) (proofReq.requestedAttributes.lookup referent)
  pure ⟨referent, attrInfo, requested.revealed⟩

def predicateFor (proofReq : ProofRequest cl) (referent : String) :
    IndyResult RequestedPredicateInfo := do
  let predicateInfo ← ofOption
    (errMsg .invalidStructure "PredicateInfo not found in ProofRequest for referent \"_\""
      [referent]) (proofReq.requestedPredicates.lookup referent)
  pure ⟨referent, predicateInfo⟩

/-- A group, new when there is none yet, with one attribute more. -/
def withAttribute (info : RequestedAttributeInfo) (group : Option ProvedGroup) : ProvedGroup :=
  match group with
  | some (attributesForCredential, predicates) => (attributesForCredential ++ [info], predicates)
  | none => ([info], [])

def withPredicate (info : RequestedPredicateInfo) (group : Option ProvedGroup) : ProvedGroup :=
  match group with
  | some (attributes, predicatesForCredential) => (attributes, predicatesForCredential ++ [info])
  | none => ([], [info])

def groupAttribute (proofReq : ProofRequest cl)
    (groups : AssocMap ProvingCredentialKey ProvedGroup) (entry : String × RequestedAttribute) :
    IndyResult (AssocMap ProvingCredentialKey ProvedGroup) := do
  let info ← attributeFor proofReq entry.1 entry.2
  pure (groups.update entry.2.key (withAttribute info))

def groupPredicate (proofReq : ProofRequest cl)
    (groups : AssocMap ProvingCredentialKey ProvedGroup) (entry : String × ProvingCredentialKey) :
    IndyResult (AssocMap ProvingCredentialKey ProvedGroup) := do
  let info ← predicateFor proofReq entry.1
  pure (groups.update entry.2 (withPredicate info))

def prepareCredentialsForProving (requestedCredentials : RequestedCredentials)
    (proofReq : ProofRequest cl) : IndyResult (AssocMap ProvingCredentialKey ProvedGroup) := do
  let groups ← requestedCredentials.requestedAttributes.toPairs.foldlM (groupAttribute proofReq) ∅
  requestedCredentials.requestedPredicates.toPairs.foldlM (groupPredicate proofReq) groups

def proverSubProofRequest (group : ProvedGroup) : SubProofRequest where
  revealedAttrs := ((group.1.filter RequestedAttributeInfo.revealed).map (fun attr =>
    attrCommonView toLowercase attr.attrInfo.name)).toFinset
  predicates := (group.2.map (fun predicate =>
    ⟨attrCommonView toLowercase predicate.predicateInfo.name, .GE,
      predicate.predicateInfo.pValue⟩)).toFinset

/-- A referent of an attribute takes its place in the proof. -/
def placeAttribute {P : ProverTypes} (proofReq : ProofRequest cl) (credential : SignedCredential P)
    (subProofIndex : Int) (requestedProof : RequestedProof) (info : RequestedAttributeInfo) :
    IndyResult RequestedProof :=
  if info.revealed then do
    let attr ← unwrap (proofReq.requestedAttributes.lookup info.attrReferent)
    let values ← ofOption
      (errMsg .invalidStructure "Credential value not found for attribute _" [attr.name])
      (getCredentialValuesForAttribute toLowercase order credential.values attr.name)
    let revealedAttrs := requestedProof.revealedAttrs.insert info.attrReferent
      ⟨subProofIndex, values.raw, values.encoded⟩
    pure { requestedProof with revealedAttrs }
  else
    let unrevealedAttrs := requestedProof.unrevealedAttrs.insert info.attrReferent ⟨subProofIndex⟩
    pure { requestedProof with unrevealedAttrs }

def placePredicate (subProofIndex : Int) (requestedProof : RequestedProof)
    (info : RequestedPredicateInfo) : RequestedProof :=
  let predicates := requestedProof.predicates.insert info.predicateReferent ⟨subProofIndex⟩
  { requestedProof with predicates }

def updateRequestedProof {P : ProverTypes} (proofReq : ProofRequest cl)
    (credential : SignedCredential P) (subProofIndex : Int) (group : ProvedGroup)
    (requestedProof : RequestedProof) : IndyResult RequestedProof := do
  let requestedProof ← group.1.foldlM
    (placeAttribute toLowercase order proofReq credential subProofIndex) requestedProof
  pure (group.2.foldl (placePredicate subProofIndex) requestedProof)

/-- What a proof is made from. -/
structure ProverMaps (P : ProverTypes) where
  credentials : AssocMap String (SignedCredential P)
  schemas : AssocMap String SchemaV1
  credDefs : AssocMap String (CredentialDefinition cl)
  revStates : AssocMap String (AssocMap ℕ (RevocationState cl.toClTypes P))

def revocationStateFor {P : ProverTypes} (maps : @ProverMaps cl P) (key : ProvingCredentialKey)
    (credential : SignedCredential P) (credDef : CredentialDefinition cl) :
    IndyResult (Option (RevocationState cl.toClTypes P)) :=
  if credDef.revocation.isSome then do
    let timestamp ← ofOption (errMsg .invalidStructure "Timestamp not found") key.timestamp
    let revRegId ← ofOption (errMsg .invalidStructure "Revocation Registry Id not found")
      credential.revRegId
    let revStatesForTimestamp ← ofOption
      (errMsg .invalidStructure "RevocationState not found by id: _" [revRegId])
      (maps.revStates.lookup revRegId)
    let revState ← ofOption
      (errMsg .invalidStructure "RevocationInfo not found by timestamp: _" [toString timestamp])
      (revStatesForTimestamp.lookup timestamp)
    pure (some revState)
  else pure none

/-- The next index; a signed word of 32 bits. -/
def nextIndex (i : Int) : IndyResult Int :=
  if i + 1 < 2 ^ 31 then .ok (i + 1)
  else if overflowChecks then .panic
  else .ok (i + 1 - 2 ^ 32)

/-- The proof so far. -/
structure ProvingState where
  entries : List (ProvedEntry cl.toClTypes prover.toProverTypes)
  identifiers : List Identifier
  requestedProof : RequestedProof
  subProofIndex : Int

def identifierOf (key : ProvingCredentialKey) (credential : Credential) : Identifier :=
  ⟨credential.schemaId, credential.credDefId, credential.revRegId, key.timestamp⟩

variable {prover}

/-- The body of the prover's loop. -/
def proveCredential (maps : @ProverMaps cl prover.toProverTypes)
    (masterSecret : prover.MasterSecret) (proofReq : ProofRequest cl) (state : ProvingState prover)
    (entry : ProvingCredentialKey × ProvedGroup) : IndyResult (ProvingState prover) := do
  let credential ← ofOption
    (errMsg .invalidStructure "Credential not found by id: _" [entry.1.credId])
    (maps.credentials.lookup entry.1.credId)
  let schema ← ofOption
    (errMsg .invalidStructure "Schema not found by id: _" [credential.schemaId])
    (maps.schemas.lookup credential.schemaId)
  let credDef ← ofOption
    (errMsg .invalidStructure "CredentialDefinition not found by id: _" [credential.credDefId])
    (maps.credDefs.lookup credential.credDefId)
  let revState ← revocationStateFor maps entry.1 credential credDef
  let credentialPubKey ← cl.buildFromParts credDef.primary credDef.revocation
  let credentialValues ← prover.buildCredentialValues
    ((order.order credential.values.toPairs).map
      (fun p => (attrCommonView toLowercase p.1, p.2.encoded)))
    masterSecret
  let proved : ProvedEntry cl.toClTypes prover.toProverTypes := {
    subProofRequest := proverSubProofRequest toLowercase entry.2
    credentialSchema := buildCredentialSchema toLowercase schema.attrNames
    nonCredentialSchema := buildNonCredentialSchema
    credentialSignature := credential.signature
    credentialValues
    credentialPubKey
    revReg := revState.map RevocationState.revReg
    witness := revState.map RevocationState.witness }
  prover.addSubProofRequest proved
  let requestedProof ← updateRequestedProof toLowercase order proofReq credential
    state.subProofIndex
    entry.2 state.requestedProof
  let subProofIndex ← nextIndex overflowChecks state.subProofIndex
  pure ⟨state.entries ++ [proved],
    state.identifiers ++ [identifierOf entry.1 credential.toCredential],
    requestedProof, subProofIndex⟩

/-- Everything that the proof is built from, and what is reported beside it. -/
def proveCredentials (maps : @ProverMaps cl prover.toProverTypes)
    (masterSecret : prover.MasterSecret) (proofReq : ProofRequest cl)
    (requestedCredentials : RequestedCredentials) : IndyResult (ProvingState prover) := do
  let credentialsForProving ← prepareCredentialsForProving requestedCredentials proofReq
  (order.order credentialsForProving.toPairs).foldlM
    (proveCredential toLowercase order overflowChecks maps masterSecret proofReq)
    ⟨[], [], ⟨∅, requestedCredentials.selfAttestedAttributes, ∅, ∅⟩, 0⟩

def createProof (maps : @ProverMaps cl prover.toProverTypes) (masterSecret : prover.MasterSecret)
    (proofReq : ProofRequest cl) (requestedCredentials : RequestedCredentials) :
    IndyResult (Proof cl) := do
  let state ← proveCredentials toLowercase order overflowChecks maps masterSecret proofReq
    requestedCredentials
  let proof ← prover.finalize state.entries proofReq.nonce
  pure ⟨proof, state.requestedProof, state.identifiers⟩

end IndySdk.Anoncreds
