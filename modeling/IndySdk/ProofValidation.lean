import IndySdk.CredentialExchange
import IndySdk.Json

/-!
# Validating a received proof

The verifier reads from the proof which schemas, definitions and registries it names, fetches each
from the ledger and hands the four maps to libindy. A map that cannot be built is replaced by an
empty one, and libindy's answer becomes the state of the proof.
-/

namespace IndySdk.Vcx.Verifier

inductive ProofStateType where
  | proofUndefined | proofValidated | proofInvalid
  deriving DecidableEq

structure ProofMessage where
  version : Option String := none
  toDid : Option String := none
  fromDid : Option String := none
  proofRequestId : Option String := none
  libindyProof : String

structure CredInfo where
  schemaId : String
  credDefId : String
  revRegId : Option String
  timestamp : Option ℕ
  deriving DecidableEq

def invalidJson : VcxErrorKind := .other 1016

def invalidProof : VcxErrorKind := .other 1023

def invalidProofCredentialData : VcxErrorKind := .other 1027

def invalidSchema : VcxErrorKind := .other 1031

def invalidRevocationTimestamp : VcxErrorKind := .other 1093

def required {α : Type} (e : VcxError) : Option α → Except VcxError α
  | some a => .ok a
  | none => .error e

theorem required_eq_ok {α : Type} {e : VcxError} {o : Option α} {a : α} :
    required e o = .ok a ↔ o = some a := by
  cases o <;> simp [required]

/-! ### The identifiers of a proof -/

def CredInfo.ofJson (identifier : Json) : Except VcxError CredInfo :=
  match (identifier.get "schema_id").asStr, (identifier.get "cred_def_id").asStr with
  | some schemaId, some credDefId =>
    .ok ⟨schemaId, credDefId, (identifier.get "rev_reg_id").asStr,
      (identifier.get "timestamp").asU64⟩
  | _, _ => .error ⟨invalidProofCredentialData, "Cannot get identifiers", []⟩

/-- `fromStr` reads a JSON text. -/
def ProofMessage.getCredentialInfo (fromStr : String → Option Json) (message : ProofMessage) :
    Except VcxError (List CredInfo) := do
  let credentials ← required ⟨invalidJson, "Cannot deserialize liibndy proof: _", []⟩
    (fromStr message.libindyProof)
  match (credentials.get "identifiers").asArray with
  | some identifiers => identifiers.mapM CredInfo.ofJson
  | none => .ok []

/-! ### The four maps -/

/-- What the ledger answers: ids with JSON texts, and for an entry the time it was made. -/
structure Ledger where
  fromStr : String → Option Json
  getCredDefJson : String → Except VcxError (String × String)
  getSchemaJson : String → Except VcxError (String × String)
  getRevRegDefJson : String → Except VcxError (String × String)
  getRevReg : String → ℕ → Except VcxError (String × String × ℕ)

namespace Ledger

variable (ledger : Ledger)

def credDef (credDefId : String) : Except VcxError (String × Json) := do
  let (id, credentialDef) ← ledger.getCredDefJson credDefId
  let credentialDef ← required
    ⟨invalidProofCredentialData, "Cannot deserialize credential definition: _", []⟩
    (ledger.fromStr credentialDef)
  pure (id, credentialDef)

def schema (schemaId : String) : Except VcxError (String × Json) := do
  let (id, schemaJson) ← (ledger.getSchemaJson schemaId).mapError
    (fun _ => ⟨invalidSchema, "Cannot get schema", []⟩)
  let schemaVal ← required ⟨invalidSchema, "Cannot deserialize schema: _", []⟩
    (ledger.fromStr schemaJson)
  pure (id, schemaVal)

def revRegDef (revRegId : String) : Except VcxError (String × Json) := do
  let (id, json) ← (ledger.getRevRegDefJson revRegId).mapError
    (fun _ => ⟨.invalidRevocationDetails, "", []⟩)
  let revRegDefJson ← required ⟨invalidSchema, "", []⟩ (ledger.fromStr json)
  pure (id, revRegDefJson)

/-- An entry comes with the time that the ledger gives for it, which may be another one than was
asked for. -/
def revReg (revRegId : String) (timestamp : ℕ) : Except VcxError (String × ℕ × Json) := do
  let (id, json, timestamp) ← (ledger.getRevReg revRegId timestamp).mapError
    (fun _ => ⟨.invalidRevocationDetails, "", []⟩)
  let revRegJson ← required ⟨invalidJson, "", []⟩ (ledger.fromStr json)
  pure (id, timestamp, revRegJson)

end Ledger

/-- The members of an object. -/
abbrev Members := List (String × Json)

def timed (answer : String × ℕ × Json) : String × Json :=
  (answer.1, .obj [(toString answer.2.1, answer.2.2)])

/-- The loop of all four maps: `asked` is what an identifier names, or why it names nothing. An id
that the map has already is not fetched again. -/
def buildJson {β : Type} (asked : CredInfo → Except VcxError β) (idOf : β → String)
    (fetch : β → Except VcxError (String × Json)) : Members → List CredInfo →
    Except VcxError Members
  | members, [] => .ok members
  | members, credInfo :: credentialData => do
    let query ← asked credInfo
    if (Json.member? (idOf query) members).isNone then
      let (id, value) ← fetch query
      buildJson asked idOf fetch (Json.putMember id value members) credentialData
    else buildJson asked idOf fetch members credentialData

def CredInfo.registry (credInfo : CredInfo) : Except VcxError String :=
  required ⟨.invalidRevocationDetails, "", []⟩ credInfo.revRegId

def CredInfo.datedRegistry (credInfo : CredInfo) : Except VcxError (String × ℕ) := do
  let revRegId ← credInfo.registry
  let timestamp ← required ⟨invalidRevocationTimestamp, "", []⟩ credInfo.timestamp
  pure (revRegId, timestamp)

section

variable (ledger : Ledger) (credentialData : List CredInfo)

def buildCredentialDefsJson : Except VcxError Members :=
  buildJson (fun credInfo => .ok credInfo.credDefId) id ledger.credDef [] credentialData

def buildSchemasJson : Except VcxError Members :=
  buildJson (fun credInfo => .ok credInfo.schemaId) id ledger.schema [] credentialData

def buildRevRegDefsJson : Except VcxError Members :=
  buildJson CredInfo.registry id ledger.revRegDef [] credentialData

def buildRevRegJson : Except VcxError Members :=
  buildJson CredInfo.datedRegistry Prod.fst
    (fun query => (ledger.revReg query.1 query.2).map timed) [] credentialData

/-- The maps that libindy gets next to the proof and the request. -/
structure VerifierData where
  schemas : Members
  credentialDefs : Members
  revRegDefs : Members
  revRegs : Members

def unwrapOrEmpty : Except VcxError Members → Members
  | .ok members => members
  | .error _ => []

def verifierData : VerifierData where
  credentialDefs := unwrapOrEmpty (buildCredentialDefsJson ledger credentialData)
  schemas := unwrapOrEmpty (buildSchemasJson ledger credentialData)
  revRegDefs := unwrapOrEmpty (buildRevRegDefsJson ledger credentialData)
  revRegs := unwrapOrEmpty (buildRevRegJson ledger credentialData)

end

/-! ### The proof object -/

structure Proof where
  msgUid : String := ""
  proverDid : String := ""
  proverVk : String := ""
  state : VcxStateType
  proofState : ProofStateType := .proofUndefined
  proof : Option ProofMessage := none
  proofRequestData : Option String := none
  remoteDid : String := ""
  agentDid : String := ""
  agentVk : String := ""
  thread : Option Thread := some {}

/-- libindy's verifier, which gets the request, the proof and the maps. -/
abbrev Verify := String → String → VerifierData → Except VcxError Bool

structure Agency where
  Payload : Type
  getRefMsg : String → String → String → String → String → Except VcxError (String × Payload)
  decrypt : String → Payload → Except VcxError (String × Option Thread)
  parseProofPayload : String → Except VcxError ProofMessage

/-- The counter wraps around, as in a build without checks. -/
def incrementReceiver (did : String) (thread : Thread) : Thread :=
  let next := fun order : Option ℕ => order.elim 0 (fun n => (n + 1) % 2 ^ 32)
  { thread with receivedOrders := thread.receivedOrders.update did next }

namespace Proof

variable (ledger : Ledger) (agency : Agency) (verify : Verify) (p : Proof)

def buildProofJson : Except VcxError String :=
  (required ⟨invalidProof, "", []⟩ p.proof).map ProofMessage.libindyProof

def buildProofReqJson : Except VcxError String :=
  required ⟨invalidProof, "", []⟩ p.proofRequestData

def validateProofIndy (proofReqJson proofJson : String) (data : VerifierData) :
    Except VcxError ℕ × Proof :=
  match verify proofReqJson proofJson data with
  | .error _ =>
    (.error ⟨invalidProof, "Proof had invalid format", []⟩,
      { p with proofState := .proofInvalid })
  | .ok false => (.ok 0, { p with proofState := .proofInvalid })
  | .ok true => (.ok 0, { p with proofState := .proofValidated })

def verifierInput : Except VcxError (String × String × VerifierData) := do
  let proofMsg ← required ⟨invalidProof, "", []⟩ p.proof
  let credentialData ← proofMsg.getCredentialInfo ledger.fromStr
  let data := verifierData ledger credentialData
  let proofJson ← p.buildProofJson
  let proofReqJson ← p.buildProofReqJson
  pure (proofReqJson, proofJson, data)

def proofValidation : Except VcxError ℕ × Proof :=
  match p.verifierInput ledger with
  | .error e => (.error e, p)
  | .ok (proofReqJson, proofJson, data) => p.validateProofIndy verify proofReqJson proofJson data

def fetchPayload : Except VcxError (String × Option Thread) := do
  let (_, payload) ← agency.getRefMsg p.msgUid p.proverDid p.proverVk p.agentDid p.agentVk
  agency.decrypt p.proverVk payload

/-- The proof arrived and is kept, whatever comes of it. -/
def accept (message : ProofMessage) (thread : Option Thread) : Proof :=
  { p with
    proof := some message
    thread := if thread.isSome then p.thread.map (incrementReceiver p.remoteDid) else p.thread
    state := .accepted }

def conclude : Except VcxError ℕ × Proof → Proof
  | (.ok _, p) =>
    if p.proofState ≠ .proofInvalid then { p with proofState := .proofValidated } else p
  | (.error _, p) => { p with state := .requestReceived, proofState := .proofInvalid }

def getProofRequestStatus : Except VcxError ℕ × Proof :=
  if p.state = .accepted then (.ok p.state.code, p)
  else if p.state ≠ .offerSent ∨ p.msgUid = "" ∨ p.proverDid = "" then (.ok p.state.code, p)
  else
    match p.fetchPayload agency with
    | .error e => (.error e, p)
    | .ok (payload, thread) =>
      match agency.parseProofPayload payload with
      | .error _ => (.ok p.state.code, p)
      | .ok message =>
        let p := conclude ((p.accept message thread).proofValidation ledger verify)
        (.ok p.state.code, p)

end Proof

end IndySdk.Vcx.Verifier
