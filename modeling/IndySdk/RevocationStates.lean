import IndySdk.ProofValidation

/-!
# The revocation states of a proof

For each selected credential that can be revoked the prover needs the state of its registry at a
time in the credential's interval. The states are kept in the wallet from one proof to the next,
one for each registry, and one state serves all credentials of a registry.
-/

namespace IndySdk.Vcx.Prover

open Verifier (required Members invalidJson invalidProofCredentialData)

structure NonRevokedInterval where
  fromTime : Option ℕ
  toTime : Option ℕ
  deriving DecidableEq

structure AttrInfo where
  nonRevoked : Option NonRevokedInterval

structure PredicateInfo where
  nonRevoked : Option NonRevokedInterval

structure ProofRequestData where
  requestedAttributes : AssocMap String AttrInfo
  requestedPredicates : AssocMap String PredicateInfo
  nonRevoked : Option NonRevokedInterval

structure CredInfo where
  requestedAttr : String
  referent : String
  schemaId : String
  credDefId : String
  revRegId : Option String
  credRevId : Option String
  revocationInterval : Option NonRevokedInterval
  tailsFile : Option String
  timestamp : Option ℕ
  deriving DecidableEq

/-! ### The selected credentials -/

def getRevocationInterval (attrName : String) (proofReq : ProofRequestData) :
    Except VcxError (Option NonRevokedInterval) :=
  match proofReq.requestedAttributes.lookup attrName with
  | some attr => .ok (attr.nonRevoked.or proofReq.nonRevoked)
  | none =>
    match proofReq.requestedPredicates.lookup attrName with
    | some attr => .ok (attr.nonRevoked.or proofReq.nonRevoked)
    | none => .error ⟨invalidProofCredentialData, "Attribute not found for: _", [attrName]⟩

def credInfoOf (proofReq : ProofRequestData) (selected : String × Json) :
    Except VcxError CredInfo :=
  let credInfo := (selected.2.get "credential").get "cred_info"
  match (credInfo.get "referent").asStr, (credInfo.get "schema_id").asStr,
      (credInfo.get "cred_def_id").asStr with
  | some referent, some schemaId, some credDefId => do
    let revocationInterval ← getRevocationInterval selected.1 proofReq
    pure {
      requestedAttr := selected.1, referent, schemaId, credDefId, revocationInterval
      timestamp := none
      revRegId := (credInfo.get "rev_reg_id").asStr
      credRevId := (credInfo.get "cred_rev_id").asStr
      tailsFile := (selected.2.get "tails_file").asStr }
  | _, _, _ => .error ⟨invalidProofCredentialData, "Cannot get identifiers", []⟩

def credentialDefIdentifiers (fromStr : String → Option Json) (credentials : String)
    (proofReq : ProofRequestData) : Except VcxError (List CredInfo) := do
  let credentials ← required ⟨invalidJson, "Cannot deserialize credentials: _", []⟩
    (fromStr credentials)
  match (credentials.get "attrs").asObject with
  | some attrs => attrs.mapM (credInfoOf proofReq)
  | none => .ok []

/-! ### One registry -/

structure RevState where
  timestamp : ℕ
  value : String
  deriving DecidableEq

/-- The record of each registry that can be read from the wallet. -/
abbrev Cache := AssocMap String RevState

/-- The ledger, the wallet and libindy during one call. `now` is the clock when a registry is
handled, and `saves` says whether the wallet takes its record. -/
structure World where
  now : String → ℕ
  saves : String → Bool
  fromStr : String → Option Json
  getRevRegDefJson : String → Except VcxError (String × String)
  getRevRegDelta : String → ℤ → ℤ → Except VcxError (String × String × ℕ)
  createRevocationState : (revRegDef delta credRevId tailsFile : String) → Except VcxError String
  updateRevocationState : (revRegDef state delta credRevId tailsFile : String) →
    Except VcxError String

def asI64 (n : ℕ) : ℤ := (n : ℤ).bmod (2 ^ 64)

def World.getRevRegDeltaJson (world : World) (revRegId : String) (fromTime toTime : Option ℕ) :
    Except VcxError (String × String × ℕ) :=
  world.getRevRegDelta revRegId (fromTime.elim (-1) asI64)
    (toTime.elim (world.now revRegId) asI64)

/-- Errors of the wallet are ignored. -/
def setRevRegCache (world : World) (cache : Cache) : Option (String × RevState) → Cache
  | some (revRegId, state) => if world.saves revRegId then cache.insert revRegId state else cache
  | none => cache

/-- A state with its time, and what is to be kept of it. -/
structure Answer where
  state : String
  timestamp : ℕ
  saved : Option (String × RevState)

section

variable (world : World) (revRegId credRevId tailsFile : String)
  (interval : Option NonRevokedInterval)

def startOf (interval : Option NonRevokedInterval) : Option ℕ :=
  interval.bind NonRevokedInterval.fromTime

def endOf (interval : Option NonRevokedInterval) : Option ℕ :=
  interval.bind NonRevokedInterval.toTime

/-- The cached state is as good as one from the interval. -/
def Serves (cached : RevState) : Prop :=
  (startOf interval).getD 0 ≤ cached.timestamp ∧
    cached.timestamp ≤ (endOf interval).getD (world.now revRegId)

instance (cached : RevState) : Decidable (Serves world revRegId interval cached) :=
  inferInstanceAs (Decidable (_ ∧ _))

/-- The time from which the delta is fetched: that of the cached state, or none for a delta from
the beginning, also where the cached state is later than the interval. -/
def deltaStart (cached : RevState) : Option ℕ :=
  match startOf interval with
  | some start => if cached.timestamp ≤ start then some cached.timestamp else none
  | none => none

def updateState (cached : RevState) : Except VcxError Answer := do
  let (_, revRegDefJson) ← world.getRevRegDefJson revRegId
  let (revRegId, revRegDeltaJson, timestamp) ← world.getRevRegDeltaJson revRegId
    (deltaStart interval cached) (endOf interval)
  let revStateJson ← world.updateRevocationState revRegDefJson cached.value revRegDeltaJson
    credRevId tailsFile
  pure {
    state := revStateJson, timestamp
    saved := if cached.timestamp < timestamp then
      some (revRegId, ⟨timestamp, revStateJson⟩) else none }

def createState : Except VcxError Answer := do
  let (_, revRegDefJson) ← world.getRevRegDefJson revRegId
  let (revRegId, revRegDeltaJson, timestamp) ← world.getRevRegDeltaJson revRegId none
    (endOf interval)
  let revStateJson ← world.createRevocationState revRegDefJson revRegDeltaJson credRevId tailsFile
  pure ⟨revStateJson, timestamp, some (revRegId, ⟨timestamp, revStateJson⟩)⟩

def revState (cached : Option RevState) : Except VcxError Answer :=
  match cached with
  | some cached =>
    if Serves world revRegId interval cached then .ok ⟨cached.value, cached.timestamp, none⟩
    else updateState world revRegId credRevId tailsFile interval cached
  | none => createState world revRegId credRevId tailsFile interval

end

/-! ### All credentials -/

/-- The registry, the number in it and the tails of a credential that can be revoked. -/
def CredInfo.revocable (credInfo : CredInfo) : Option (String × String × String) :=
  match credInfo.revRegId, credInfo.credRevId, credInfo.tailsFile with
  | some revRegId, some credRevId, some tailsFile => some (revRegId, credRevId, tailsFile)
  | _, _, _ => none

structure Progress where
  rtn : Members := []
  timestamps : AssocMap String ℕ := ∅
  cache : Cache

def Progress.record (s : Progress) (world : World) (revRegId : String) (answer : Answer)
    (value : Json) : Progress where
  rtn := Json.putMember revRegId (.obj [(toString answer.timestamp, value)]) s.rtn
  timestamps := s.timestamps.insert revRegId answer.timestamp
  cache := setRevRegCache world s.cache answer.saved

/-- The answer of a call: the credentials with their times, and the states. -/
abbrev Built := Except VcxError (List CredInfo × Members) × Cache

def Built.cons (credInfo : CredInfo) (built : Built) : Built :=
  (built.1.map (fun r => (credInfo :: r.1, r.2)), built.2)

def buildRevStates (world : World) : Progress → List CredInfo → Built
  | s, [] => (.ok ([], s.rtn), s.cache)
  | s, credInfo :: rest =>
    match credInfo.revocable with
    | none => (buildRevStates world s rest).cons credInfo
    | some (revRegId, credRevId, tailsFile) =>
      if (Json.member? revRegId s.rtn).isNone then
        match revState world revRegId credRevId tailsFile credInfo.revocationInterval
            (s.cache.lookup revRegId) with
        | .error e => (.error e, s.cache)
        | .ok answer =>
          match world.fromStr answer.state with
          | none =>
            (.error ⟨invalidJson, "Cannot deserialize RevocationState: _", []⟩,
              setRevRegCache world s.cache answer.saved)
          | some value =>
            (buildRevStates world (s.record world revRegId answer value) rest).cons
              { credInfo with timestamp := some answer.timestamp }
      else
        (buildRevStates world s rest).cons
          { credInfo with timestamp := credInfo.timestamp.or (s.timestamps.lookup revRegId) }

def buildRevStatesJson (world : World) (cache : Cache) (credentialsIdentifiers : List CredInfo) :
    Built :=
  buildRevStates world { cache } credentialsIdentifiers

end IndySdk.Vcx.Prover
