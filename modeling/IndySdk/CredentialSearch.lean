import IndySdk.Lockstep
import IndySdk.Numerals
import IndySdk.Paging
import IndySdk.ProofVerifier
import IndySdk.WalletEncryption

/-!
# Searching the credentials for a proof request

The prover can ask for all credentials that fit the items of a request in one call, or open a search
and fetch them in portions. Both query the wallet for each item and pass over the records that do
not satisfy a predicate. The values of a credential are a hash map; each time it is read from its
record they stand in some order.
-/

namespace IndySdk.Anoncreds

open Wallet (WalletRecord)

structure AttributeValues where
  raw : String
  encoded : String
  deriving DecidableEq

structure Credential where
  schemaId : String
  credDefId : String
  revRegId : Option String
  values : AssocMap String AttributeValues
  signatureIndex : Option ℕ

/-- The attributes of a credential are given as a set of entries. -/
structure CredentialInfo where
  referent : String
  attrs : Finset (String × String)
  schemaId : String
  credDefId : String
  revRegId : Option String
  credRevId : Option String
  deriving DecidableEq

deriving instance DecidableEq for NonRevocedInterval

structure RequestedCredential where
  credInfo : CredentialInfo
  interval : Option NonRevocedInterval
  deriving DecidableEq

structure CredentialsForProofRequest where
  attrs : AssocMap String (List RequestedCredential) := ∅
  predicates : AssocMap String (List RequestedCredential) := ∅

abbrev ProofRequestExtraQuery := AssocMap String (List (String × Json))

/-- The credentials of a wallet. A record is the same in every search that finds it. -/
structure CredentialWallet where
  searchIndyRecords : Json → IndyResult (List (IndyResult WalletRecord))
  deserialize : String → IndyResult Credential
  same : ∀ {query query' found found' r r'}, searchIndyRecords query = .ok found →
    searchIndyRecords query' = .ok found' → Outcome.ok r ∈ found → Outcome.ok r' ∈ found' →
      r.id = r'.id → r = r'

section

variable (toLowercase : String → String) {cl : ClCrypto}

/-- Restrictions given as a list are alternatives, and their nulls do not count. -/
def restrictionQueries : Option Json → IndyResult (List Json)
  | none => .ok []
  | some (.arr array) => do
    let res ← array.mapM (fun subQuery => do
      let members ← (Outcome.ofOption (errMsg .invalidStructure "Restriction is invalid")
        subQuery.asObject : IndyResult (List (String × Json)))
      pure (Json.obj (members.filter (fun m => ¬ m.2.isNull))))
    pure (if res.isEmpty then [] else [.obj [("$or", .arr res)]])
  | some (.obj object) => .ok [.obj object]
  | some _ => .err (errMsg .invalidStructure "Restriction is invalid")

def extraQueries (referent : String) (extraQuery : Option ProofRequestExtraQuery) : List Json :=
  match extraQuery.bind (fun exQuery => exQuery.lookup referent) with
  | some q => [.obj q]
  | none => []

def buildQuery (name referent : String) (restrictions : Option Json)
    (extraQuery : Option ProofRequestExtraQuery) : IndyResult Json := do
  let marker := Json.obj [("attr::" ++ attrCommonView toLowercase name ++ "::marker", .str "1")]
  let restrictions ← restrictionQueries restrictions
  pure (.obj [("$and", .arr (marker :: restrictions ++ extraQueries referent extraQuery))])

def getNonRevocInterval (globalInterval localInterval : Option NonRevocedInterval) :
    Option NonRevocedInterval :=
  localInterval <|> globalInterval

def attributeSatisfyPredicate (predicate : PredicateInfo) (attributeValue : String) :
    IndyResult Bool :=
  match predicate.pType with
  | .GE =>
    match Numerals.parseSigned 32 attributeValue with
    | some value => .ok (predicate.pValue ≤ value)
    | none =>
      .err (errMsg .invalidStructure "Credential attribute value _ is invalid" [attributeValue])

/-- The first value, in the order of the map, whose name has the requested spelling. -/
def getCredentialValuesForAttribute (order : IterationOrder)
    (credentialAttrs : AssocMap String AttributeValues) (requestedAttr : String) :
    Option AttributeValues :=
  ((order.order credentialAttrs.toPairs).find? (fun entry =>
    attrCommonView toLowercase entry.1 = attrCommonView toLowercase requestedAttr)).map Prod.snd

def getCredentialInfo (referent : String) (credential : Credential) : CredentialInfo where
  referent := referent
  attrs := (credential.values.toPairs.map (fun entry => (entry.1, entry.2.raw))).toFinset
  schemaId := credential.schemaId
  credDefId := credential.credDefId
  revRegId := credential.revRegId
  credRevId := credential.signatureIndex.map Nat.repr

variable (wallet : CredentialWallet)

def getCredential (record : WalletRecord) : IndyResult (String × Credential) := do
  let value ← Outcome.ofOption
    (errMsg .invalidState "Credential not found for id: _" [record.id]) record.value
  let credential ← toIndy .invalidState "Cannot deserialize Credential" (wallet.deserialize value)
  pure (record.id, credential)

/-- The orders in which the credentials of a wallet are read, by the identifier of the record. -/
abbrev Reading := String → IterationOrder

variable (reading : Reading)

def satisfies (predicateInfo : Option PredicateInfo) (referent : String) (credential : Credential) :
    IndyResult Bool :=
  match predicateInfo with
  | none => .ok true
  | some predicate => do
    let values ← Outcome.ofOption (errMsg .invalidState "Credential values not found")
      (getCredentialValuesForAttribute toLowercase (reading referent) credential.values
        predicate.name)
    attributeSatisfyPredicate predicate values.encoded

/-- What one record of a search yields. -/
def selectRecord (predicateInfo : Option PredicateInfo) (interval : Option NonRevocedInterval)
    (record : IndyResult WalletRecord) : IndyResult (Option RequestedCredential) := do
  let record ← record
  let (referent, credential) ← getCredential wallet record
  let satisfy ← satisfies toLowercase reading predicateInfo referent credential
  pure (if satisfy then some ⟨getCredentialInfo referent credential, interval⟩ else none)

/-- The count that is decremented is a copy: a page ends at its first item when the count is one,
and otherwise with the search. -/
def countReached (maxCount : Option ℕ) (_taken : ℕ) : Bool :=
  match maxCount with
  | some count => count - 1 = 0
  | none => false

def getRequestedCredentials (credentialsSearch : List (IndyResult WalletRecord))
    (predicateInfo : Option PredicateInfo) (interval : Option NonRevocedInterval)
    (maxCount : Option ℕ) :
    IndyResult (List RequestedCredential) × List (IndyResult WalletRecord) :=
  if maxCount = some 0 then (.ok [], credentialsSearch)
  else
    Paging.fetch (selectRecord toLowercase wallet reading predicateInfo interval)
      (countReached maxCount) 0 credentialsSearch

def queryRequestedCredentials (queryJson : Json) (predicateInfo : Option PredicateInfo)
    (interval : Option NonRevocedInterval) : IndyResult (List RequestedCredential) := do
  let credentialsSearch ← wallet.searchIndyRecords queryJson
  (getRequestedCredentials toLowercase wallet reading credentialsSearch predicateInfo interval
    none).1

/-! ### One call -/

/-- Answer each entry of a map under its key. -/
def mapEntries {α β : Type} (f : String → α → IndyResult β) :
    List (String × α) → IndyResult (AssocMap String β)
  | [] => .ok ∅
  | (key, a) :: entries => do
    let b ← f key a
    let rest ← mapEntries f entries
    pure (rest.insert key b)

variable (proofRequest : ProofRequest cl)

def credentialsForAttribute (attrId : String) (requestedAttr : AttributeInfo) :
    IndyResult (List RequestedCredential) := do
  let queryJson ← buildQuery toLowercase requestedAttr.name attrId requestedAttr.restrictions none
  let interval := getNonRevocInterval proofRequest.nonRevoked requestedAttr.nonRevoked
  queryRequestedCredentials toLowercase wallet reading queryJson none interval

def credentialsForPredicate (predicateId : String) (requestedPredicate : PredicateInfo) :
    IndyResult (List RequestedCredential) := do
  let queryJson ←
    buildQuery toLowercase requestedPredicate.name predicateId requestedPredicate.restrictions none
  let interval := getNonRevocInterval proofRequest.nonRevoked requestedPredicate.nonRevoked
  queryRequestedCredentials toLowercase wallet reading queryJson (some requestedPredicate) interval

def getCredentialsForProofReq : IndyResult CredentialsForProofRequest := do
  let attrs ← mapEntries (credentialsForAttribute toLowercase wallet reading proofRequest)
    proofRequest.requestedAttributes.toPairs
  let predicates ← mapEntries (credentialsForPredicate toLowercase wallet reading proofRequest)
    proofRequest.requestedPredicates.toPairs
  pure ⟨attrs, predicates⟩

/-! ### A search -/

structure SearchForProofRequest where
  search : List (IndyResult WalletRecord)
  interval : Option NonRevocedInterval
  predicateInfo : Option PredicateInfo

def searchForAttribute (extraQuery : Option ProofRequestExtraQuery) (attrId : String)
    (requestedAttr : AttributeInfo) : IndyResult SearchForProofRequest := do
  let queryJson ←
    buildQuery toLowercase requestedAttr.name attrId requestedAttr.restrictions extraQuery
  let credentialsSearch ← wallet.searchIndyRecords queryJson
  let interval := getNonRevocInterval proofRequest.nonRevoked requestedAttr.nonRevoked
  pure ⟨credentialsSearch, interval, none⟩

def searchForPredicate (extraQuery : Option ProofRequestExtraQuery) (predicateId : String)
    (requestedPredicate : PredicateInfo) : IndyResult SearchForProofRequest := do
  let queryJson ← buildQuery toLowercase requestedPredicate.name predicateId
    requestedPredicate.restrictions extraQuery
  let credentialsSearch ← wallet.searchIndyRecords queryJson
  let interval := getNonRevocInterval proofRequest.nonRevoked requestedPredicate.nonRevoked
  pure ⟨credentialsSearch, interval, some requestedPredicate⟩

/-- The searches of a request, by referent. -/
abbrev ProofRequestSearch := AssocMap String SearchForProofRequest

/-- The searches of the predicates are inserted after those of the attributes and take their
places. -/
def searchCredentialsForProofReq (extraQuery : Option ProofRequestExtraQuery) :
    IndyResult ProofRequestSearch := do
  let attrs ← mapEntries (searchForAttribute toLowercase wallet proofRequest extraQuery)
    proofRequest.requestedAttributes.toPairs
  let predicates ← mapEntries (searchForPredicate toLowercase wallet proofRequest extraQuery)
    proofRequest.requestedPredicates.toPairs
  pure (predicates ∪ attrs)

def unknownReferent (itemReferent : String) : IndyError :=
  errMsg .invalidWalletHandle "Unknown item referent _ for CredentialsSearch handle: _"
    [itemReferent]

def fetchCredentialForProofRequest (searches : ProofRequestSearch) (itemReferent : String)
    (count : ℕ) : IndyResult (List RequestedCredential) × ProofRequestSearch :=
  match searches.lookup itemReferent with
  | none => (.err (unknownReferent itemReferent), searches)
  | some search =>
    let (requestedCredentials, rest) := getRequestedCredentials toLowercase wallet reading
      search.search search.predicateInfo search.interval (some count)
    (requestedCredentials, searches.insert itemReferent { search with search := rest })

/-- A portion of the given size is fetched for a referent. -/
def fetchMachine :
    Machine ProofRequestSearch (String × ℕ) (IndyResult (List RequestedCredential)) where
  step input searches :=
    fetchCredentialForProofRequest toLowercase wallet reading searches input.1 input.2

end

end IndySdk.Anoncreds
