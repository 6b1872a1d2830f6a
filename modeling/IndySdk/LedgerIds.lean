import IndySdk.CryptoService
import IndySdk.Delimited
import IndySdk.Json
import IndySdk.Numerals
import Mathlib.Data.Finset.Card

/-!
# Identifiers of schemas and credential definitions

An identifier is its components joined by colons, none of them escaped. Ledger requests and
credentials find the components again by their position between colons.
-/

namespace IndySdk.LedgerIds

def delimiter : Char := ':'
def schemaMarker : String := "2"
def credDefMarker : String := "3"
def maxAttributesCount : ℕ := 125
def clSignatureType : String := "CL"

def getSchema : String := "107"
def getCredDef : String := "108"
def defaultLibindyDid : String := "LibindyDid111111111111"

inductive SignatureType where
  | cl
  deriving DecidableEq

def SignatureType.toStr : SignatureType → String
  | .cl => clSignatureType

structure SchemaV1 where
  id : String
  name : String
  version : String
  attrNames : Finset String
  seqNo : Option ℕ
  deriving DecidableEq

structure CredentialDefinitionConfig where
  supportRevocation : Bool := false
  deriving DecidableEq

def isNode13 (protocolVersion : ℕ) : Bool := protocolVersion = 1

def schemaId (did name version : String) : String :=
  did ++ delimiter.toString ++ schemaMarker ++ delimiter.toString ++ name ++ delimiter.toString ++
    version

/-- Nodes of version 1.3 know no tags, and the identifier for them has none. -/
def credDefId (protocolVersion : ℕ) (did schemaId signatureType tag : String) : String :=
  if isNode13 protocolVersion then
    did ++ delimiter.toString ++ credDefMarker ++ delimiter.toString ++ signatureType ++
      delimiter.toString ++ schemaId
  else
    did ++ delimiter.toString ++ credDefMarker ++ delimiter.toString ++ signatureType ++
      delimiter.toString ++ schemaId ++ delimiter.toString ++ tag

/-- The libraries that an issuer command calls. -/
structure IssuerCrates where
  base58 : Crypto.Base58
  fromStr : String → Option Json

def createSchema (crates : IssuerCrates) (issuerDid name version : String)
    (attrs : Finset String) : IndyResult (String × SchemaV1) := do
  Crypto.validateDid crates.base58 issuerDid
  if attrs.card > maxAttributesCount then
    .err (errMsg .invalidStructure "The number of Schema attributes _ cannot be greater than _"
      [toString attrs.card, toString maxAttributesCount])
  else
    let schemaId := schemaId issuerDid name version
    .ok (schemaId, ⟨schemaId, name, version, attrs, none⟩)

def SignatureType.ofJson : Json → Option SignatureType
  | .str "CL" => some .cl
  | _ => none

def parseSignatureType (crates : IssuerCrates) (type_ : String) : IndyResult SignatureType :=
  Outcome.ofOption (errMsg .invalidStructure "Invalid Signature Type format")
    ((crates.fromStr ("\x22" ++ type_ ++ "\x22")).bind SignatureType.ofJson)

def chosenSignatureType (crates : IssuerCrates) : Option String → IndyResult SignatureType
  | some type_ => parseSignatureType crates type_
  | none => .ok .cl

/-- The number of the schema's transaction, or the identifier of a schema without one. -/
def schemaRef (schema : SchemaV1) : String :=
  match schema.seqNo with
  | some n => toString n
  | none => schema.id

def prepareCreateAndStoreCredentialDefinition (crates : IssuerCrates) (protocolVersion : ℕ)
    (recordExists : String → IndyResult Bool) (issuerDid : String) (schema : SchemaV1)
    (tag : String) (type_ : Option String) (config : Option CredentialDefinitionConfig) :
    IndyResult (CredentialDefinitionConfig × String × String × SignatureType) := do
  Crypto.validateDid crates.base58 issuerDid
  let credDefConfig := config.getD {}
  let signatureType ← chosenSignatureType crates type_
  let schemaId := schemaRef schema
  let credDefId := credDefId protocolVersion issuerDid schemaId signatureType.toStr tag
  if ← recordExists credDefId then
    .err (errMsg .credDefAlreadyExists "CredentialDefinition for cred_def_id: _ already exists"
      [credDefId])
  else
    .ok (credDefConfig, schemaId, credDefId, signatureType)

/-! ### Reading the components back -/

structure Request (α : Type) where
  reqId : ℕ
  identifier : String
  operation : α
  protocolVersion : ℕ
  signature : Option String
  deriving DecidableEq

def buildRequest {α : Type} (reqId protocolVersion : ℕ) (identifier : Option String)
    (operation : α) : Request α :=
  ⟨reqId, identifier.getD defaultLibindyDid, operation, protocolVersion, none⟩

structure GetSchemaOperationData where
  name : String
  version : String
  deriving DecidableEq

structure GetSchemaOperation where
  type_ : String
  dest : String
  data : GetSchemaOperationData
  deriving DecidableEq

structure GetCredDefOperation where
  type_ : String
  ref_ : ℤ
  signatureType : String
  origin : String
  tag : Option String
  deriving DecidableEq

def splitParts (id : String) : List String :=
  (Delimited.splitTerminator delimiter id.toList).map String.ofList

def part (id msg : String) (i : ℕ) : IndyResult String :=
  Outcome.ofOption (errMsg .invalidStructure msg [id]) (splitParts id)[i]?

def buildGetSchemaRequest (reqId protocolVersion : ℕ) (identifier : Option String)
    (id : String) : IndyResult (Request GetSchemaOperation) := do
  let dest ← part id "Schema issuer DID not found in: _" 0
  let name ← part id "Schema name not found in: _" 2
  let version ← part id "Schema version not found in: _" 3
  .ok (buildRequest reqId protocolVersion identifier ⟨getSchema, dest, ⟨name, version⟩⟩)

def buildGetCredDefRequest (reqId protocolVersion : ℕ) (identifier : Option String)
    (id : String) : IndyResult (Request GetCredDefOperation) := do
  let origin ← part id "Origin not found in: _" 0
  let refPart ← part id "Schema ID not found in: _" 3
  let ref_ ← Outcome.ofOption (errMsg .invalidStructure "Schema ID is invalid number in: _" [id])
    (Numerals.parseSigned 32 refPart)
  let signatureType ← part id "Signature type not found in: _" 2
  let tag := (splitParts id)[4]?
  .ok (buildRequest reqId protocolVersion identifier ⟨getCredDef, ref_, signatureType, origin, tag⟩)

structure Credential where
  schemaId : String
  credDefId : String
  deriving DecidableEq

namespace Credential

def schemaParts (credential : Credential) : List String := splitParts credential.schemaId

def schemaIssuerDid (credential : Credential) : String := (credential.schemaParts[0]?).getD ""

def schemaName (credential : Credential) : String := (credential.schemaParts[2]?).getD ""

def schemaVersion (credential : Credential) : String := (credential.schemaParts[3]?).getD ""

/-- An identifier without any part aborts the thread. -/
def issuerDid (credential : Credential) : IndyResult String :=
  Outcome.unwrap (splitParts credential.credDefId)[0]?

end Credential

end IndySdk.LedgerIds
