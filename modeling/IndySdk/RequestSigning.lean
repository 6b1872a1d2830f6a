import IndySdk.MyDids
import IndySdk.SignatureSerializer

/-!
# Signing a request

A request is read from its text, serialised without its signatures, and signed with the key of the
submitter's DID. One signature is a member of its own; several stand in an object by the DIDs of
their submitters.
-/

namespace IndySdk.RequestSigning

open Crypto MyDids
open DidResolution (Did)

/-- The libraries behind the signing of requests. -/
structure SignCrates extends PackCrates where
  sha256 : Bytes → Bytes
  signDetached : Bytes → SignSecretKey → SizedBytes 64
  verifyDetached : SizedBytes 64 → Bytes → SignPublicKey → Bool

inductive SignatureType where
  | single
  | multi
  deriving DecidableEq

variable (crates : SignCrates)

/-! ### The crypto service -/

def sign (myKey : Key) (doc : Bytes) : IndyResult Bytes := do
  let cryptoTypeName := (splitKey myKey.verkey).2.getD defaultCryptoType
  knownCryptoType "Trying to sign message with unknown crypto: _" cryptoTypeName
  let mySk ← secretKey crates.toPackCrates myKey.signkey
  pure (crates.signDetached doc mySk).bytes

def verify (theirVk : String) (msg signature : Bytes) : IndyResult Bool := do
  let (theirVk, cryptoType) := splitKey theirVk
  knownCryptoType "Trying to verify message with unknown crypto: _"
    (cryptoType.getD defaultCryptoType)
  let theirVk ← publicKey crates.toPackCrates theirVk
  let signature ← fromSlice "Signature" 64 signature
  pure (crates.verifyDetached signature msg theirVk)

/-! ### The ledger command -/

/-- The object of the signatures is made where there is none; what stands in its place is taken for
an object without a check. -/
def insertSignature (submitterDid signature : String) (request : List (String × Json)) :
    IndyResult Json := do
  let request := if (Json.member? "signatures" request).isSome then request
    else Json.putMember "signatures" (.obj []) request
  let signatures ← Outcome.unwrap ((Json.obj request).get "signatures").asObject
  pure (.obj (Json.putMember "signatures"
    (.obj (Json.putMember submitterDid (.str signature) signatures)) request))

/-- The text of a value never fails to be written. -/
def signRequest (wallet : WalletRecords) (submitterDid requestJson : String)
    (signatureType : SignatureType) : IndyResult String := do
  let myDid : Did ← getIndyObject submitterDid wallet
  let myKey : Key ← getIndyObject myDid.verkey wallet
  let request ← Outcome.ofOption (errMsg .invalidStructure "Message is invalid json")
    (crates.fromStr requestJson)
  match request with
  | .obj members => do
    let serializedRequest ← serializeSignature crates.sha256 request
    let signature ← sign crates myKey (Bytes.ofText serializedRequest)
    let signature := encode crates.codec.base58 signature
    let request ← (match signatureType with
      | .single => pure (request.put "signature" (.str signature))
      | .multi => insertSignature submitterDid signature members)
    pure request.text
  | _ => .err (errMsg .invalidStructure "Message isn't json object")

/-- A submitter and the way it signs. -/
abbrev Signing := SignatureType × String

/-- The request is signed once after the other. -/
def signAll (wallet : WalletRecords) : List Signing → String → IndyResult String
  | [], requestJson => .ok requestJson
  | signing :: signings, requestJson => do
    let requestJson ← signRequest crates wallet signing.2 requestJson signing.1
    signAll wallet signings requestJson

end IndySdk.RequestSigning
