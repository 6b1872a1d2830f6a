import IndySdk.PoolEvents

/-!
# Libraries and surroundings of the pool code

`Crates` holds the functions of the libraries that the pool code calls. `World` holds what one step
finds around it: the clock, the global settings, the registered parsers and the results of the
functions that read and write the cached ledger.
-/

namespace IndySdk.Pool

open Ledger (MerkleTree Sha256)

inductive RlpPrototype where
  | null
  | data (size : ℕ)
  | list (items : ℕ)
  deriving DecidableEq

/-- What is written out by the RLP encoder. -/
inductive RlpItem where
  | data (bytes : Bytes)
  | list (items : List RlpItem)

/-- Views of RLP bytes; a missing value stands for a decoder error. -/
structure Rlp where
  prototype : Bytes → Option RlpPrototype
  item : Bytes → ℕ → Option Bytes
  asVal : Bytes → Option Bytes
  isEmpty : Bytes → Bool
  iter : Bytes → List Bytes
  encode : RlpItem → Bytes

structure KeyValueSimpleData where
  kvs : List (String × Option String)
  deriving DecidableEq

structure KeyValuesSubTrieData where
  subTriePrefix : Option String
  kvs : List (String × Option String)
  deriving DecidableEq

inductive KeyValuesInSP where
  | simple (data : KeyValueSimpleData)
  | subTrie (data : KeyValuesSubTrieData)
  deriving DecidableEq

structure ParsedSP where
  proofNodes : String
  rootHash : String
  kvsToVerify : KeyValuesInSP
  multiSignature : Json
  deriving DecidableEq

structure Crates where
  sha256 : Sha256
  sha3 : Bytes → Bytes
  rlp : Rlp
  toBase58 : Bytes → String
  fromBase58 : String → Option Bytes
  base64Encode : Bytes → String
  base64Decode : String → Option Bytes
  /-- A text as a tree whose members stand in the order of the text, repeated names included. -/
  fromStr : String → Option Json
  toStr : Json → String
  toVecNamed : Json → Option Bytes
  messageFromStr : String → Option Message
  parsedSpsFromStr : String → Option (List ParsedSP)
  multiSignatureFromBytes : Bytes → Option Bytes
  verifyMultiSig : Bytes → Bytes → List VerKey → Generator → Option Bool

/-- The value of a JSON text. -/
def Crates.valueFromStr (crates : Crates) (s : String) : Option Json :=
  (crates.fromStr s).map Json.toValue

structure World where
  curTime : ℕ
  freshnessThreshold : ℕ
  protocolVersion : ℕ
  /-- The registered parser of a type: it fails, or returns a null pointer or a C string. -/
  spParser : String → Option (String → Option (Option Bytes))
  order : IterationOrder
  overflowChecks : Bool
  /-- The depth of recursion at which the stack of the thread ends. -/
  stackDepth : ℕ
  create : String → IndyResult MerkleTree
  dropCache : String → IndyResult Unit
  createAfterDrop : String → IndyResult MerkleTree
  dumpNewTxns : String → List Bytes → IndyResult Unit
  getNodesAndRemotes : MerkleTree → IndyResult (Nodes × List RemoteNode)

def World.isNode13 (world : World) : Bool := world.protocolVersion = 1

/-- Code that may abort its thread but reports no error. -/
abbrev MayPanic (α : Type*) := Outcome Empty α

/-- Libraries without any functions, to which those that an example calls are added. -/
def Crates.none : Crates where
  sha256 _ := []
  sha3 _ := []
  rlp := ⟨fun _ => Option.none, fun _ _ => Option.none, fun _ => Option.none, fun _ => false,
    fun _ => [], fun _ => []⟩
  toBase58 _ := ""
  fromBase58 _ := Option.none
  base64Encode _ := ""
  base64Decode _ := Option.none
  fromStr _ := Option.none
  toStr _ := ""
  toVecNamed _ := Option.none
  messageFromStr _ := Option.none
  parsedSpsFromStr _ := Option.none
  multiSignatureFromBytes _ := Option.none
  verifyMultiSig _ _ _ _ := Option.none

/-- A step at a point of time, with nothing registered and a cache that cannot be read. -/
def World.at (curTime : ℕ) : World where
  curTime := curTime
  freshnessThreshold := 600
  protocolVersion := 2
  spParser _ := Option.none
  order := .inserted
  overflowChecks := false
  stackDepth := 1000
  create _ := .err (errMsg .ioError "")
  dropCache _ := .err (errMsg .ioError "")
  createAfterDrop _ := .err (errMsg .ioError "")
  dumpNewTxns _ _ := .ok ()
  getNodesAndRemotes _ := .err (errMsg .invalidState "")

end IndySdk.Pool
