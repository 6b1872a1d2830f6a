import IndySdk.StateProofNode

/-!
# State proofs of replies

A reply names the key and the value that its proof is to show. For the built-in types both are put
together from fields of the reply itself; a registered parser names them for any other type. The
proof is then checked against the signature of the pool and walked from the signed root.
-/

namespace IndySdk.Pool.StateProof

open Constants Bytes

variable (crates : Crates) (world : World)

/-- The marker of a type in the keys of the state, by the version of the protocol. -/
def marker (old new : Char) : String := String.singleton (if world.isNode13 then old else new)

/-- The data of a reply, as text and as value. -/
def parseData (jsonMsg : Json) : Option (Option String × Json) :=
  match jsonMsg.get "data" with
  | .null => some (none, .null)
  | .str s => (crates.valueFromStr s).map (fun parsed => (some s, parsed))
  | .obj map => some (some (crates.toStr (jsonMsg.get "data")), .obj map)
  | _ => none

def keySuffix (type : String) (jsonMsg parsedData : Json) : Option String :=
  if type = getAttr then do
    let attrName ← (jsonMsg.get "raw").asStr <|> (jsonMsg.get "enc").asStr <|>
      (jsonMsg.get "hash").asStr
    some (":" ++ marker world '\x01' '1' ++ ":" ++
      toHex (crates.sha256 (ofText attrName)))
  else if type = getCredDef then do
    let signType ← (jsonMsg.get "signature_type").asStr
    let schSeqNo ← (jsonMsg.get "ref").asU64
    let tag := if world.isNode13 then none else (jsonMsg.get "tag").asStr
    let tag := (tag.map (fun t => ":" ++ t)).getD ""
    some (":" ++ marker world '\x03' '3' ++ ":" ++ signType ++ ":" ++ schSeqNo.repr ++ tag)
  else if type = getNym then some ""
  else if type = getSchema then do
    let name ← (parsedData.get "name").asStr
    let ver ← (parsedData.get "version").asStr
    some (":" ++ marker world '\x02' '2' ++ ":" ++ name ++ ":" ++ ver)
  else if type = getRevocRegDef then do
    let credDefId ← (parsedData.get "credDefId").asStr
    let revocDefType ← (parsedData.get "revocDefType").asStr
    let tag ← (parsedData.get "tag").asStr
    some (":" ++ marker world '\x04' '4' ++ ":" ++ credDefId ++ ":" ++ revocDefType ++ ":" ++ tag)
  else if (type = getRevocReg ∨ type = getRevocRegDelta) ∧
      ((parsedData.get "value").get "accum_from").isNull then do
    let revocRegDefId ← (parsedData.get "revocRegDefId").asStr
    some (marker world '\x05' '5' ++ ":" ++ revocRegDefId)
  else none

/-- The text before the first colon. -/
def beforeColon (s : String) : String := String.ofList (s.toList.takeWhile (fun c => c ≠ ':'))

def keyPrefix (type : String) (jsonMsg : Json) : Option Bytes :=
  let dest := (jsonMsg.get "dest").asStr <|> (jsonMsg.get "origin").asStr
  if type = getNym then dest.map (fun d => crates.sha256 (ofText d))
  else if type = getRevocReg ∨ type = getRevocRegDelta then some []
  else if type = getRevocRegDef then
    (jsonMsg.get "id").asStr.map (fun id => ofText (beforeColon id))
  else dest.map ofText

/-- The object a value of the state is made of, before what the type adds to it. -/
def valueBase (jsonMsg : Json) (xtype : String) : Json :=
  if xtype = getNym then
    ((Json.obj []).put "seqNo" (jsonMsg.get "seqNo")).put "txnTime" (jsonMsg.get "txnTime")
  else ((Json.obj []).put "lsn" (jsonMsg.get "seqNo")).put "lut" (jsonMsg.get "txnTime")

def parseReplyForProofValue (jsonMsg : Json) (data : Option String) (parsedData : Json)
    (xtype : String) : Except String (Option String) :=
  match data with
  | none => .ok none
  | some data =>
    let value := valueBase jsonMsg xtype
    if xtype = getNym then
      .ok (some (crates.toStr (((value.put "identifier" (parsedData.get "identifier")).put "role"
        (parsedData.get "role")).put "verkey" (parsedData.get "verkey"))))
    else if xtype = getAttr then
      .ok (some (crates.toStr
        (value.put "val" (.str (toHex (crates.sha256 (ofText data)))))))
    else if xtype = getCredDef ∨ xtype = getRevocRegDef ∨ xtype = getRevocReg then
      .ok (some (crates.toStr (value.put "val" parsedData)))
    else if xtype = getSchema then
      match parsedData.asObject with
      | none => .error "Invalid data for GET_SCHEMA"
      | some map =>
        let map := (map.filter (fun m => m.1 ≠ "name")).filter (fun m => m.1 ≠ "version")
        if map.isEmpty then .ok none else .ok (some (crates.toStr (value.put "val" (.obj map))))
    else if xtype = getRevocRegDelta then
      .ok (some (crates.toStr (value.put "val" ((parsedData.get "value").get "accum_to"))))
    else .error "Unknown transaction"

def parseReplyForBuiltinSp (jsonMsg : Json) (type : String) : Option (List ParsedSP) := do
  let proof ← ((jsonMsg.get "state_proof").get "proof_nodes").asStr
  let rootHash ← ((jsonMsg.get "state_proof").get "root_hash").asStr
  let (data, parsedData) ← parseData crates jsonMsg
  let suffix ← keySuffix crates world type jsonMsg parsedData
  let front ← keyPrefix crates type jsonMsg
  let key := front ++ ofText suffix
  match parseReplyForProofValue crates jsonMsg data parsedData type with
  | .error _ => none
  | .ok value => some [{
      proofNodes := proof
      rootHash := rootHash
      kvsToVerify := .simple ⟨[(crates.base64Encode key, value)]⟩
      multiSignature := (jsonMsg.get "state_proof").get "multi_signature" }]

def parseGenericReplyForProofChecking (jsonMsg : Json) (rawMsg : String) :
    Option (List ParsedSP) := do
  let type ← (jsonMsg.get "type").asStr
  if type ∈ requestsForStateProofs then parseReplyForBuiltinSp crates world jsonMsg type
  else
    let parser ← world.spParser type
    -- a message with a zero byte is no C string
    if '\x00' ∈ rawMsg.toList then none
    else
      let parsed ← parser rawMsg
      let cStr ← parsed
      let text ← toText cStr
      crates.parsedSpsFromStr text

def parseReplyForProofSignatureChecking (jsonMsg : Json) :
    Option (String × List String × Bytes) := do
  let signature ← (jsonMsg.get "signature").asStr
  let participants ← (jsonMsg.get "participants").asArray
  let value ← crates.toVecNamed (jsonMsg.get "value")
  let participantsUnwrap := participants.filterMap Json.asStr
  if participants.length = participantsUnwrap.length then
    some (signature, participantsUnwrap, value)
  else none

/-- The hash of the encoding of a node. -/
def nodeHash (node : Node) : Bytes := crates.sha3 (crates.rlp.encode node.toItem)

def trieDB (nodes : List Node) : Node.TrieDB :=
  nodes.foldl (fun map node => map.insert (nodeHash crates node) node) ∅

/-- The nodes of a proof; a proof that does not decode has none. -/
def proofNodes (proofsRlp : Bytes) : MayPanic (List Node) :=
  ((crates.rlp.iter proofsRlp).mapM (Node.decode crates.rlp world.stackDepth)).unwrapOr []

def verifyProof (proofsRlp rootHash key : Bytes) (expectedValue : Option String) :
    MayPanic Bool := do
  let nodes ← proofNodes crates world proofsRlp
  let map := trieDB crates nodes
  match map.lookup rootHash with
  | none => pure false
  | some root =>
    ((fun value => decide (value = expectedValue)) <$>
      root.getStrValue crates.rlp map world.stackDepth key).unwrapOr false

/-- The keys of the nodes that took part in a signature, in the order of the map of nodes. -/
def participantKeys (participants : List String) (nodes : Nodes) : IndyResult (List VerKey) :=
  ((world.order.order nodes.toPairs).filter (fun node => node.1 ∈ participants)).mapM
    (fun node => Outcome.ofOption
      (errMsg .invalidState "Blskey not found for node: _" [node.1]) node.2)

def verifyProofSignature (signature : String) (participants : List String) (value : Bytes)
    (nodes : Nodes) (f : ℕ) (gen : Generator) : IndyResult Bool := do
  let verKeys ← participantKeys world participants nodes
  let needed ← Outcome.wordSub 64 world.overflowChecks nodes.keys.length f
  if verKeys.length < needed then pure false
  else
    match (crates.fromBase58 signature).bind crates.multiSignatureFromBytes with
    | none => pure false
    | some signature => pure ((crates.verifyMultiSig signature value verKeys gen).getD false)

def verifyKvs (proofNodes rootHash : Bytes) : List (String × Option String) → MayPanic Bool
  | [] => .ok true
  | (k, v) :: kvs =>
    match crates.base64Decode k with
    | none => .ok false
    | some key => do
      if ← verifyProof crates world proofNodes rootHash key v then
        verifyKvs proofNodes rootHash kvs
      else pure false

/-- One state proof of the loop: its root, its signature, its keys and values. -/
def verifySp (nodes : Nodes) (f : ℕ) (gen : Generator) (sp : ParsedSP) : MayPanic Bool :=
  if ((sp.multiSignature.get "value").get "state_root_hash").asStr ≠ some sp.rootHash then .ok false
  else
    match parseReplyForProofSignatureChecking crates sp.multiSignature with
    | none => .ok false
    | some (signature, participants, value) => do
      if ← (verifyProofSignature crates world signature participants value nodes f gen).unwrapOr
          false then
        match crates.base64Decode sp.proofNodes, crates.fromBase58 sp.rootHash with
        | some proofNodes, some rootHash =>
          match sp.kvsToVerify with
          | .simple data => verifyKvs crates world proofNodes rootHash data.kvs
          | .subTrie _ => pure false
        | _, _ => pure false
      else pure false

def verifyParsedSp (nodes : Nodes) (f : ℕ) (gen : Generator) : List ParsedSP → MayPanic Bool
  | [] => .ok true
  | sp :: sps => do
    if ← verifySp crates world nodes f gen sp then verifyParsedSp nodes f gen sps else pure false

end IndySdk.Pool.StateProof
