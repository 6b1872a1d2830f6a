import IndySdk.Catchup
import IndySdk.ResponseMetadata
import IndySdk.StateProof

/-!
# The state machine of one request

A request waits for one of several kinds of agreement: of one node that proves its answer, of more
than `f` nodes, of all nodes, or of the nodes on the target of a catch-up. A step yields what it
sends to the networker and to the command executor, and the event it raises for the pool.
-/

namespace IndySdk.Pool

open Ledger (MerkleTree)

structure NodeResponse where
  rawMsg : String
  nodeAlias : String
  timestamp : ℕ

/-- The responses of one bucket. Responses are equal when their nodes are, so there is one for
each node. -/
abbrev NodeResponses := AssocMap String NodeResponse

/-- A set keeps the element it has when an equal one is inserted. -/
def NodeResponses.insertNew (set : NodeResponses) (resp : NodeResponse) : NodeResponses :=
  if (set.lookup resp.nodeAlias).isSome then set else AList.insert resp.nodeAlias resp set

structure ConsensusState where
  deniedNodes : Finset String
  replies : AssocMap Json (Finset String)
  timeoutNodes : Finset String

structure CatchupConsensusState where
  replies : LedgerVotes
  merkleTree : MerkleTree

structure CatchupSingleState where
  targetMtRoot : Bytes
  targetMtSize : ℕ
  merkleTree : MerkleTree
  reqId : String

structure SingleState where
  deniedNodes : Finset String
  replies : AssocMap Json NodeResponses
  timeoutNodes : Finset String

structure FullState where
  accumReply : Option Json
  nodesToSend : Option (List String)

inductive RequestState where
  | start
  | single (state : SingleState)
  | consensus (state : ConsensusState)
  | catchupSingle (state : CatchupSingleState)
  | catchupConsensus (state : CatchupConsensusState)
  | full (state : FullState)
  | finish

structure RequestSM where
  f : ℕ
  cmdIds : List ℤ
  nodes : Nodes
  generator : Generator
  poolName : String
  timeout : ℤ
  extendedTimeout : ℤ
  state : RequestState

/-- What a step sends and raises. -/
structure Output where
  networker : List NetworkerEvent := []
  commands : List Command := []
  poolEvent : Option PoolEvent := none
  deriving DecidableEq

def defaultGenerator : String :=
  "3LHpUjiyFC2q2hD7MnwwNmVXiuaFbQx2XkAFJWzswCjgN1utjsCeLzHsKk1nJvFEaS4fcrUmVAkdhtPCYbrVyATZcmzwJRe" ++
  "TcJqwqBCPTmTQ9uWPwz6rEncKb2pYYYFcdHa8N17HzVyTqKfgPi4X9pMetfT3A5xCHq54R2pDNYWVLDX"

variable (crates : Crates) (world : World)

def RequestSM.new (f : ℕ) (cmdIds : List ℤ) (nodes : Nodes) (generator : Option Generator)
    (poolName : String) (timeout extendedTimeout : ℤ) : MayPanic RequestSM := do
  let fallback ← Outcome.unwrap (crates.fromBase58 defaultGenerator)
  pure ⟨f, cmdIds, nodes, generator.getD fallback, poolName, timeout, extendedTimeout, .start⟩

def sendReplies (cmdIds : List ℤ) (msg : Except IndyError String) : List Command :=
  cmdIds.map (fun id => .submitAck id msg)

def sendOkReplies (cmdIds : List ℤ) (msg : String) : List Command := sendReplies cmdIds (.ok msg)

def finishRequest (cmdIds : List ℤ) : List Command :=
  sendReplies cmdIds (.error (errMsg .poolTerminated "Pool is terminated"))

def consensusImpossible (cmdIds : List ℤ) : List Command :=
  sendReplies cmdIds (.error (errMsg .poolTimeout "Consensus is impossible"))

/-- The result of a message, and the result without what differs from node to node. -/
def getMsgResultWithoutStateProof (msg : String) : IndyResult (Json × Json) := do
  let msg ← Outcome.ofOption (errMsg .invalidStructure "Response is malformed json")
    (crates.valueFromStr msg)
  let msgResult := msg.get "result"
  let withoutProof := msgResult.remove "state_proof"
  if (withoutProof.get "data").isObject then
    pure (msgResult, withoutProof.modify "data" (fun data => data.remove "stateProofFrom"))
  else pure (msgResult, withoutProof)

def checkStateProof (msgResult : Json) (f : ℕ) (gen : Generator) (blsKeys : Nodes)
    (rawMsg : String) : MayPanic Bool :=
  match StateProof.parseGenericReplyForProofChecking crates world msgResult rawMsg with
  | some parsedSps => StateProof.verifyParsedSp crates world blsKeys f gen parsedSps
  | none => .ok false

/-- The message of a node as the text sent to all nodes. -/
def ledgerStatusJson (ls : LedgerStatus) : String :=
  crates.toStr (.obj ([("op", .str "LEDGER_STATUS"), ("txnSeqNo", .int ls.txnSeqNo),
    ("merkleRoot", .str ls.merkleRoot), ("ledgerId", .int ls.ledgerId),
    ("ppSeqNo", (ls.ppSeqNo.map (fun n => Json.int n)).getD .null),
    ("viewNo", (ls.viewNo.map (fun n => Json.int n)).getD .null)] ++
    (ls.protocolVersion.map (fun n => ("protocolVersion", Json.int n))).toList))

/-- A text as a list of texts. -/
def stringsFromStr (s : String) : Option (List String) :=
  (crates.fromStr s).bind (fun j => j.asArray.bind (fun elements => elements.mapM Json.asStr))

namespace ConsensusState

def isConsensusReachable (state : ConsensusState) (f totalNodesCnt : ℕ) : MayPanic Bool := do
  let repNo := (state.replies.values.map Finset.card).sum
  let maxNo := (state.replies.values.map Finset.card).max?.getD 0
  let reachable ← Outcome.wordAdd 64 world.overflowChecks maxNo totalNodesCnt
  let reachable ← Outcome.wordSub 64 world.overflowChecks reachable repNo
  let reachable ← Outcome.wordSub 64 world.overflowChecks reachable state.timeoutNodes.card
  let reachable ← Outcome.wordSub 64 world.overflowChecks reachable state.deniedNodes.card
  pure (decide (f < reachable))

end ConsensusState

namespace SingleState

def isConsensusReachable (state : SingleState) (totalNodesCnt : ℕ) : Bool :=
  state.timeoutNodes.card + state.deniedNodes.card +
    (state.replies.values.map (fun set => set.keys.length)).sum < totalNodesCnt

def tryToContinue (state : SingleState) (reqId nodeAlias : String) (cmdIds : List ℤ)
    (nodesCnt : ℕ) (timeout : ℤ) : RequestState × Output :=
  if state.isConsensusReachable nodesCnt then
    (.single state,
      { networker := [.resend reqId timeout, .resend reqId timeout,
          .cleanTimeout reqId (some nodeAlias)] })
  else
    (.finish, { commands := consensusImpossible cmdIds, networker := [.cleanTimeout reqId none] })

end SingleState

namespace RequestSM

variable (sm : RequestSM)

/-- The answer to a request for all nodes, or for the nodes of a list. -/
def startFull (msg reqId : String) (localTimeout : Option ℤ) (nodesToSend : Option String) :
    RequestState × Output :=
  let timeout := localTimeout.getD sm.extendedTimeout
  match nodesToSend with
  | none =>
    (.full ⟨none, none⟩, { networker := [.sendAllRequest msg reqId timeout none] })
  | some nodesToSend =>
    match stringsFromStr crates nodesToSend with
    | some nodesToSend =>
      if nodesToSend ≠ [] ∧ ∀ node ∈ nodesToSend, node ∈ sm.nodes then
        (.full ⟨none, some nodesToSend⟩,
          { networker := [.sendAllRequest msg reqId timeout (some nodesToSend)] })
      else
        (.finish, { commands := sendReplies sm.cmdIds (.error (errMsg .invalidStructure
          "There is no known node in list to send _, known nodes are _"
          (nodesToSend ++ sm.nodes.keys))) })
    | none =>
      (.finish, { commands := sendReplies sm.cmdIds (.error (errMsg .invalidStructure
        "Invalid list of nodes to send")) })

def startStep : RequestEvent → MayPanic (RequestState × Output)
  | .ledgerStatus ls _ (some merkle) =>
    .ok (.catchupConsensus ⟨∅, merkle⟩, { networker :=
      [.sendAllRequest (ledgerStatusJson crates ls) ls.merkleRoot sm.extendedTimeout none] })
  | .catchupReq merkle targetMtSize targetMtRoot =>
    match buildCatchupReq crates world merkle targetMtSize with
    | .ok (some (reqId, reqJson)) =>
      .ok (.catchupSingle ⟨targetMtRoot, targetMtSize, merkle, reqId⟩,
        { networker := [.sendOneRequest reqJson reqId sm.timeout] })
    | .ok none => .ok (.finish, { poolEvent := some (.synced merkle) })
    | .err e => .ok (.finish, { commands := sendReplies sm.cmdIds (.error e) })
    | .panic => .panic
  | .customSingleRequest msg reqId =>
    .ok (.single ⟨∅, ∅, ∅⟩,
      { networker := [.sendOneRequest msg reqId sm.timeout, .resend reqId sm.timeout] })
  | .customFullRequest msg reqId localTimeout nodesToSend =>
    .ok (sm.startFull crates msg reqId localTimeout nodesToSend)
  | .customConsensusRequest msg reqId =>
    .ok (.consensus ⟨∅, ∅, ∅⟩, { networker := [.sendAllRequest msg reqId sm.timeout none] })
  | _ => .ok (.start, {})

/-- Terminating acknowledges the commands of the request. -/
def terminateRequest : RequestState × Output :=
  (.finish, { commands := finishRequest sm.cmdIds })

/-- A vote on the result of a message, for agreement of more than `f` nodes. -/
def consensusReply (state : ConsensusState) (rawMsg nodeAlias reqId : String) :
    MayPanic (RequestState × Output) :=
  match getMsgResultWithoutStateProof crates rawMsg with
  | .ok (_, resultWithoutProof) => do
    let set := insert nodeAlias ((state.replies.lookup resultWithoutProof).getD ∅)
    let state := { state with replies := state.replies.insert resultWithoutProof set }
    if sm.f < set.card then
      pure (.finish, { commands := sendOkReplies sm.cmdIds rawMsg
                       networker := [.cleanTimeout reqId none] })
    else if ← state.isConsensusReachable world sm.f sm.nodes.keys.length then
      pure (.consensus state, { networker := [.cleanTimeout reqId (some nodeAlias)] })
    else
      pure (.finish, { commands := consensusImpossible sm.cmdIds
                       networker := [.cleanTimeout reqId none] })
  | .err _ =>
    let state := { state with deniedNodes := insert nodeAlias state.deniedNodes }
    if state.deniedNodes.card + state.replies.keys.length = sm.nodes.keys.length then
      .ok (.finish, { commands := consensusImpossible sm.cmdIds })
    else .ok (.consensus state, {})
  | .panic => .panic

def consensusTimeout (state : ConsensusState) (reqId nodeAlias : String) :
    MayPanic (RequestState × Output) := do
  let state := { state with timeoutNodes := insert nodeAlias state.timeoutNodes }
  if ← state.isConsensusReachable world sm.f sm.nodes.keys.length then
    pure (.consensus state, { networker := [.cleanTimeout reqId (some nodeAlias)] })
  else
    pure (.finish, { commands := consensusImpossible sm.cmdIds
                     networker := [.cleanTimeout reqId none] })

def consensusStep (state : ConsensusState) : RequestEvent → MayPanic (RequestState × Output)
  | .reply _ rawMsg nodeAlias reqId
  | .reqNACK _ rawMsg nodeAlias reqId
  | .reject _ rawMsg nodeAlias reqId =>
    sm.consensusReply crates world state rawMsg nodeAlias reqId
  | .reqACK _ _ nodeAlias reqId =>
    .ok (.consensus state,
      { networker := [.extendTimeout reqId nodeAlias sm.extendedTimeout] })
  | .timeout reqId nodeAlias => sm.consensusTimeout world state reqId nodeAlias
  | .terminate => .ok sm.terminateRequest
  | _ => .ok (.consensus state, {})

/-- A response is accepted without agreement when it proves its result and is fresh. -/
def acceptedAlone (result : Json) (lastWriteTime : ℕ) (rawMsg : String) : MayPanic Bool := do
  if ← checkStateProof crates world result sm.f sm.generator sm.nodes rawMsg then
    let bound ← Outcome.wordAdd 64 world.overflowChecks world.freshnessThreshold lastWriteTime
    pure (decide (world.curTime ≤ bound))
  else pure false

/-- The message of the response that was written last. -/
def soonest (set : NodeResponses) (rawMsg : String) : String :=
  ((maxByKey NodeResponse.timestamp (world.order.order set.values)).map
    NodeResponse.rawMsg).getD rawMsg

def singleReply (state : SingleState) (rawMsg nodeAlias reqId : String) :
    MayPanic (RequestState × Output) :=
  let state := { state with timeoutNodes := state.timeoutNodes.erase nodeAlias }
  match getMsgResultWithoutStateProof crates rawMsg with
  | .ok (result, resultWithoutProof) => do
    let signedTime ← getLastSignedTime crates rawMsg
    let lastWriteTime := signedTime.getD 0
    let set := ((state.replies.lookup resultWithoutProof).getD ∅).insertNew
      ⟨rawMsg, nodeAlias, lastWriteTime⟩
    let state := { state with replies := state.replies.insert resultWithoutProof set }
    if sm.f < set.keys.length then
      pure (.finish, { networker := [.cleanTimeout reqId none]
                       commands := sendOkReplies sm.cmdIds (soonest world set rawMsg) })
    else if ← sm.acceptedAlone crates world result lastWriteTime rawMsg then
      pure (.finish, { networker := [.cleanTimeout reqId none]
                       commands := sendOkReplies sm.cmdIds rawMsg })
    else
      pure (state.tryToContinue reqId nodeAlias sm.cmdIds sm.nodes.keys.length sm.timeout)
  | .err _ =>
    let state := { state with deniedNodes := insert nodeAlias state.deniedNodes }
    .ok (state.tryToContinue reqId nodeAlias sm.cmdIds sm.nodes.keys.length sm.timeout)
  | .panic => .panic

def singleStep (state : SingleState) : RequestEvent → MayPanic (RequestState × Output)
  | .reply _ rawMsg nodeAlias reqId
  | .reqNACK _ rawMsg nodeAlias reqId
  | .reject _ rawMsg nodeAlias reqId =>
    sm.singleReply crates world state rawMsg nodeAlias reqId
  | .reqACK _ _ nodeAlias reqId =>
    .ok (.single state, { networker := [.extendTimeout reqId nodeAlias sm.extendedTimeout] })
  | .timeout reqId nodeAlias =>
    let state := { state with timeoutNodes := insert nodeAlias state.timeoutNodes }
    .ok (state.tryToContinue reqId nodeAlias sm.cmdIds sm.nodes.keys.length sm.timeout)
  | .terminate => .ok sm.terminateRequest
  | _ => .ok (.single state, {})

def processCatchupTarget (merkleRoot : String) (txnSeqNo : ℕ) (hashes : Option (List String))
    (nodeAlias : String) (state : CatchupConsensusState) :
    MayPanic (Bool × Option PoolEvent × CatchupConsensusState) :=
  let key : LedgerVote := (merkleRoot, txnSeqNo, hashes)
  let state := { state with
    replies := state.replies.update key (fun set => insert nodeAlias (set.getD ∅)) }
  match checkNodesResponsesOnStatus crates world state.replies state.merkleTree
    sm.nodes.keys.length sm.f sm.poolName with
  | .ok .inProgress => .ok (false, none, state)
  | .ok (.notNeeded merkleTree) => .ok (true, some (.synced merkleTree), state)
  | .ok (.restart merkleTree) => .ok (false, some (.catchupRestart merkleTree), state)
  | .ok (.shouldBeStarted targetMtRoot targetMtSize merkleTree) =>
    .ok (true, some (.catchupTargetFound targetMtRoot targetMtSize merkleTree), state)
  | .err err => .ok (true, some (.catchupTargetNotFound err), state)
  | .panic => .panic

def catchupTargetHandleConsensusState (state : CatchupConsensusState) (mtRoot : String) (sz : ℕ)
    (consProof : Option (List String)) (nodeAlias reqId : String) :
    MayPanic (RequestState × Output) := do
  let (finished, result, state) ←
    sm.processCatchupTarget crates world mtRoot sz consProof nodeAlias state
  if finished then
    pure (.finish, { networker := [.cleanTimeout reqId none], poolEvent := result })
  else
    match result with
    | some (.catchupRestart merkleTree) =>
      pure (.catchupConsensus state, { networker := [.cleanTimeout reqId none]
                                       poolEvent := some (.catchupRestart merkleTree) })
    | result =>
      pure (.catchupConsensus state, { networker := [.cleanTimeout reqId (some nodeAlias)]
                                       poolEvent := result })

def catchupConsensusStep (state : CatchupConsensusState) :
    RequestEvent → MayPanic (RequestState × Output)
  | .ledgerStatus ls (some nodeAlias) _ =>
    sm.catchupTargetHandleConsensusState crates world state ls.merkleRoot ls.txnSeqNo none
      nodeAlias ls.merkleRoot
  | .consistencyProof cp nodeAlias =>
    sm.catchupTargetHandleConsensusState crates world state cp.newMerkleRoot cp.seqNoEnd
      (some cp.hashes) nodeAlias cp.oldMerkleRoot
  | .timeout reqId nodeAlias =>
    sm.catchupTargetHandleConsensusState crates world state "timeout" 0 none nodeAlias reqId
  | .terminate => .ok sm.terminateRequest
  | _ => .ok (.catchupConsensus state, {})

def catchupSingleStep (state : CatchupSingleState) : RequestEvent → MayPanic (RequestState × Output)
  | .catchupRep cr nodeAlias =>
    match processCatchupReply crates world cr state.merkleTree state.targetMtRoot
      state.targetMtSize sm.poolName with
    | .ok merkle =>
      .ok (.finish, { networker := [.cleanTimeout state.reqId none]
                      poolEvent := some (.synced merkle) })
    | .err _ =>
      .ok (.catchupSingle state, { networker := [.resend state.reqId sm.timeout,
        .cleanTimeout state.reqId (some nodeAlias)] })
    | .panic => .panic
  | .timeout reqId nodeAlias =>
    .ok (.catchupSingle state, { networker := [.resend state.reqId sm.timeout,
      .cleanTimeout reqId (some nodeAlias)] })
  | .terminate => .ok sm.terminateRequest
  | _ => .ok (.catchupSingle state, {})

def fullRequestHandleConsensusState (state : FullState) (reqId nodeAlias nodeResult : String) :
    MayPanic (RequestState × Output) := do
  let accumReply := match state.accumReply with
    | none => Json.obj [(nodeAlias, .str nodeResult)]
    | some accumReply => accumReply.put nodeAlias (.str nodeResult)
  let requiredReplyCnt := (state.nodesToSend.map List.length).getD sm.nodes.keys.length
  let members ← Outcome.unwrap accumReply.asObject
  if members.length = requiredReplyCnt then
    pure (.finish, { networker := [.cleanTimeout reqId none]
                     commands := sendOkReplies sm.cmdIds (crates.toStr accumReply) })
  else
    pure (.full { state with accumReply := some accumReply },
      { networker := [.cleanTimeout reqId (some nodeAlias)] })

def fullStep (state : FullState) : RequestEvent → MayPanic (RequestState × Output)
  | .reply _ rawMsg nodeAlias reqId
  | .reqNACK _ rawMsg nodeAlias reqId
  | .reject _ rawMsg nodeAlias reqId =>
    sm.fullRequestHandleConsensusState crates state reqId nodeAlias rawMsg
  | .timeout reqId nodeAlias =>
    sm.fullRequestHandleConsensusState crates state reqId nodeAlias "timeout"
  | .terminate => .ok sm.terminateRequest
  | _ => .ok (.full state, {})

def stateStep (event : RequestEvent) : MayPanic (RequestState × Output) :=
  match sm.state with
  | .start => sm.startStep crates world event
  | .consensus state => sm.consensusStep crates world state event
  | .single state => sm.singleStep crates world state event
  | .catchupConsensus state => sm.catchupConsensusStep crates world state event
  | .catchupSingle state => sm.catchupSingleStep crates world state event
  | .full state => sm.fullStep crates state event
  | .finish => .ok (.finish, {})

def handleEvent (event : RequestEvent) : MayPanic (RequestSM × Output) := do
  let (state, output) ← sm.stateStep crates world event
  pure ({ sm with state := state }, output)

def processEvent : Option RequestEvent → MayPanic (RequestSM × Output)
  | some event => sm.handleEvent crates world event
  | none => .ok (sm, {})

def isTerminal : Bool :=
  match sm.state with
  | .finish => true
  | _ => false

end RequestSM

end IndySdk.Pool
