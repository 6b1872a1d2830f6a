import IndySdk.RequestSteps

/-!
# The state machine of a pool

A pool is opened and refreshed by catching up with its nodes and is active in between. The thread of
a pool feeds its machine with the commands of the library and the messages of the nodes; requests
are passed on to a machine of their own while the pool is active.
-/

namespace IndySdk.Pool

open Ledger (MerkleTree)

variable (crates : Crates) (world : World)

def getF (cnt : ℕ) : ℕ := if cnt < 4 then 0 else (cnt - 1) / 3

def Output.append (first second : Output) : Output where
  networker := first.networker ++ second.networker
  commands := first.commands ++ second.commands

/-- Code that may abort its thread as code that may also fail. -/
def ofMayPanic {α : Type} : MayPanic α → IndyResult α
  | .ok a => .ok a
  | .err e => e.elim
  | .panic => .panic

/-! ### Events of a pool as events of a request -/

def getReqJson (msg : String) : IndyResult Json :=
  Outcome.ofOption (errMsg .invalidStructure "Invalid request json") (crates.valueFromStr msg)

def parseReqIdAndOp (msg : String) : IndyResult (String × String) := do
  let reqJson ← getReqJson crates msg
  let reqId ← Outcome.ofOption (errMsg .invalidStructure "No reqId in request")
    (reqJson.get "reqId").asU64
  let op ← Outcome.ofOption (errMsg .invalidStructure "No operation type in request")
    ((reqJson.get "operation").get "type").asStr
  pure (reqId.repr, op)

/-- The event of a request, by its operation; only requests to all nodes take a list of nodes. -/
def requestOf (msg reqId op : String) (timeout : Option ℤ) (nodes : Option String) :
    Option RequestEvent :=
  if op ∈ requestForFull then some (.customFullRequest msg reqId timeout nodes)
  else if timeout.isSome ∨ nodes.isSome then none
  else if op ∈ requestsForStateProofs ∨ (world.spParser op).isSome then
    some (.customSingleRequest msg reqId)
  else some (.customConsensusRequest msg reqId)

def messageEvent (parsed : Message) (msg nodeAlias : String) : MayPanic RequestEvent :=
  match parsed with
  | .catchupReq _ =>
    match MerkleTree.fromVec crates.sha256 [] with
    | .ok merkle => .ok (.catchupReq merkle 0 [])
    | _ => .panic
  | .catchupRep rep => .ok (.catchupRep rep nodeAlias)
  | .ledgerStatus ls => .ok (.ledgerStatus ls (some nodeAlias) none)
  | .consistencyProof cp => .ok (.consistencyProof cp nodeAlias)
  | .reply rep => .ok (.reply rep msg nodeAlias rep.reqId.repr)
  | .reqACK rep => .ok (.reqACK rep msg nodeAlias rep.reqId.repr)
  | .reqNACK rep => .ok (.reqNACK rep msg nodeAlias rep.reqId.repr)
  | .reject rep => .ok (.reject rep msg nodeAlias rep.reqId.repr)
  | .poolLedgerTxns => .ok .poolLedgerTxns
  | .ping => .ok .ping
  | .pong => .ok .pong

def PoolEvent.toRequestEvent : PoolEvent → MayPanic (Option RequestEvent)
  | .nodeReply msg nodeAlias =>
    match crates.messageFromStr msg with
    | some parsed => some <$> messageEvent crates parsed msg nodeAlias
    | none => .ok none
  | .sendRequest _ msg localTimeout nodes =>
    match parseReqIdAndOp crates msg with
    | .ok (reqId, op) => .ok (requestOf world msg reqId op localTimeout nodes)
    | .err _ => .ok none
    | .panic => .panic
  | .timeout reqId nodeAlias => .ok (some (.timeout reqId nodeAlias))
  | _ => .ok none

/-! ### The machine -/

inductive PoolState where
  | initialization
  | gettingCatchupTarget (requestHandler : RequestSM) (cmdId : ℤ) (refresh : Bool)
  | active (requestHandlers : AssocMap String RequestSM) (nodes : Nodes)
  | syncCatchup (requestHandler : RequestSM) (cmdId : ℤ) (refresh : Bool)
  | terminated
  | closed

structure PoolSM where
  poolName : String
  id : ℤ
  timeout : ℤ
  extendedTimeout : ℤ
  state : PoolState

def PoolSM.new (poolName : String) (id timeout extendedTimeout : ℤ) : PoolSM :=
  ⟨poolName, id, timeout, extendedTimeout, .initialization⟩

def ledgerStatusOf (merkle : MerkleTree) : LedgerStatus where
  txnSeqNo := merkle.count
  merkleRoot := crates.toBase58 merkle.rootHash
  ledgerId := 0
  ppSeqNo := none
  viewNo := none
  protocolVersion := if 1 < world.protocolVersion then some world.protocolVersion else none

def closePoolAck (cmdId : ℤ) : Command := .closeAck cmdId (.ok ())

def openRefreshAck (cmdId id : ℤ) (isRefresh : Bool) : Command :=
  if isRefresh then .refreshAck cmdId (.ok ()) else .openAck cmdId id (.ok ())

namespace PoolSM

variable (sm : PoolSM)

def newHandler (cmdIds : List ℤ) (nodes : Nodes) : MayPanic RequestSM :=
  RequestSM.new crates (getF nodes.keys.length) cmdIds nodes none sm.poolName sm.timeout
    sm.extendedTimeout

/-- A handler that catches up, after its first event. -/
def catchupHandler (nodes : Nodes) (remotes : List RemoteNode) (event : RequestEvent) :
    MayPanic (RequestSM × Output) := do
  let handler ← sm.newHandler crates [] nodes
  let (handler, output) ← handler.handleEvent crates world event
  pure (handler, { networker := .nodesStateUpdated remotes :: output.networker
                   commands := output.commands })

/-- The cached ledger and its nodes, read again from the genesis when the cache is invalid. -/
def ledgerAndNodes : IndyResult (MerkleTree × Nodes × List RemoteNode) := do
  let merkle ← world.create sm.poolName
  match world.getNodesAndRemotes merkle with
  | .ok (nodes, remotes) => .ok (merkle, nodes, remotes)
  | .err err =>
    match world.dropCache sm.poolName with
    | .ok _ => do
      let merkle ← world.createAfterDrop sm.poolName
      let (nodes, remotes) ← world.getNodesAndRemotes merkle
      pure (merkle, nodes, remotes)
    | .err _ => .err err
    | .panic => .panic
  | .panic => .panic

def getRequestHandlerWithLedgerStatusSent : IndyResult (RequestSM × Output) := do
  let (merkle, nodes, remotes) ← sm.ledgerAndNodes world
  ofMayPanic (sm.catchupHandler crates world nodes remotes
    (.ledgerStatus (ledgerStatusOf crates world merkle) none (some merkle)))

def initializationStep : PoolEvent → MayPanic (PoolState × Output)
  | .checkCache cmdId =>
    match sm.getRequestHandlerWithLedgerStatusSent crates world with
    | .ok (requestHandler, output) => .ok (.gettingCatchupTarget requestHandler cmdId false, output)
    | .err err => .ok (.terminated, { commands := [.openAck cmdId sm.id (.error err)] })
    | .panic => .panic
  | .close cmdId => .ok (.closed, { commands := [closePoolAck cmdId] })
  | _ => .ok (.initialization, {})

/-- A refresh that cannot begin leaves the pool terminated. -/
def refreshStep (cmdId : ℤ) : MayPanic (PoolState × Output) :=
  match sm.getRequestHandlerWithLedgerStatusSent crates world with
  | .ok (requestHandler, output) => .ok (.gettingCatchupTarget requestHandler cmdId true, output)
  | .err _ => .ok (.terminated, {})
  | .panic => .panic

/-- Closing terminates the handler that catches up. -/
def closeCatchup (requestHandler : RequestSM) (cmdId : ℤ) : MayPanic (PoolState × Output) := do
  let (_, output) ← requestHandler.handleEvent crates world .terminate
  pure (.closed, { networker := output.networker
                   commands := closePoolAck cmdId :: output.commands })

/-- The handler may raise an event in the place of the one it is given. -/
def raisedEvent (requestHandler : RequestSM) (pe : PoolEvent) :
    MayPanic (RequestSM × Output × PoolEvent) := do
  let re ← pe.toRequestEvent crates world
  let (requestHandler, output) ← requestHandler.processEvent crates world re
  pure (requestHandler, output, output.poolEvent.getD pe)

def syncedStep (merkle : MerkleTree) (cmdId : ℤ) (refresh : Bool) :
    MayPanic (PoolState × Output) :=
  match world.getNodesAndRemotes merkle with
  | .ok (nodes, remotes) =>
    .ok (.active ∅ nodes, { networker := [.nodesStateUpdated remotes]
                            commands := [openRefreshAck cmdId sm.id refresh] })
  | .err _ => .ok (.terminated, {})
  | .panic => .panic

def gettingCatchupTargetEvent (requestHandler : RequestSM) (cmdId : ℤ) (refresh : Bool) :
    PoolEvent → MayPanic (PoolState × Output)
  | .close closeId => closeCatchup crates world requestHandler closeId
  | .catchupTargetNotFound err =>
    .ok (.terminated, { commands := [.openAck cmdId sm.id (.error err)] })
  | .catchupRestart merkle =>
    match world.getNodesAndRemotes merkle with
    | .ok (nodes, remotes) => do
      let (requestHandler, output) ← sm.catchupHandler crates world nodes remotes
        (.ledgerStatus (ledgerStatusOf crates world merkle) none (some merkle))
      pure (.gettingCatchupTarget requestHandler cmdId refresh, output)
    | .err _ => .ok (.terminated, {})
    | .panic => .panic
  | .catchupTargetFound targetMtRoot targetMtSize merkle =>
    match world.getNodesAndRemotes merkle with
    | .ok (nodes, remotes) => do
      let (requestHandler, output) ← sm.catchupHandler crates world nodes remotes
        (.catchupReq merkle targetMtSize targetMtRoot)
      pure (.syncCatchup requestHandler cmdId refresh, output)
    | .err _ => .ok (.terminated, {})
    | .panic => .panic
  | .synced merkle => sm.syncedStep world merkle cmdId refresh
  | _ => .ok (.gettingCatchupTarget requestHandler cmdId refresh, {})

def syncCatchupEvent (requestHandler : RequestSM) (cmdId : ℤ) (refresh : Bool) :
    PoolEvent → MayPanic (PoolState × Output)
  | .close closeId => closeCatchup crates world requestHandler closeId
  | .nodesBlacklisted => .ok (.terminated, {})
  | .synced merkle => sm.syncedStep world merkle cmdId refresh
  | _ => .ok (.syncCatchup requestHandler cmdId refresh, {})

def timeoutOutput (reqId : String) : Output :=
  if reqId = "" then { networker := [.timeout] } else {}

def terminatedStep : PoolEvent → MayPanic (PoolState × Output)
  | .close cmdId => .ok (.closed, { commands := [closePoolAck cmdId] })
  | .refresh cmdId => sm.refreshStep crates world cmdId
  | .timeout reqId _ => .ok (.terminated, timeoutOutput reqId)
  | _ => .ok (.terminated, {})

def terminateAll : List RequestSM → MayPanic Output
  | [] => .ok {}
  | requestHandler :: requestHandlers => do
    let (_, output) ← requestHandler.handleEvent crates world .terminate
    let rest ← terminateAll requestHandlers
    pure (output.append rest)

variable (requestHandlers : AssocMap String RequestSM) (nodes : Nodes)

/-- A handler under the same request id is replaced. -/
def sendRequestStep (pe : PoolEvent) (cmdId : ℤ) : MayPanic (PoolState × Output) := do
  match ← pe.toRequestEvent crates world with
  | some event =>
    let requestHandler ← sm.newHandler crates [cmdId] nodes
    let (requestHandler, output) ← requestHandler.handleEvent crates world event
    pure (.active (requestHandlers.insert event.getReqId requestHandler) nodes,
      { networker := output.networker, commands := output.commands })
  | none =>
    pure (.active requestHandlers nodes, { commands := [.submitAck cmdId
      (.error (errMsg .invalidStructure "Request id not found"))] })

def handlerStep (reqId : String) (requestHandler : RequestSM) (event : RequestEvent)
    (remove : Bool) : MayPanic (PoolState × Output) := do
  let (requestHandler, output) ← requestHandler.handleEvent crates world event
  pure (.active (if remove ∧ requestHandler.isTerminal then requestHandlers.erase reqId
      else requestHandlers.insert reqId requestHandler) nodes,
    { networker := output.networker, commands := output.commands })

def nodeReplyStep (pe : PoolEvent) : MayPanic (PoolState × Output) := do
  match ← pe.toRequestEvent crates world with
  | some event =>
    match requestHandlers.lookup event.getReqId with
    | some requestHandler =>
      handlerStep crates world requestHandlers nodes event.getReqId requestHandler event true
    | none => pure (.active requestHandlers nodes, {})
  | none => pure (.active requestHandlers nodes, {})

def timeoutStep (reqId nodeAlias : String) : MayPanic (PoolState × Output) :=
  match requestHandlers.lookup reqId with
  | some requestHandler =>
    handlerStep crates world requestHandlers nodes reqId requestHandler (.timeout reqId nodeAlias)
      false
  | none => .ok (.active requestHandlers nodes, timeoutOutput reqId)

def activeStep (pe : PoolEvent) : MayPanic (PoolState × Output) :=
  match pe with
  | .poolOutdated => .ok (.terminated, {})
  | .close cmdId => do
    let output ← terminateAll crates world (world.order.order requestHandlers.values)
    pure (.closed, { networker := output.networker
                     commands := closePoolAck cmdId :: output.commands })
  | .refresh cmdId => sm.refreshStep crates world cmdId
  | .sendRequest cmdId _ _ _ => sm.sendRequestStep crates world requestHandlers nodes pe cmdId
  | .nodeReply _ _ => nodeReplyStep crates world requestHandlers nodes pe
  | .timeout reqId nodeAlias => timeoutStep crates world requestHandlers nodes reqId nodeAlias
  | _ => .ok (.active requestHandlers nodes, {})

def stateStep (pe : PoolEvent) : MayPanic (PoolState × Output) :=
  match sm.state with
  | .initialization => sm.initializationStep crates world pe
  | .gettingCatchupTarget requestHandler cmdId refresh => do
    let (requestHandler, output, pe) ← raisedEvent crates world requestHandler pe
    let (state, after) ←
      sm.gettingCatchupTargetEvent crates world requestHandler cmdId refresh pe
    pure (state, output.append after)
  | .terminated => sm.terminatedStep crates world pe
  | .closed => .ok (.closed, {})
  | .active requestHandlers nodes => sm.activeStep crates world requestHandlers nodes pe
  | .syncCatchup requestHandler cmdId refresh => do
    let (requestHandler, output, pe) ← raisedEvent crates world requestHandler pe
    let (state, after) ← sm.syncCatchupEvent crates world requestHandler cmdId refresh pe
    pure (state, output.append after)

def handleEvent (pe : PoolEvent) : MayPanic (PoolSM × Output) := do
  let (state, output) ← sm.stateStep crates world pe
  pure ({ sm with state := state }, output)

def isTerminal : Bool :=
  match sm.state with
  | .closed => true
  | _ => false

end PoolSM

/-- The pool machine fed with events; after a panic there is no machine. -/
def poolMachine (crates : Crates) :
    Machine (Option PoolSM) (World × PoolEvent) (List Command) where
  step input
    | none => ([], none)
    | some sm =>
      match sm.handleEvent crates input.1 input.2 with
      | .ok (sm, output) => (output.commands, some sm)
      | _ => ([], none)

end IndySdk.Pool
