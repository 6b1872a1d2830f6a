import IndySdk.AgentConnection
import IndySdk.Lockstep

/-!
# The agent of one owner in the cloud

A forward agent connection lets its owner sign up and create an agent. The agent makes connections
and asks them for messages, keeps the owner's settings, and writes what has to survive to its
wallet. A router knows which of these a DID belongs to. Messages are handled one after the other;
what wallet calls answer and which keys they draw is an input.
-/

namespace IndySdk.Agency

structure ForwardAgentConnectionState where
  isSignedUp : Bool
  /-- Wallet, key and DID of the agent. -/
  agent : Option (String × String × String)
  deriving DecidableEq

/-- A pairwise record of the agent's wallet. It has metadata once its connection wrote any. -/
structure Pairwise where
  myDid : String
  metadata : Option AgentConnectionState

structure AgentWallet where
  myDids : AssocMap String String := ∅
  theirDids : AssocMap String String := ∅
  pairwise : AssocMap String Pairwise := ∅
  didMetadata : Option (AssocMap String String) := none

namespace AgentWallet

variable (wallet : AgentWallet)

def addMyDid (did verkey : String) : AgentWallet :=
  { wallet with myDids := wallet.myDids.insert did verkey }

def addTheirDid (did verkey : String) : AgentWallet :=
  { wallet with theirDids := wallet.theirDids.insert did verkey }

def addPairwise (theirDid myDid : String) : AgentWallet :=
  { wallet with pairwise := wallet.pairwise.insert theirDid ⟨myDid, none⟩ }

end AgentWallet

structure Connection where
  config : AgentConnectionConfig
  state : AgentConnectionState

structure Agent where
  did : String
  verkey : String
  configs : AssocMap String String

/-- What a DID belongs to. -/
inductive Actor where
  | forwardAgentConnection
  | agent
  | agentConnection (agentPairwiseDid : String)
  deriving DecidableEq

structure Router where
  routes : String → Option Actor := fun _ => none
  pairwiseRoutes : String → Option Actor := fun _ => none

namespace Router

def addA2aRoute (router : Router) (did : String) (actor : Actor) : Router :=
  { router with routes := Function.update router.routes did (some actor) }

def addA2connRoute (router : Router) (did : String) (actor : Actor) : Router :=
  { router with pairwiseRoutes := Function.update router.pairwiseRoutes did (some actor) }

end Router

/-- The actors of one owner, their wallets and the routes to them. -/
@[ext] structure CloudAgent where
  theirDid : String
  theirVerkey : String
  myDid : String
  myVerkey : String
  forwardAgentDetail : ForwardAgentDetail
  state : ForwardAgentConnectionState
  pairwiseMetadata : ForwardAgentConnectionState
  agent : Option Agent
  wallet : AgentWallet
  connections : AssocMap String Connection
  router : Router

/-- The forward agent connection of an owner who has connected. -/
def CloudAgent.connected (theirDid theirVerkey myDid myVerkey : String)
    (forwardAgentDetail : ForwardAgentDetail) : CloudAgent where
  theirDid := theirDid
  theirVerkey := theirVerkey
  myDid := myDid
  myVerkey := myVerkey
  forwardAgentDetail := forwardAgentDetail
  state := ⟨false, none⟩
  pairwiseMetadata := ⟨false, none⟩
  agent := none
  wallet := {}
  connections := ∅
  router := ({} : Router).addA2aRoute myDid .forwardAgentConnection

/-- The calls of libindy that the agent and the forward agent connection make. -/
inductive AgentCall where
  | createWallet
  | openWallet
  | createAgentDid
  | setPairwiseMetadata
  | isPairwiseExists
  | storeTheirDid
  | createMyDid
  | createPairwise
  | listPairwise
  | setDidMetadata
  deriving DecidableEq

def AgentCall.error : AgentCall → String
  | .createWallet => "Can't create Agent wallet."
  | .openWallet => "Can't open Agent wallet.`"
  | .createAgentDid => "Can't get Agent did key"
  | .setPairwiseMetadata => "Can't store connection pairwise."
  | .isPairwiseExists => "Can't check if agent pairwise connection exists."
  | .storeTheirDid => "Can't store their DID for Forward Agent Connection pairwise."
  | .createMyDid => "Can't create DID for agent pairwise connection."
  | .createPairwise => "Can't store agent pairwise connection."
  | .listPairwise => "Can't get Agent pairwise list"
  | .setDidMetadata => "Can't store config data as DID metadata."

/-- Which calls succeed while a message is handled, whether its answer is encrypted, what is drawn,
and what the turns of a connection are given. -/
structure AgentWorld where
  succeeds : AgentCall → Bool := fun _ => true
  encrypts : Bool := true
  walletId : String := ""
  walletKey : String := ""
  did : String := ""
  verkey : String := ""
  turns : List TurnWorld := []

def AgentWorld.attempt (world : AgentWorld) (call : AgentCall) : AgentResult Unit :=
  if world.succeeds call then .ok () else .err call.error

/-- What the sender of a message gets. A message that is forwarded is answered by the one it is
forwarded to; one whose calls do not come back is not answered. -/
inductive Answer where
  | msgs (result : AgentResult (List A2AMessage))
  | forwarded (fwd : String)
  | none

namespace CloudAgent

variable (crates : ConnectionCrates) (protocol : ProtocolTypes) (s : CloudAgent)
  (world : AgentWorld)

/-! ### The forward agent connection -/

def setPairwiseMetadata : AgentResult Unit × CloudAgent :=
  match world.attempt .setPairwiseMetadata with
  | .ok () => (.ok (), { s with pairwiseMetadata := s.state })
  | .err e => (.err e, s)
  | .panic => (.panic, s)

def signUp : AgentResult Unit × CloudAgent :=
  if s.state.isSignedUp then (.err "Already signed up", s)
  else setPairwiseMetadata { s with state := { s.state with isSignedUp := true } } world

/-- A wallet with a DID, and the agent whose DID it is. -/
def createAgentActor : AgentResult Agent := do
  world.attempt .createWallet
  world.attempt .openWallet
  world.attempt .createAgentDid
  .ok ⟨world.did, world.verkey, ∅⟩

def createAgent : AgentResult (String × String) × CloudAgent :=
  if !s.state.isSignedUp then (.err "Sign up is required.", s)
  else if s.state.agent.isSome then (.err "Agent already created.", s)
  else
    match createAgentActor world with
    | .ok agent =>
      let s := { s with
        agent := some agent
        wallet := { myDids := (∅ : AssocMap String String).insert agent.did agent.verkey }
        connections := ∅
        router := s.router.addA2aRoute agent.did .agent
        state := { s.state with agent := some (world.walletId, world.walletKey, agent.did) } }
      let stored := setPairwiseMetadata s world
      (stored.1.bind fun _ => .ok (agent.did, agent.verkey), stored.2)
    | .err e => (.err e, s)
    | .panic => (.panic, s)

/-- The answer is encrypted for its receiver. -/
def respond (failure : String) (result : AgentResult (List A2AMessage)) :
    AgentResult (List A2AMessage) := do
  let msgs ← result
  if world.encrypts then .ok msgs else .err failure

def handleForwardAgentConnection (senderVk : String) (msgs : List A2AMessage) :
    AgentResult (List A2AMessage) × CloudAgent :=
  if s.theirVerkey ≠ senderVk then
    (.err "Inconsistent sender and connection pairwise verkeys", s)
  else
    match msgs.getLast? with
    | some (.version1 .signUp) =>
      let handled := signUp s world
      (respond world "Can't bundle and authcrypt signed up message."
        (handled.1.bind fun _ => .ok [.version1 .signedUp]), handled.2)
    | some (.version2 .signUp) =>
      let handled := signUp s world
      (respond world "Can't pack signed up message."
        (handled.1.bind fun _ => .ok [.version2 .signedUp]), handled.2)
    | some (.version1 .createAgent) =>
      let handled := createAgent s world
      (respond world "Can't bundle and authcrypt agent created message."
        (handled.1.bind fun (did, verkey) => .ok [.version1 (.agentCreated ⟨did, verkey⟩)]),
        handled.2)
    | some (.version2 .createAgent) =>
      let handled := createAgent s world
      (respond world "Can't pack agent created message."
        (handled.1.bind fun (did, verkey) => .ok [.version2 (.agentCreated ⟨did, verkey⟩)]),
        handled.2)
    | _ => (.err "Unsupported message", s)

/-! ### The agent -/

def checkNoPairwiseExists (forDid : String) : AgentResult Unit := do
  world.attempt .isPairwiseExists
  if (s.wallet.pairwise.lookup forDid).isSome then
    .err "Agent pairwise connection already exists."
  else .ok ()

def storeTheirDid (did : String) : AgentResult Unit :=
  if (s.wallet.theirDids.lookup did).isSome then .err (AgentCall.error .storeTheirDid)
  else world.attempt .storeTheirDid

def createMyDid : AgentResult Unit :=
  if (s.wallet.myDids.lookup world.did).isSome then .err (AgentCall.error .createMyDid)
  else world.attempt .createMyDid

/-- The connection is started and the router knows it for both kinds of messages. -/
def createAgentConnection (config : AgentConnectionConfig) : CloudAgent :=
  { s with
    connections := s.connections.insert config.agentPairwiseDid ⟨config, {}⟩
    router := (s.router.addA2aRoute config.agentPairwiseDid
      (.agentConnection config.agentPairwiseDid)).addA2connRoute config.agentPairwiseDid
      (.agentConnection config.agentPairwiseDid) }

def withWallet (wallet : AgentWallet) : CloudAgent := { s with wallet := wallet }

def setConnectionState (agentPairwiseDid : String) (connection : Connection)
    (state : AgentConnectionState) : CloudAgent :=
  { s with connections :=
      s.connections.replace agentPairwiseDid { connection with state := state } }

/-- What is written before a call fails stays in the wallet. -/
def handleCreateKey (agent : Agent) (forDid forDidVerkey : String) :
    AgentResult (String × String) × CloudAgent :=
  match checkNoPairwiseExists s world forDid with
  | .err e => (.err e, s)
  | .panic => (.panic, s)
  | .ok () =>
    match storeTheirDid s world forDid with
    | .err e => (.err e, s)
    | .panic => (.panic, s)
    | .ok () =>
      let s := s.withWallet (s.wallet.addTheirDid forDid forDidVerkey)
      match createMyDid s world with
      | .err e => (.err e, s)
      | .panic => (.panic, s)
      | .ok () =>
        let s := s.withWallet (s.wallet.addMyDid world.did world.verkey)
        match world.attempt .createPairwise with
        | .err e => (.err e, s)
        | .panic => (.panic, s)
        | .ok () =>
          let s := s.withWallet (s.wallet.addPairwise forDid world.did)
          let config : AgentConnectionConfig :=
            { ownerDid := s.theirDid
              ownerVerkey := s.theirVerkey
              userPairwiseDid := forDid
              userPairwiseVerkey := forDidVerkey
              agentPairwiseDid := world.did
              agentPairwiseVerkey := world.verkey
              agentConfigs := agent.configs
              forwardAgentDetail := s.forwardAgentDetail }
          (.ok (world.did, world.verkey), s.createAgentConnection config)

/-- Their DIDs with the DIDs of the agent. A record without metadata cannot be read. -/
def getPairwiseList : AgentResult (List (String × String)) := do
  world.attempt .listPairwise
  let records := crates.order.order s.wallet.pairwise.toPairs
  if records.all fun record => record.2.metadata.isSome then
    .ok (records.map fun record => (record.1, record.2.myDid))
  else .err "Can't deserialize Agent pairwise"

def routeA2connMsg (did : String) (msg : A2ConnMessage) :
    AgentResult A2ConnMessage × CloudAgent :=
  match s.router.pairwiseRoutes did with
  | some (.agentConnection agentPairwiseDid) =>
    match s.connections.lookup agentPairwiseDid with
    | some connection =>
      let handled := AgentConnection.handleAgent2ConnMessage crates protocol connection.config
        connection.state msg
      (handled.1, s.setConnectionState agentPairwiseDid connection handled.2)
    | none => (.err "No route found.", s)
  | _ => (.err "No route found.", s)

/-- Messages for several connections. All of them are sent before the answers are looked at. -/
def routeAll : List (String × A2ConnMessage) → CloudAgent →
    List (AgentResult A2ConnMessage) × CloudAgent
  | [], s => ([], s)
  | (did, msg) :: msgs, s =>
    let routed := s.routeA2connMsg crates protocol did msg
    let rest := routeAll msgs routed.2
    (routed.1 :: rest.1, rest.2)

def joinAll (answers : List (AgentResult A2ConnMessage)) : AgentResult (List A2ConnMessage) :=
  match answers.mapM id with
  | .ok answers => .ok answers
  | .err _ => .err "Can't get Agent Connection messages"
  | .panic => .panic

def handleGetMessagesByConnections (msg : GetMessagesByConnections) :
    AgentResult (List A2ConnMessage) × CloudAgent :=
  match s.getPairwiseList crates world with
  | .err e => (.err e, s)
  | .panic => (.panic, s)
  | .ok pairwiseList =>
    let pairwises := pairwiseList.filter fun pairwise =>
      msg.pairwiseDids.isEmpty || msg.pairwiseDids.contains pairwise.1
    if !msg.pairwiseDids.isEmpty && pairwises.isEmpty then (.err "Pairwise DID not found.", s)
    else
      let routed := routeAll crates protocol (pairwises.map fun pairwise =>
        (pairwise.2, .getMessages ⟨msg.excludePayload, msg.uids, msg.statusCodes⟩)) s
      (joinAll routed.1, routed.2)

def handleUpdateMessagesByConnections (msg : UpdateMessageStatusByConnections) :
    AgentResult (List A2ConnMessage) × CloudAgent :=
  match s.getPairwiseList crates world with
  | .err e => (.err e, s)
  | .panic => (.panic, s)
  | .ok pairwiseList =>
    let routed := routeAll crates protocol (pairwiseList.filterMap fun pairwise =>
      (msg.uidsByConn.find? (·.pairwiseDid = pairwise.1)).map fun uidByConn =>
        (pairwise.2, .updateMessages ⟨uidByConn.uids, msg.statusCode⟩)) s
    (joinAll routed.1, routed.2)

def messagesByConnection : A2ConnMessage → AgentResult MessagesByConnection
  | .messagesByConnection msg => .ok msg
  | _ => .panic

def uidByConnection : A2ConnMessage → AgentResult UidByConnection
  | .messageStatusUpdatedByConnection msg => .ok msg
  | _ => .panic

def messagesByConnections (answers : AgentResult (List A2ConnMessage)) :
    AgentResult MessagesByConnections := do
  let answers ← answers
  let msgs ← answers.mapM messagesByConnection
  .ok ⟨msgs⟩

def messageStatusUpdatedByConnections (answers : AgentResult (List A2ConnMessage)) :
    AgentResult MessageStatusUpdatedByConnections := do
  let answers ← answers
  let uids ← answers.mapM uidByConnection
  .ok ⟨uids, []⟩

/-- The settings go to the wallet as metadata of the agent's DID. -/
def storeConfigs (agent : Agent) (configs : AssocMap String String) :
    AgentResult Unit × CloudAgent :=
  let s := { s with agent := some { agent with configs := configs } }
  match world.attempt .setDidMetadata with
  | .ok () => (.ok (), s.withWallet { s.wallet with didMetadata := some configs })
  | .err e => (.err e, s)
  | .panic => (.panic, s)

def updatedConfigs (options : List ConfigOption) (configs : AssocMap String String) :
    AssocMap String String :=
  options.foldl (fun configs option =>
    if option.name = "name" ∨ option.name = "logo_url" then
      configs.insert option.name option.value
    else configs) configs

def handleUpdateConfigs (agent : Agent) (msg : UpdateConfigs) : AgentResult Unit × CloudAgent :=
  storeConfigs s world agent (updatedConfigs msg.configs agent.configs)

def handleGetConfigs (agent : Agent) (msg : GetConfigs) : List ConfigOption :=
  ((crates.order.order agent.configs.toPairs).filter fun config =>
    msg.configs.contains config.1).map fun config => ⟨config.1, config.2⟩

def removedConfigs (names : List String) (configs : AssocMap String String) :
    AssocMap String String :=
  names.foldl (fun configs name => configs.erase name) configs

def handleRemoveConfigs (agent : Agent) (msg : RemoveConfigs) : AgentResult Unit × CloudAgent :=
  storeConfigs s world agent (removedConfigs msg.configs agent.configs)

def handleAgentMsgV1 (agent : Agent) (msg : A2AMessageV1) :
    AgentResult (List A2AMessage) × CloudAgent :=
  match msg with
  | .createKey msg =>
    let handled := s.handleCreateKey world agent msg.forDid msg.forDidVerkey
    (handled.1.bind fun (did, verkey) => .ok [.version1 (.keyCreated ⟨did, verkey⟩)], handled.2)
  | .getMessagesByConnections msg =>
    let handled := s.handleGetMessagesByConnections crates protocol world msg
    ((messagesByConnections handled.1).bind fun msg =>
      .ok [.version1 (.messagesByConnections msg)], handled.2)
  | .updateMessageStatusByConnections msg =>
    let handled := s.handleUpdateMessagesByConnections crates protocol world msg
    ((messageStatusUpdatedByConnections handled.1).bind fun msg =>
      .ok [.version1 (.messageStatusUpdatedByConnections msg)], handled.2)
  | .updateConfigs msg =>
    let handled := s.handleUpdateConfigs world agent msg
    (handled.1.bind fun _ => .ok [.version1 .configsUpdated], handled.2)
  | .getConfigs msg =>
    (.ok [.version1 (.configs ⟨handleGetConfigs crates agent msg⟩)], s)
  | .removeConfigs msg =>
    let handled := s.handleRemoveConfigs world agent msg
    (handled.1.bind fun _ => .ok [.version1 .configsRemoved], handled.2)
  | .updateComMethod _ => (.ok [.version1 (.comMethodUpdated ⟨"123"⟩)], s)
  | _ => (.err "Unsupported message", s)

def handleAgentMsgV2 (agent : Agent) (msg : A2AMessageV2) :
    AgentResult (List A2AMessage) × CloudAgent :=
  match msg with
  | .createKey msg =>
    let handled := s.handleCreateKey world agent msg.forDid msg.forDidVerkey
    (handled.1.bind fun (did, verkey) => .ok [.version2 (.keyCreated ⟨did, verkey⟩)], handled.2)
  | .getMessagesByConnections msg =>
    let handled := s.handleGetMessagesByConnections crates protocol world msg
    ((messagesByConnections handled.1).bind fun msg =>
      .ok [.version2 (.messagesByConnections msg)], handled.2)
  | .updateMessageStatusByConnections msg =>
    let handled := s.handleUpdateMessagesByConnections crates protocol world msg
    ((messageStatusUpdatedByConnections handled.1).bind fun msg =>
      .ok [.version2 (.messageStatusUpdatedByConnections msg)], handled.2)
  | .updateConfigs msg =>
    let handled := s.handleUpdateConfigs world agent msg
    (handled.1.bind fun _ => .ok [.version2 .configsUpdated], handled.2)
  | .getConfigs msg =>
    (.ok [.version2 (.configs ⟨handleGetConfigs crates agent msg⟩)], s)
  | .removeConfigs msg =>
    let handled := s.handleRemoveConfigs world agent msg
    (handled.1.bind fun _ => .ok [.version2 .configsRemoved], handled.2)
  | _ => (.err "Unsupported message", s)

/-- The sender's key is where the answer goes. It is not compared with the owner's. -/
def handleAgent (agent : Agent) (msgs : List A2AMessage) : Answer × CloudAgent :=
  match msgs.getLast? with
  | some (.version1 (.forward msg)) => (.forwarded msg.fwd, s)
  | some (.version2 (.forward msg)) => (.forwarded msg.fwd, s)
  | some (.version1 msg) =>
    let handled := s.handleAgentMsgV1 crates protocol world agent msg
    (.msgs (respond world "Can't bundle and authcrypt message." handled.1), handled.2)
  | some (.version2 msg) =>
    let handled := s.handleAgentMsgV2 crates protocol world agent msg
    (.msgs (respond world "Can't pack message." handled.1), handled.2)
  | none => (.msgs (.err "Unsupported message"), s)

/-! ### The connections -/

/-- What a connection writes to the wallet of its agent. -/
inductive WalletWrite where
  | metadata (state : AgentConnectionState)
  | theirDid (did verkey : String)

def writes : Awaiting → List WalletWrite
  | .persisted metadata _ => [.metadata metadata]
  | .senderDid _ msgDetail _ _ =>
    [.theirDid msgDetail.senderDetail.did msgDetail.senderDetail.verkey]
  | .senderAgencyDid _ msgDetail _ _ =>
    [.theirDid msgDetail.senderAgencyDetail.did msgDetail.senderAgencyDetail.verkey]
  | _ => []

/-- A DID that is there already stays as it is. -/
def applyWrite (theirDid : String) (wallet : AgentWallet) : WalletWrite → AgentWallet
  | .metadata state =>
    match wallet.pairwise.lookup theirDid with
    | some record =>
      let record := { record with metadata := some state }
      { wallet with pairwise := wallet.pairwise.replace theirDid record }
    | none => wallet
  | .theirDid did verkey =>
    if (wallet.theirDids.lookup did).isSome then wallet else wallet.addTheirDid did verkey

/-- What is left of a message that a connection handles. -/
structure Settled where
  result : Option (AgentResult (List A2AMessage))
  state : AgentConnectionState
  written : List WalletWrite

/-- The turns of a message until it is done, or until a call does not come back. -/
def settle (slf : AgentConnectionConfig) (senderVk : String) (worlds : List TurnWorld)
    (turn : Turn) (written : List WalletWrite) : Settled :=
  match turn.progress, worlds with
  | .done result, _ => ⟨some result, turn.state, written⟩
  | .awaiting _, [] => ⟨none, turn.state, written⟩
  | .awaiting awaiting, world :: worlds =>
    settle slf senderVk worlds
      (AgentConnection.resume crates protocol slf turn.state senderVk awaiting world)
      (if world.succeeded then written ++ writes awaiting else written)

def handleConnection (agentPairwiseDid : String) (connection : Connection) (senderVk : String)
    (msgs : List A2AMessage) : Answer × CloudAgent :=
  let turn := AgentConnection.handleA2aMsg crates protocol connection.config connection.state
    senderVk msgs (world.turns.headD {})
  let settled := settle crates protocol connection.config senderVk world.turns.tail turn []
  let s := s.setConnectionState agentPairwiseDid connection settled.state
  ((settled.result.map Answer.msgs).getD .none,
    s.withWallet (settled.written.foldl (applyWrite connection.config.userPairwiseDid) s.wallet))

/-! ### The router -/

/-- A decrypted message goes to the actor that the DID belongs to. -/
def routeA2aMsg (did senderVk : String) (msgs : List A2AMessage) : Answer × CloudAgent :=
  match s.router.routes did with
  | some .forwardAgentConnection =>
    let handled := s.handleForwardAgentConnection world senderVk msgs
    (.msgs handled.1, handled.2)
  | some .agent =>
    match s.agent with
    | some agent => s.handleAgent crates protocol world agent msgs
    | none => (.msgs (.err "No route found."), s)
  | some (.agentConnection agentPairwiseDid) =>
    match s.connections.lookup agentPairwiseDid with
    | some connection =>
      s.handleConnection crates protocol world agentPairwiseDid connection senderVk msgs
    | none => (.msgs (.err "No route found."), s)
  | none => (.msgs (.err "No route found."), s)

end CloudAgent

/-- A message on its way to the actor of a DID, decrypted, and what its handling is given. -/
structure Incoming where
  did : String
  senderVk : String
  msgs : List A2AMessage
  world : AgentWorld := {}

def cloudAgent (crates : ConnectionCrates) (protocol : ProtocolTypes) :
    Machine CloudAgent Incoming Answer where
  step msg s := s.routeA2aMsg crates protocol msg.world msg.did msg.senderVk msg.msgs

end IndySdk.Agency
