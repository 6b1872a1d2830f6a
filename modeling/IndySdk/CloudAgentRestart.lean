import IndySdk.CloudAgentSenders
import IndySdk.Obligations

/-!
# Restarting a cloud agent

The forward agent takes the connections of owners. When it is started again, it rebuilds its
actors and the router from its own wallet and the wallets of the agents.
-/

namespace IndySdk.Agency

/-- The forward agent, its wallet, and the owners that are connected. -/
structure ForwardAgent where
  did : String
  verkey : String
  endpoint : String
  myDids : AssocMap String String
  theirDids : AssocMap String String := ∅
  owners : List CloudAgent := []

namespace ForwardAgent

def create (did verkey endpoint : String) : ForwardAgent where
  did := did
  verkey := verkey
  endpoint := endpoint
  myDids := (∅ : AssocMap String String).insert did verkey

variable (crates : ConnectionCrates) (protocol : ProtocolTypes) (a : ForwardAgent)
  (world : AgentWorld)

def forwardAgentDetail : ForwardAgentDetail := ⟨a.did, a.verkey, a.endpoint⟩

/-! ### Connecting -/

def storeTheirDid (did : String) : AgentResult Unit :=
  if (a.theirDids.lookup did).isNone ∧ world.succeeds .storeTheirDid then .ok ()
  else .err "Can't create Forward Agent Connection."

def createMyDid : AgentResult Unit :=
  if (a.myDids.lookup world.did).isNone ∧ world.succeeds .createMyDid then .ok ()
  else .err "Can't create Forward Agent Connection."

def createPairwise : AgentResult Unit :=
  if world.succeeds .createPairwise then .ok ()
  else .err "Can't create Forward Agent Connection."

def connect (senderVk theirDid theirVerkey : String) :
    AgentResult (String × String) × ForwardAgent :=
  if theirVerkey ≠ senderVk then (.err "Inconsistent sender and connection verkeys", a)
  else
    match a.storeTheirDid world theirDid with
    | .err e => (.err e, a)
    | .panic => (.panic, a)
    | .ok () =>
      let a := { a with theirDids := a.theirDids.insert theirDid theirVerkey }
      match a.createMyDid world with
      | .err e => (.err e, a)
      | .panic => (.panic, a)
      | .ok () =>
        let a := { a with myDids := a.myDids.insert world.did world.verkey }
        match createPairwise world with
        | .err e => (.err e, a)
        | .panic => (.panic, a)
        | .ok () =>
          let owner := CloudAgent.connected theirDid theirVerkey world.did world.verkey
            a.forwardAgentDetail
          (.ok (world.did, world.verkey), { a with owners := a.owners ++ [owner] })

def handleA2aMsg (senderVk : String) (msgs : List A2AMessage) :
    AgentResult (List A2AMessage) × ForwardAgent :=
  match msgs.getLast? with
  | some (.version1 (.connect msg)) =>
    let handled := a.connect world senderVk msg.fromDid msg.fromDidVerkey
    (CloudAgent.respond world "Can't bundle and authcrypt connected message."
      (handled.1.bind fun (did, verkey) => .ok [.version1 (.connected ⟨did, verkey⟩)]), handled.2)
  | some (.version2 (.connect msg)) =>
    let handled := a.connect world senderVk msg.fromDid msg.fromDidVerkey
    (CloudAgent.respond world "Can't bundle and authcrypt connected message."
      (handled.1.bind fun (did, verkey) => .ok [.version2 (.connected ⟨did, verkey⟩)]), handled.2)
  | _ => (.err "Unsupported message", a)

/-- The DIDs are drawn at random: one owner at most has a route for one. -/
def routeToOwner (msg : Incoming) : List CloudAgent → Answer × List CloudAgent
  | [] => (.msgs (.err "No route found."), [])
  | s :: owners =>
    if (s.router.routes msg.did).isSome then
      let handled := s.routeA2aMsg crates protocol msg.world msg.did msg.senderVk msg.msgs
      (handled.1, handled.2 :: owners)
    else
      let handled := routeToOwner msg owners
      (handled.1, s :: handled.2)

def routeA2aMsg (msg : Incoming) : Answer × ForwardAgent :=
  if msg.did = a.did then
    let handled := a.handleA2aMsg msg.world msg.senderVk msg.msgs
    (.msgs handled.1, handled.2)
  else
    let handled := routeToOwner crates protocol msg a.owners
    (handled.1, { a with owners := handled.2 })

end ForwardAgent

def forwardAgent (crates : ConnectionCrates) (protocol : ProtocolTypes) :
    Machine ForwardAgent Incoming Answer where
  step msg a := a.routeA2aMsg crates protocol msg

/-! ### Restoring -/

/-- A DID of the wallet itself, or else of somebody else. -/
def keyForLocalDid (myDids theirDids : AssocMap String String) (e did : String) :
    AgentResult String :=
  Outcome.ofOption e ((myDids.lookup did).or (theirDids.lookup did))

namespace CloudAgent

variable (crates : ConnectionCrates) (s : CloudAgent)

/-- The state of a connection is what its pairwise record says. -/
def restoreConnection (configs : AssocMap String String) (theirDid : String) (record : Pairwise) :
    AgentResult Connection := do
  let state ← Outcome.unwrap record.metadata
  let agentPairwiseVerkey ← keyForLocalDid s.wallet.myDids s.wallet.theirDids
    "Can't get Agent Connection verkey" record.myDid
  let userPairwiseVerkey ← keyForLocalDid s.wallet.myDids s.wallet.theirDids
    "Can't get Agent Connection User verkey" theirDid
  let config : AgentConnectionConfig :=
    { ownerDid := s.theirDid
      ownerVerkey := s.theirVerkey
      userPairwiseDid := theirDid
      userPairwiseVerkey := userPairwiseVerkey
      agentPairwiseDid := record.myDid
      agentPairwiseVerkey := agentPairwiseVerkey
      agentConfigs := configs
      forwardAgentDetail := s.forwardAgentDetail }
  .ok ⟨config, state⟩

/-- A connection that is restored gets a route for the messages from outside. -/
def addRestored (s : CloudAgent) (connection : Connection) : CloudAgent :=
  { s with
    connections := s.connections.insert connection.config.agentPairwiseDid connection
    router := s.router.addA2aRoute connection.config.agentPairwiseDid
      (.agentConnection connection.config.agentPairwiseDid) }

def restoreConnections (configs : AssocMap String String) : AgentResult CloudAgent := do
  let _ ← s.getPairwiseList crates {}
  let connections ← (crates.order.order s.wallet.pairwise.toPairs).mapM fun record =>
    s.restoreConnection configs record.1 record.2
  .ok (connections.foldl addRestored s)

def restoreAgent (did : String) : AgentResult CloudAgent := do
  let verkey ← keyForLocalDid s.wallet.myDids s.wallet.theirDids "Can't get Agent did verkey." did
  let configs := s.wallet.didMetadata.getD ∅
  let s ← s.restoreConnections crates configs
  .ok { s with agent := some ⟨did, verkey, configs⟩, router := s.router.addA2aRoute did .agent }

/-- A forward agent connection before its agent is restored. -/
def stopped (theirVerkey myVerkey : String) : CloudAgent :=
  { s with
    theirVerkey := theirVerkey
    myVerkey := myVerkey
    state := s.pairwiseMetadata
    agent := none
    wallet := if s.pairwiseMetadata.agent.isSome then s.wallet else {}
    connections := ∅
    router := {} }

def restore (myDids theirDids : AssocMap String String) : AgentResult CloudAgent := do
  let myVerkey ← keyForLocalDid myDids theirDids
    "Can't get Forward Agent Connection my did key" s.myDid
  let theirVerkey ← keyForLocalDid myDids theirDids
    "Can't get Forward Agent Connection their did key" s.theirDid
  let stopped := s.stopped theirVerkey myVerkey
  let restored ← match s.pairwiseMetadata.agent with
    | some (_, _, did) => stopped.restoreAgent crates did
    | none => .ok stopped
  .ok { restored with router := restored.router.addA2aRoute s.myDid .forwardAgentConnection }

end CloudAgent

/-- The forward agent is started again. One owner who cannot be restored stops it. -/
def ForwardAgent.restart (crates : ConnectionCrates) (a : ForwardAgent) :
    AgentResult ForwardAgent := do
  let owners ← a.owners.mapM fun s => s.restore crates a.myDids a.theirDids
  .ok { a with owners := owners }

/-! ### What a restart owes -/

/-- The same routes, and the same messages, statuses and details of every connection. -/
structure CloudAgent.SameActors (s s' : CloudAgent) : Prop where
  theirDid : s'.theirDid = s.theirDid
  routes : ∀ did, s'.router.routes did = s.router.routes did
  pairwiseRoutes : ∀ did, s'.router.pairwiseRoutes did = s.router.pairwiseRoutes did
  connections : ∀ agentPairwiseDid, (s'.connections.lookup agentPairwiseDid).map (·.state) =
    (s.connections.lookup agentPairwiseDid).map (·.state)

/-- A restart succeeds, and whatever is sent afterwards is answered as without it. -/
def ForwardAgent.Survives (crates : ConnectionCrates) (protocol : ProtocolTypes)
    (a : ForwardAgent) : Prop :=
  ∃ a', a.restart crates = .ok a' ∧ List.Forall₂ CloudAgent.SameActors a.owners a'.owners ∧
    ∀ msgs, (forwardAgent crates protocol).outputs msgs a' =
      (forwardAgent crates protocol).outputs msgs a

/-! ### What is asked of the messages -/

/-- A key is created: every call succeeds, and the DIDs are new. -/
def CloudAgent.createsKey (s : CloudAgent) (world : AgentWorld) (forDid : String) : Bool :=
  world.succeeds .isPairwiseExists && (s.wallet.pairwise.lookup forDid).isNone &&
    (s.wallet.theirDids.lookup forDid).isNone && world.succeeds .storeTheirDid &&
    (s.wallet.myDids.lookup world.did).isNone && world.succeeds .createMyDid &&
    world.succeeds .createPairwise

/-- No key is created, and what changes the state or the settings is written. -/
def CloudAgent.persists (s : CloudAgent) (msg : Incoming) : Bool :=
  match s.router.routes msg.did, msg.msgs.getLast? with
  | some .forwardAgentConnection, some (.version1 .signUp)
  | some .forwardAgentConnection, some (.version2 .signUp) =>
    s.theirVerkey != msg.senderVk || s.state.isSignedUp ||
      msg.world.succeeds .setPairwiseMetadata
  | some .forwardAgentConnection, some (.version1 .createAgent)
  | some .forwardAgentConnection, some (.version2 .createAgent) =>
    s.theirVerkey != msg.senderVk || !s.state.isSignedUp || s.state.agent.isSome ||
      !(msg.world.succeeds .createWallet && msg.world.succeeds .openWallet &&
        msg.world.succeeds .createAgentDid) ||
      msg.world.succeeds .setPairwiseMetadata && msg.world.did != s.myDid
  | some .agent, some (.version1 (.createKey key))
  | some .agent, some (.version2 (.createKey key)) => !s.createsKey msg.world key.forDid
  | some .agent, some (.version1 (.updateConfigs update))
  | some .agent, some (.version2 (.updateConfigs update)) =>
    msg.world.succeeds .setDidMetadata || s.agent.all fun agent =>
      updatedConfigs update.configs agent.configs = agent.configs
  | some .agent, some (.version1 (.removeConfigs remove))
  | some .agent, some (.version2 (.removeConfigs remove)) =>
    msg.world.succeeds .setDidMetadata || s.agent.all fun agent =>
      removedConfigs remove.configs agent.configs = agent.configs
  | _, _ => true

/-- The DID of a new owner and the one that is drawn are found under their own keys. -/
def ForwardAgent.connectsApart (a : ForwardAgent) (world : AgentWorld) (connect : Connect) : Bool :=
  (a.storeTheirDid world connect.fromDid matches .err _) ||
    (a.createMyDid world matches .err _) ||
      (a.theirDids.lookup world.did).isNone && (!world.succeeds .createPairwise ||
        (a.myDids.lookup connect.fromDid).isNone && connect.fromDid != world.did)

def ForwardAgent.persists (a : ForwardAgent) (msg : Incoming) : Bool :=
  if msg.did = a.did then
    match msg.msgs.getLast? with
    | some (.version1 (.connect connect)) | some (.version2 (.connect connect)) =>
      connect.fromDidVerkey != msg.senderVk || a.connectsApart msg.world connect
    | _ => true
  else (a.owners.find? fun s => (s.router.routes msg.did).isSome).all (·.persists msg)

end IndySdk.Agency
