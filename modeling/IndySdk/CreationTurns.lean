import IndySdk.CloudAgent
import IndySdk.Turns

/-!
# Agents and keys, call by call

An owner signs up, has agents created and asks them for keys. Each of these messages makes several
calls of libindy and waits for every answer, and meanwhile other messages have turns. Calls are
handled in the order in which they are made, so a call takes effect in the turn that makes it, and
the next turn of its message sees what came of it.
-/

namespace IndySdk.Agency

structure Owner where
  theirDid : String
  theirVerkey : String
  forwardAgentDetail : ForwardAgentDetail

/-- An agent with its wallet, and the connections that it has started. -/
structure StartedAgent where
  agent : Agent
  wallet : AgentWallet
  connections : List Connection := []

/-- What there is of an owner: the forward agent connection and its pairwise record, the wallets
that were created for agents, and the agents in the order in which they were started. -/
structure Premises where
  state : ForwardAgentConnectionState
  pairwiseMetadata : ForwardAgentConnectionState
  wallets : List String := []
  agents : List StartedAgent := []
  router : Router := {}

/-- Whether the call that a turn makes succeeds, and what is drawn for it. -/
structure CallWorld where
  succeeds : Bool := true
  drawn : String := ""
  walletKey : String := ""
  did : String := ""
  verkey : String := ""

namespace CallWorld

variable (world : CallWorld)

def attempt (call : AgentCall) : Except String Unit :=
  if world.succeeds then .ok () else .error call.error

/-- A call that changes something when it is possible and succeeds. -/
def perform {α : Type} (call : AgentCall) (possible : Bool) (before after : α) :
    Except String Unit × α :=
  if possible && world.succeeds then (.ok (), after) else (.error call.error, before)

end CallWorld

/-- A message of the owner to the forward agent connection, or one to an agent. -/
inductive CreationInput where
  | signUp (version : ProtocolTypes) (senderVk : String) (world : CallWorld)
  | createAgent (version : ProtocolTypes) (senderVk : String) (world : CallWorld)
  | createKey (version : ProtocolTypes) (agent : ℕ) (forDid forDidVerkey : String)
      (world : CallWorld)

/-- The call in flight, with what came of it and what the next turn needs. -/
inductive Creation where
  | signUpStored (version : ProtocolTypes) (called : Except String Unit)
  | walletCreated (version : ProtocolTypes) (walletId walletKey : String)
      (called : Except String Unit)
  | walletOpened (version : ProtocolTypes) (walletId walletKey : String)
      (called : Except String Unit)
  | agentDidCreated (version : ProtocolTypes) (walletId walletKey did verkey : String)
      (called : Except String Unit)
  | routeAdded (version : ProtocolTypes) (walletId walletKey did verkey : String)
  | agentStored (version : ProtocolTypes) (did verkey : String) (called : Except String Unit)
  | pairwiseChecked (version : ProtocolTypes) (agent : ℕ) (forDid forDidVerkey : String)
      (called : Except String Bool)
  | theirDidStored (version : ProtocolTypes) (agent : ℕ) (forDid forDidVerkey : String)
      (called : Except String Unit)
  | myDidCreated (version : ProtocolTypes) (agent : ℕ) (forDid forDidVerkey : String)
      (pairwiseDid pairwiseDidVerkey : String) (called : Except String Unit)
  | pairwiseCreated (version : ProtocolTypes) (agent : ℕ) (forDid forDidVerkey : String)
      (pairwiseDid pairwiseDidVerkey : String) (called : Except String Unit)
  | connectionRouted (version : ProtocolTypes) (pairwiseDid pairwiseDidVerkey : String)
  | encrypted (msgs : List A2AMessage) (called : Except String Unit)

/-- A message waits again, or it is answered. No turn aborts. -/
abbrev CreationTurn := (Creation ⊕ Except String (List A2AMessage)) × Premises

namespace Premises

/-- The forward agent connection of an owner who has connected. -/
def connected (myDid : String) : Premises where
  state := ⟨false, none⟩
  pairwiseMetadata := ⟨false, none⟩
  router := ({} : Router).addA2aRoute myDid .forwardAgentConnection

variable (owner : Owner) (s : Premises) (world : CallWorld)

def refuse (e : String) : CreationTurn := (.inr (.error e), s)

/-- Go on from the answer of a call. -/
def andThen {α : Type} (called : Except String α) (next : α → CreationTurn) : CreationTurn :=
  match called with
  | .ok a => next a
  | .error e => s.refuse e

def withAgent (agent : ℕ) (next : StartedAgent → CreationTurn) : CreationTurn :=
  match s.agents[agent]? with
  | some started => next started
  | none => s.refuse "No route found."

def setAgent (agent : ℕ) (started : StartedAgent) : Premises :=
  { s with agents := s.agents.set agent started }

/-- The answer is encrypted for its receiver. -/
def encrypt (failure : String) (msgs : List A2AMessage) : CreationTurn :=
  (.inl (.encrypted msgs (if world.succeeds then .ok () else .error failure)), s)

/-! ### The forward agent connection -/

def setPairwiseMetadata (s : Premises) : Except String Unit × Premises :=
  world.perform .setPairwiseMetadata true s { s with pairwiseMetadata := s.state }

def signUp (version : ProtocolTypes) (senderVk : String) : CreationTurn :=
  if owner.theirVerkey ≠ senderVk then
    s.refuse "Inconsistent sender and connection pairwise verkeys"
  else if s.state.isSignedUp then s.refuse "Already signed up"
  else
    let stored := setPairwiseMetadata world { s with state := { s.state with isSignedUp := true } }
    (.inl (.signUpStored version stored.1), stored.2)

def walletId : String := "dummy_" ++ owner.theirDid ++ "_" ++ world.drawn

def createWallet (walletId : String) : Except String Unit × Premises :=
  world.perform .createWallet (walletId ∉ s.wallets) s
    { s with wallets := s.wallets ++ [walletId] }

/-- The checks are made before the first call, and not again. -/
def createAgent (version : ProtocolTypes) (senderVk : String) : CreationTurn :=
  if owner.theirVerkey ≠ senderVk then
    s.refuse "Inconsistent sender and connection pairwise verkeys"
  else if !s.state.isSignedUp then s.refuse "Sign up is required."
  else if s.state.agent.isSome then s.refuse "Agent already created."
  else
    let created := s.createWallet world (walletId owner world)
    (.inl (.walletCreated version (walletId owner world) world.walletKey created.1), created.2)

/-- The agent is started and the router knows it. -/
def startAgent (did verkey : String) : Premises :=
  let started : StartedAgent :=
    { agent := ⟨did, verkey, ∅⟩
      wallet := { myDids := (∅ : AssocMap String String).insert did verkey } }
  { s with
    agents := s.agents ++ [started]
    router := s.router.addA2aRoute did .agent }

def storeAgent (version : ProtocolTypes) (walletId walletKey did verkey : String) :
    CreationTurn :=
  let stored := setPairwiseMetadata world
    { s with state := { s.state with agent := some (walletId, walletKey, did) } }
  (.inl (.agentStored version did verkey stored.1), stored.2)

def signedUp : ProtocolTypes → CreationTurn
  | .V1 => s.encrypt world "Can't bundle and authcrypt signed up message." [.version1 .signedUp]
  | .V2 => s.encrypt world "Can't pack signed up message." [.version2 .signedUp]

def agentCreated (did verkey : String) : ProtocolTypes → CreationTurn
  | .V1 => s.encrypt world "Can't bundle and authcrypt agent created message."
      [.version1 (.agentCreated ⟨did, verkey⟩)]
  | .V2 => s.encrypt world "Can't pack agent created message."
      [.version2 (.agentCreated ⟨did, verkey⟩)]

/-! ### The agents -/

def checkNoPairwiseExists (version : ProtocolTypes) (agent : ℕ) (forDid forDidVerkey : String) :
    CreationTurn :=
  s.withAgent agent fun started =>
    let called := (world.attempt .isPairwiseExists).map fun _ =>
      (started.wallet.pairwise.lookup forDid).isSome
    (.inl (.pairwiseChecked version agent forDid forDidVerkey called), s)

/-- A call of an agent that changes its wallet. -/
def callAgent (agent : ℕ) (call : AgentCall) (possible : AgentWallet → Bool)
    (change : AgentWallet → AgentWallet) (next : Except String Unit → Creation) : CreationTurn :=
  s.withAgent agent fun started =>
    let called := world.perform call (possible started.wallet) started.wallet
      (change started.wallet)
    (.inl (next called.1), s.setAgent agent { started with wallet := called.2 })

def storeTheirDid (version : ProtocolTypes) (agent : ℕ) (forDid forDidVerkey : String) :
    CreationTurn :=
  s.callAgent world agent .storeTheirDid (fun wallet => (wallet.theirDids.lookup forDid).isNone)
    (fun wallet => wallet.addTheirDid forDid forDidVerkey)
    (.theirDidStored version agent forDid forDidVerkey)

def createMyDid (version : ProtocolTypes) (agent : ℕ) (forDid forDidVerkey : String) :
    CreationTurn :=
  s.callAgent world agent .createMyDid (fun wallet => (wallet.myDids.lookup world.did).isNone)
    (fun wallet => wallet.addMyDid world.did world.verkey)
    (.myDidCreated version agent forDid forDidVerkey world.did world.verkey)

/-- Both DIDs have to be there, and the record must not. -/
def createPairwise (version : ProtocolTypes) (agent : ℕ) (forDid forDidVerkey : String)
    (pairwiseDid pairwiseDidVerkey : String) : CreationTurn :=
  s.callAgent world agent .createPairwise
    (fun wallet => (wallet.myDids.lookup pairwiseDid).isSome &&
      (wallet.theirDids.lookup forDid).isSome && (wallet.pairwise.lookup forDid).isNone)
    (fun wallet => wallet.addPairwise forDid pairwiseDid)
    (.pairwiseCreated version agent forDid forDidVerkey pairwiseDid pairwiseDidVerkey)

/-- The connection is started and the router knows it for both kinds of messages. -/
def createAgentConnection (version : ProtocolTypes) (agent : ℕ) (forDid forDidVerkey : String)
    (pairwiseDid pairwiseDidVerkey : String) : CreationTurn :=
  s.withAgent agent fun started =>
    let config : AgentConnectionConfig :=
      { ownerDid := owner.theirDid
        ownerVerkey := owner.theirVerkey
        userPairwiseDid := forDid
        userPairwiseVerkey := forDidVerkey
        agentPairwiseDid := pairwiseDid
        agentPairwiseVerkey := pairwiseDidVerkey
        agentConfigs := started.agent.configs
        forwardAgentDetail := owner.forwardAgentDetail }
    let s := s.setAgent agent { started with
      connections := started.connections ++ [⟨config, {}⟩] }
    let router := (s.router.addA2aRoute pairwiseDid (.agentConnection pairwiseDid)).addA2connRoute
      pairwiseDid (.agentConnection pairwiseDid)
    (.inl (.connectionRouted version pairwiseDid pairwiseDidVerkey), { s with router := router })

def keyCreated (did verkey : String) : ProtocolTypes → CreationTurn
  | .V1 => s.encrypt world "Can't bundle and authcrypt message."
      [.version1 (.keyCreated ⟨did, verkey⟩)]
  | .V2 => s.encrypt world "Can't pack message." [.version2 (.keyCreated ⟨did, verkey⟩)]

/-! ### Turns -/

def begin : CreationInput → CreationTurn
  | .signUp version senderVk world => s.signUp owner world version senderVk
  | .createAgent version senderVk world => s.createAgent owner world version senderVk
  | .createKey version agent forDid forDidVerkey world =>
    s.checkNoPairwiseExists world version agent forDid forDidVerkey

def proceed : Creation → CreationTurn
  | .signUpStored version called => s.andThen called fun _ => s.signedUp world version
  | .walletCreated version walletId walletKey called => s.andThen called fun _ =>
    (.inl (.walletOpened version walletId walletKey (world.attempt .openWallet)), s)
  | .walletOpened version walletId walletKey called => s.andThen called fun _ =>
    (.inl (.agentDidCreated version walletId walletKey world.did world.verkey
      (world.attempt .createAgentDid)), s)
  | .agentDidCreated version walletId walletKey did verkey called => s.andThen called fun _ =>
    (.inl (.routeAdded version walletId walletKey did verkey), s.startAgent did verkey)
  | .routeAdded version walletId walletKey did verkey =>
    s.storeAgent world version walletId walletKey did verkey
  | .agentStored version did verkey called => s.andThen called fun _ =>
    s.agentCreated world did verkey version
  | .pairwiseChecked version agent forDid forDidVerkey called => s.andThen called fun found =>
    if found then s.refuse "Agent pairwise connection already exists."
    else s.storeTheirDid world version agent forDid forDidVerkey
  | .theirDidStored version agent forDid forDidVerkey called => s.andThen called fun _ =>
    s.createMyDid world version agent forDid forDidVerkey
  | .myDidCreated version agent forDid forDidVerkey pairwiseDid pairwiseDidVerkey called =>
    s.andThen called fun _ =>
      s.createPairwise world version agent forDid forDidVerkey pairwiseDid pairwiseDidVerkey
  | .pairwiseCreated version agent forDid forDidVerkey pairwiseDid pairwiseDidVerkey called =>
    s.andThen called fun _ => s.createAgentConnection owner version agent forDid forDidVerkey
      pairwiseDid pairwiseDidVerkey
  | .connectionRouted version pairwiseDid pairwiseDidVerkey =>
    s.keyCreated world pairwiseDid pairwiseDidVerkey version
  | .encrypted msgs called => s.andThen called fun _ => (.inr (.ok msgs), s)

end Premises

def creationTurns (owner : Owner) :
    Turns Premises CreationInput Creation CallWorld (Except String (List A2AMessage)) where
  start input s := s.begin owner input
  resume creation world s := s.proceed owner world creation
  fatal _ := false

end IndySdk.Agency
