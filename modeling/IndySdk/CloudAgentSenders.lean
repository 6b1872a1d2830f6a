import IndySdk.CloudAgent
import IndySdk.ConnectionTurns
import IndySdk.Purge

/-!
# Who may send to a cloud agent

The forward agent connection answers its owner alone, and an established connection the two sides
it connects. The agent itself answers anyone who reaches it, and a connection that is not
established takes messages from anyone. A stranger who sends neither of these changes nothing, and
learns nothing of what is stored.
-/

namespace IndySdk.Agency

open Option

/-! ### Strangers -/

namespace CloudAgent

def connectionAt (s : CloudAgent) (did : String) : Option Connection :=
  match s.router.routes did with
  | some (.agentConnection agentPairwiseDid) => s.connections.lookup agentPairwiseDid
  | _ => none

/-- The sender is not the owner, nor one of the two sides of the connection that is reached. -/
def isStranger (s : CloudAgent) (msg : Incoming) : Bool :=
  msg.senderVk != s.theirVerkey &&
    (s.connectionAt msg.did).all fun connection =>
      msg.senderVk != connection.config.userPairwiseVerkey &&
        connection.state.remoteConnectionDetail.all fun detail =>
          msg.senderVk != detail.agentKeyDlgProof.agentDelegatedKey

/-! ### What an agent owes to its owner -/

/-- The settings, the pairwise records, the routes, and the messages of the connections that are
established. -/
structure Undisturbed (s s' : CloudAgent) : Prop where
  configs : s.agent.map (·.configs) = s'.agent.map (·.configs)
  pairwise : s.wallet.pairwise = s'.wallet.pairwise
  routes : ∀ did, s.router.routes did = s'.router.routes did
  pairwiseRoutes : ∀ did, s.router.pairwiseRoutes did = s'.router.pairwiseRoutes did
  messages : ∀ agentPairwiseDid connection,
    s.connections.lookup agentPairwiseDid = some connection →
      connection.state.remoteConnectionDetail.isSome →
        ∃ connection', s'.connections.lookup agentPairwiseDid = some connection' ∧
          connection'.state.messages = connection.state.messages

end CloudAgent

/-- A connection without its messages and the settings of its agent. -/
def Connection.outline (connection : Connection) : Connection where
  config := { connection.config with agentConfigs := ∅ }
  state := { connection.state with messages := ∅ }

/-- Two agents that differ in what they have stored at most. -/
structure CloudAgent.SameOutline (s s' : CloudAgent) : Prop where
  theirVerkey : s'.theirVerkey = s.theirVerkey
  agent : s'.agent.map (fun agent => (agent.did, agent.verkey)) =
    s.agent.map fun agent => (agent.did, agent.verkey)
  router : s'.router = s.router
  connections : ∀ agentPairwiseDid,
    (s'.connections.lookup agentPairwiseDid).map Connection.outline =
      (s.connections.lookup agentPairwiseDid).map Connection.outline

/-- What only the owner is told: a key was created, messages of connections, settings. -/
def A2AMessage.isForOwner : A2AMessage → Bool
  | .version1 (.keyCreated _) | .version2 (.keyCreated _)
  | .version1 (.messagesByConnections _) | .version2 (.messagesByConnections _)
  | .version1 (.messageStatusUpdatedByConnections _)
  | .version2 (.messageStatusUpdatedByConnections _)
  | .version1 .configsUpdated | .version2 .configsUpdated
  | .version1 (.configs _) | .version2 (.configs _)
  | .version1 .configsRemoved | .version2 .configsRemoved => true
  | _ => false

def Answer.isForOwner : Answer → Bool
  | .msgs (.ok replies) => replies.any A2AMessage.isForOwner
  | _ => false

section Promises

variable (crates : ConnectionCrates) (protocol : ProtocolTypes)

/-- The answer does not depend on what is stored, and grants nothing that is the owner's. -/
structure TellsNothing (s : CloudAgent) (msg : Incoming) : Prop where
  independent : ∀ s', s.SameOutline s' →
    ((cloudAgent crates protocol).step msg s').1 = ((cloudAgent crates protocol).step msg s).1
  grantsNothing : ((cloudAgent crates protocol).step msg s).1.isForOwner = false

/-- A run against the run without the messages of strangers. -/
structure KeepsOut (s : CloudAgent) (msgs : List Incoming) : Prop where
  undisturbed : ((cloudAgent crates protocol).run msgs s).Undisturbed
    ((cloudAgent crates protocol).run
      ((cloudAgent crates protocol).purge (fun s msg => !s.isStranger msg) s msgs) s)
  answers : (cloudAgent crates protocol).Along
    (fun s msg => s.isStranger msg → TellsNothing crates protocol s msg) s msgs

end Promises

/-! ### What strangers may send -/

/-- The kinds that the agent handles, whoever sends them. -/
def handledByAgent : A2AMessage → Bool
  | .version1 (.createKey _) | .version2 (.createKey _)
  | .version1 (.getMessagesByConnections _) | .version2 (.getMessagesByConnections _)
  | .version1 (.updateMessageStatusByConnections _)
  | .version2 (.updateMessageStatusByConnections _)
  | .version1 (.updateConfigs _) | .version2 (.updateConfigs _)
  | .version1 (.getConfigs _) | .version2 (.getConfigs _)
  | .version1 (.removeConfigs _) | .version2 (.removeConfigs _) => true
  | _ => false

/-- What a connection that is not established takes from anyone: messages, and answers to a
request. -/
def takenFromAnyone : List A2AMessage → Bool
  | .version1 (.createMessage _) :: .version1 (.messageDetail (.general _)) :: _ => true
  | .version1 (.createMessage msg) ::
      .version1 (.messageDetail (.connectionRequestAnswer _)) :: _ =>
    msg.mtype = .connReqAnswer ∧ msg.replyToMsgId.isSome
  | .version2 (.connectionRequestAnswer msg) :: _ => msg.replyToMsgId.isSome
  | .version2 (.sendRemoteMessage _) :: _ => true
  | _ => false

/-- The condition on the message of a stranger. -/
def CloudAgent.refuses (s : CloudAgent) (msg : Incoming) : Bool :=
  match s.router.routes msg.did with
  | some .agent => msg.msgs.getLast?.all fun last => !handledByAgent last
  | some (.agentConnection agentPairwiseDid) =>
    (s.connections.lookup agentPairwiseDid).all fun connection =>
      connection.state.remoteConnectionDetail.isSome || !takenFromAnyone msg.msgs
  | _ => true

/-! ### Connections refuse strangers -/

namespace AgentConnection

variable {crates : ConnectionCrates} {slf : AgentConnectionConfig} {state : AgentConnectionState}
  {senderVk : String}

/-- The sender is neither the owner, nor the other side of an established connection. -/
def Refusing (slf : AgentConnectionConfig) (state : AgentConnectionState) (senderVk : String)
    (established : Bool) : Prop :=
  isSentByOwner slf senderVk = false ∧ state.isSentByRemote senderVk = !established

theorem handleCreateConnectionRequest_stranger
    (msgDetail : ConnectionRequestMessageDetail) (delivery : Delivery)
    (howner : isSentByOwner slf senderVk = false) :
    handleCreateConnectionRequest crates slf state msgDetail senderVk delivery =
      ⟨.done (.err "Unknown message sender."), state, []⟩ := by
  unfold handleCreateConnectionRequest validateConnectionRequest
  rw [howner]
  rfl

theorem handleCreateConnectionRequestAnswer_noReply
    (msgDetail : ConnectionRequestAnswerMessageDetail) {replyToMsgId : Option String}
    (msgUid : Option String) (delivery : Delivery) (hreply : replyToMsgId = none) :
    handleCreateConnectionRequestAnswer crates slf state msgDetail replyToMsgId msgUid senderVk
        delivery =
      ⟨.done (.err "Required field `reply_to_msg_id` is missed."), state, []⟩ := by
  subst hreply
  rfl

theorem handleCreateMessage_stranger (msg : CreateMessage) (tail : List A2AMessage)
    (htaken : takenFromAnyone (.version1 (.createMessage msg) :: tail) = false) : 
    ∃ e, ∀ crates protocol slf state senderVk world, isSentByOwner slf senderVk = false →
      handleCreateMessage crates protocol slf state msg tail senderVk world =
        ⟨.done (.err e), state, []⟩ := by
  obtain ⟨mtype, sendMsg, uid, replyToMsgId⟩ := msg
  rcases tail with _ | ⟨detail, tail⟩
  · exact ⟨_, fun _ _ _ _ _ _ _ => by cases mtype <;> rfl⟩
  rcases detail with detail | detail
  · cases detail with
    | messageDetail detail =>
      cases detail with
      | general detail => exact absurd htaken Bool.noConfusion
      | connectionRequest detail =>
        cases mtype with
        | connReq =>
          exact ⟨_, fun _ _ _ _ _ _ howner => handleCreateConnectionRequest_stranger _ _ howner⟩
        | _ => exact ⟨_, fun _ _ _ _ _ _ _ => rfl⟩
      | connectionRequestAnswer detail =>
        cases mtype with
        | connReqAnswer =>
          cases replyToMsgId with
          | none => exact ⟨_, fun _ _ _ _ _ _ _ => rfl⟩
          | some replyToMsgId => exact absurd htaken Bool.noConfusion
        | _ => exact ⟨_, fun _ _ _ _ _ _ _ => rfl⟩
      | connectionRequestResp | send => exact ⟨_, fun _ _ _ _ _ _ _ => by cases mtype <;> rfl⟩
    | _ => exact ⟨_, fun _ _ _ _ _ _ _ => by cases mtype <;> rfl⟩
  · exact ⟨_, fun _ _ _ _ _ _ _ => by cases mtype <;> rfl⟩


theorem checkMessageSender_refusing {senderVk : String} (msg : Option A2AMessage) :
    ∃ e, ∀ slf state, Refusing slf state senderVk true →
      checkMessageSender slf state msg senderVk = .err e := by
  have hknown : ∀ slf state, Refusing slf state senderVk true →
      (isSentByOwner slf senderVk || state.isSentByRemote senderVk) = false := by
    intro slf state h
    rw [h.1, h.2]
    rfl
  rcases msg with _ | msg | msg
  · exact ⟨_, fun _ _ _ => rfl⟩
  · cases msg with
    | createMessage msg =>
      exact ⟨"Invalid message sender.", fun slf state h => by
        simp only [checkMessageSender, hknown slf state h, Bool.false_eq_true, if_false]⟩
    | sendMessages | getMessages | updateConnectionStatus | updateMessageStatus =>
      exact ⟨"Invalid message sender.", fun _ _ h => by
        simp only [checkMessageSender, h.1, Bool.false_eq_true, if_false]⟩
    | _ => exact ⟨_, fun _ _ _ => rfl⟩
  · cases msg with
    | connectionRequest | connectionRequestAnswer | sendRemoteMessage =>
      exact ⟨"Invalid message sender.", fun slf state h => by
        simp only [checkMessageSender, hknown slf state h, Bool.false_eq_true, if_false]⟩
    | sendMessages | getMessages | updateConnectionStatus | updateMessageStatus =>
      exact ⟨"Invalid message sender.", fun _ _ h => by
        simp only [checkMessageSender, h.1, Bool.false_eq_true, if_false]⟩
    | _ => exact ⟨_, fun _ _ _ => rfl⟩

/-- Without another side, a check of the sender leaves what anyone may send. -/
theorem handleA2aMsg_unestablished {senderVk : String} {msgs : List A2AMessage}
    (htaken : takenFromAnyone msgs = false) :
    ∃ e, ∀ crates protocol slf state world, Refusing slf state senderVk false →
      handleA2aMsg crates protocol slf state senderVk msgs world =
        ⟨.done (.err e), state, []⟩ := by
  rcases msgs with _ | ⟨msg | msg, tail⟩
  · exact ⟨_, fun _ _ _ _ _ _ => rfl⟩
  · cases msg with
    | createMessage msg =>
      obtain ⟨e, he⟩ := handleCreateMessage_stranger msg tail htaken
      refine ⟨e, fun crates protocol slf state world h => ?_⟩
      unfold handleA2aMsg checkMessageSender
      rw [h.1, h.2]
      exact he crates protocol slf state senderVk world h.1
    | sendMessages | getMessages | updateConnectionStatus | updateMessageStatus =>
      refine ⟨"Invalid message sender.", fun crates protocol slf state world h => ?_⟩
      unfold handleA2aMsg checkMessageSender
      rw [h.1]
      rfl
    | _ => exact ⟨_, fun _ _ _ _ _ _ => rfl⟩
  · cases msg with
    | connectionRequest msg =>
      refine ⟨"Unknown message sender.", fun crates protocol slf state world h => ?_⟩
      unfold handleA2aMsg checkMessageSender
      rw [h.1, h.2]
      exact handleCreateConnectionRequest_stranger _ _ h.1
    | connectionRequestAnswer msg =>
      have hreply : msg.replyToMsgId = none := not_isSome_iff_eq_none.mp fun hsome =>
        Bool.false_ne_true (htaken.symm.trans hsome)
      refine ⟨"Required field `reply_to_msg_id` is missed.",
        fun crates protocol slf state world h => ?_⟩
      unfold handleA2aMsg checkMessageSender
      rw [h.1, h.2]
      exact handleCreateConnectionRequestAnswer_noReply _ _ _ hreply
    | sendRemoteMessage msg => exact absurd htaken Bool.noConfusion
    | sendMessages | getMessages | updateConnectionStatus | updateMessageStatus =>
      refine ⟨"Invalid message sender.", fun crates protocol slf state world h => ?_⟩
      unfold handleA2aMsg checkMessageSender
      rw [h.1]
      rfl
    | _ => exact ⟨_, fun _ _ _ _ _ _ => rfl⟩

theorem handleA2aMsg_refusing {msgs : List A2AMessage} (senderVk : String) {established : Bool}
    (htaken : established = false → takenFromAnyone msgs = false) :
    ∃ e, ∀ crates protocol slf state world, Refusing slf state senderVk established →
      handleA2aMsg crates protocol slf state senderVk msgs world =
        ⟨.done (.err e), state, []⟩ := by
  cases established with
  | true =>
    obtain ⟨e, he⟩ := checkMessageSender_refusing msgs.head?
    refine ⟨e, fun crates protocol slf state world h => ?_⟩
    unfold handleA2aMsg
    rw [he slf state h]
    rfl
  | false => exact handleA2aMsg_unestablished (htaken rfl)

end AgentConnection

/-! ### A stranger's message leaves everything as it is -/

namespace CloudAgent

variable {crates : ConnectionCrates} {protocol : ProtocolTypes} {s : CloudAgent} {msg : Incoming}
  {connection : Connection}

theorem setConnectionState_self {agentPairwiseDid : String}
    (h : s.connections.lookup agentPairwiseDid = some connection) :
    s.setConnectionState agentPairwiseDid connection connection.state = s := by
  have hsame : s.connections.replace agentPairwiseDid connection = s.connections :=
    AList.ext (List.kreplace_self s.connections.nodupKeys (AList.mem_lookup_iff.mp h))
  unfold setConnectionState
  rw [hsame]

theorem handleConnection_failed {agentPairwiseDid senderVk e : String} {msgs : List A2AMessage}
    {world : AgentWorld} (hconnection : s.connections.lookup agentPairwiseDid = some connection)
    (hturn : AgentConnection.handleA2aMsg crates protocol connection.config connection.state
      senderVk msgs (world.turns.headD {}) = ⟨.done (.err e), connection.state, []⟩) :
    s.handleConnection crates protocol world agentPairwiseDid connection senderVk msgs =
      (.msgs (.err e), s) := by
  unfold handleConnection
  rw [hturn]
  unfold settle
  dsimp only
  rw [setConnectionState_self hconnection]
  rfl

theorem handleAgent_unhandled (crates : ConnectionCrates) (protocol : ProtocolTypes)
    (world : AgentWorld) {msgs : List A2AMessage}
    (h : (msgs.getLast?.all fun last => !handledByAgent last) = true) :
    ∃ answer : Answer, answer.isForOwner = false ∧ ∀ (s : CloudAgent) (agent : Agent),
      s.handleAgent crates protocol world agent msgs = (answer, s) := by
  have hunsupported : Answer.isForOwner (.msgs (.err "Unsupported message")) = false := rfl
  unfold handleAgent
  cases hlast : msgs.getLast? with
  | none => exact ⟨_, hunsupported, fun _ _ => rfl⟩
  | some last =>
    have hkind : handledByAgent last = false := by
      rw [hlast] at h
      simpa using h
    rcases last with msg | msg
    · cases msg with
      | createKey | getMessagesByConnections | updateMessageStatusByConnections | updateConfigs
      | getConfigs | removeConfigs => exact absurd hkind Bool.noConfusion
      | forward msg => exact ⟨.forwarded msg.fwd, rfl, fun _ _ => rfl⟩
      | updateComMethod msg =>
        refine ⟨.msgs (respond world "Can't bundle and authcrypt message."
          (.ok [.version1 (.comMethodUpdated ⟨"123"⟩)])), ?_, fun _ _ => rfl⟩
        unfold respond
        cases world.encrypts <;> rfl
      | _ => exact ⟨_, hunsupported, fun _ _ => rfl⟩
    · cases msg with
      | createKey | getMessagesByConnections | updateMessageStatusByConnections | updateConfigs
      | getConfigs | removeConfigs => exact absurd hkind Bool.noConfusion
      | forward msg => exact ⟨.forwarded msg.fwd, rfl, fun _ _ => rfl⟩
      | _ => exact ⟨_, hunsupported, fun _ _ => rfl⟩

theorem isStranger_iff : s.isStranger msg = true ↔ msg.senderVk ≠ s.theirVerkey ∧
    ∀ connection, s.connectionAt msg.did = some connection →
      AgentConnection.Refusing connection.config connection.state msg.senderVk
        connection.state.remoteConnectionDetail.isSome := by
  have hrefusing : ∀ connection : Connection,
      (msg.senderVk != connection.config.userPairwiseVerkey &&
        connection.state.remoteConnectionDetail.all fun detail =>
          msg.senderVk != detail.agentKeyDlgProof.agentDelegatedKey) = true ↔
      AgentConnection.Refusing connection.config connection.state msg.senderVk
        connection.state.remoteConnectionDetail.isSome := by
    intro connection
    unfold AgentConnection.Refusing AgentConnection.isSentByOwner
      AgentConnectionState.isSentByRemote
    cases connection.state.remoteConnectionDetail with
    | none => simp
    | some detail => simp
  unfold isStranger
  rw [Bool.and_eq_true, bne_iff_ne, all_eq_true]
  exact and_congr_right fun _ => forall₂_congr fun connection _ => hrefusing connection

theorem sameOutline_refl (s : CloudAgent) : s.SameOutline s := ⟨rfl, rfl, rfl, fun _ => rfl⟩

theorem refusing_of_outline {connection' : Connection} {senderVk : String} {established : Bool}
    (he : connection'.outline = connection.outline)
    (h : AgentConnection.Refusing connection.config connection.state senderVk established) :
    AgentConnection.Refusing connection'.config connection'.state senderVk established := by
  have hverkey : connection'.config.userPairwiseVerkey = connection.config.userPairwiseVerkey :=
    congrArg (fun outline => outline.config.userPairwiseVerkey) he
  have hdetail : connection'.state.remoteConnectionDetail =
      connection.state.remoteConnectionDetail :=
    congrArg (fun outline => outline.state.remoteConnectionDetail) he
  unfold AgentConnection.Refusing AgentConnection.isSentByOwner
    AgentConnectionState.isSentByRemote at h ⊢
  rw [hverkey, hdetail]
  exact h

variable (crates protocol) in
theorem step_refused (hstranger : s.isStranger msg = true) (hrefuses : s.refuses msg = true) :
    ∃ answer : Answer, answer.isForOwner = false ∧ ∀ s', s.SameOutline s' →
      (cloudAgent crates protocol).step msg s' = (answer, s') := by
  obtain ⟨howner, hsides⟩ := isStranger_iff.mp hstranger
  unfold cloudAgent routeA2aMsg
  unfold refuses at hrefuses
  unfold connectionAt at hsides
  cases hroute : s.router.routes msg.did with
  | none =>
    refine ⟨.msgs (.err "No route found."), rfl, fun s' hs' => ?_⟩
    dsimp only
    rw [hs'.router, hroute]
  | some actor =>
    rw [hroute] at hrefuses hsides
    cases actor with
    | forwardAgentConnection =>
      refine ⟨.msgs (.err "Inconsistent sender and connection pairwise verkeys"), rfl,
        fun s' hs' => ?_⟩
      dsimp only
      rw [hs'.router, hroute]
      have hne : s'.theirVerkey ≠ msg.senderVk := hs'.theirVerkey ▸ howner.symm
      unfold handleForwardAgentConnection
      rw [if_pos hne]
    | agent =>
      cases hagent : s.agent with
      | none =>
        refine ⟨.msgs (.err "No route found."), rfl, fun s' hs' => ?_⟩
        dsimp only
        rw [hs'.router, hroute, map_eq_none_iff.mp (hs'.agent.trans (by rw [hagent]; rfl))]
      | some agent =>
        obtain ⟨answer, hanswer, hhandled⟩ :=
          handleAgent_unhandled crates protocol msg.world hrefuses
        refine ⟨answer, hanswer, fun s' hs' => ?_⟩
        have hsome := hs'.agent
        rw [hagent, map_some] at hsome
        obtain ⟨agent', hagent', -⟩ := map_eq_some_iff.mp hsome
        dsimp only
        rw [hs'.router, hroute, hagent']
        exact hhandled s' agent'
    | agentConnection agentPairwiseDid =>
      cases hconnection : s.connections.lookup agentPairwiseDid with
      | none =>
        refine ⟨.msgs (.err "No route found."), rfl, fun s' hs' => ?_⟩
        have hnone := hs'.connections agentPairwiseDid
        rw [hconnection, map_none, map_eq_none_iff] at hnone
        dsimp only
        rw [hs'.router, hroute]
        dsimp only
        rw [hnone]
      | some connection =>
        have htaken : connection.state.remoteConnectionDetail.isSome = false →
            takenFromAnyone msg.msgs = false := by
          intro hnone
          have hrefused := (all_eq_true _ _).mp hrefuses connection hconnection
          rw [hnone, Bool.false_or] at hrefused
          simpa using hrefused
        obtain ⟨e, he⟩ := AgentConnection.handleA2aMsg_refusing msg.senderVk htaken
        refine ⟨.msgs (.err e), rfl, fun s' hs' => ?_⟩
        have hsome := hs'.connections agentPairwiseDid
        rw [hconnection, map_some] at hsome
        obtain ⟨connection', hconnection', houtline⟩ := map_eq_some_iff.mp hsome
        dsimp only
        rw [hs'.router, hroute]
        dsimp only
        rw [hconnection']
        exact handleConnection_failed hconnection'
          (he _ _ _ _ _ (refusing_of_outline houtline (hsides connection hconnection)))

end CloudAgent

/-! ### Runs -/

section Runs

variable (crates : ConnectionCrates) (protocol : ProtocolTypes)

/-- Whatever the owner, the two sides of its connections and strangers send, in any order: as long
as strangers send neither what the agent handles nor what a connection that is not established
takes from anyone, their messages change nothing and are told nothing. -/
theorem strangers_keptOut (s : CloudAgent) (msgs : List Incoming)
    (h : (cloudAgent crates protocol).Along (fun s msg => s.isStranger msg → s.refuses msg) s
      msgs) : KeepsOut crates protocol s msgs where
  undisturbed := by
    have hsame : (cloudAgent crates protocol).run
        ((cloudAgent crates protocol).purge (fun s msg => !s.isStranger msg) s msgs) s =
          (cloudAgent crates protocol).run msgs s := by
      refine Machine.run_purge (Machine.along_mono (fun s msg hrefuses hstranger => ?_) h)
      have hstranger' : s.isStranger msg = true := by simpa using hstranger
      obtain ⟨answer, -, hstep⟩ :=
        CloudAgent.step_refused crates protocol hstranger' (hrefuses hstranger')
      rw [hstep s (CloudAgent.sameOutline_refl s)]
    rw [hsame]
    exact ⟨rfl, rfl, fun _ => rfl, fun _ => rfl,
      fun _ connection hconnection _ => ⟨connection, hconnection, rfl⟩⟩
  answers := by
    refine Machine.along_mono (fun s msg hrefuses hstranger => ?_) h
    obtain ⟨answer, hanswer, hstep⟩ :=
      CloudAgent.step_refused crates protocol hstranger (hrefuses hstranger)
    constructor
    · intro s' hs'
      rw [hstep s' hs', hstep s (CloudAgent.sameOutline_refl s)]
    · rw [hstep s (CloudAgent.sameOutline_refl s)]
      exact hanswer

end Runs

/-! ### A stranger at the agent -/

/-- An owner who signs up and has an agent made. -/
def ownedAgent : List Incoming :=
  [{ did := "forward", senderVk := "ownerKey", msgs := [.version1 .signUp] },
    { did := "forward", senderVk := "ownerKey", msgs := [.version1 .createAgent],
      world := { did := "agent", verkey := "agentKey" } }]

def exampleOwner : CloudAgent :=
  .connected "owner" "ownerKey" "forward" "forwardKey" exampleDetail

theorem strangers_keptOut_ownedAgent : KeepsOut exampleCrates .V1 exampleOwner (ownedAgent ++
    [{ did := "agent", senderVk := "ownerKey", msgs := [.version1 (.createKey ⟨"user", "userKey"⟩)],
        world := { did := "pairwise", verkey := "pairwiseKey" } },
      { did := "forward", senderVk := "strangerKey", msgs := [.version1 .signUp] },
      { did := "agent", senderVk := "strangerKey", msgs := [.version1 .signUp] },
      { did := "pairwise", senderVk := "strangerKey",
        msgs := [.version1 (.getMessages ⟨none, [], []⟩)] }]) :=
  strangers_keptOut exampleCrates .V1 exampleOwner _ (by decide +kernel)

/-- The agent takes its settings from a stranger. -/
theorem stranger_updates_configs : ¬ KeepsOut exampleCrates .V1 exampleOwner (ownedAgent ++
    [{ did := "agent", senderVk := "strangerKey",
        msgs := [.version1 (.updateConfigs ⟨[⟨"name", "stranger"⟩]⟩)] }]) := by
  rintro ⟨hundisturbed, -⟩
  have hname := congrArg (Option.map fun configs => configs.lookup "name") hundisturbed.configs
  exact absurd hname (by decide +kernel)

end IndySdk.Agency
