import IndySdk.ConnectionTurns

/-!
# Messages that stop a connection

A connection unwraps what it has not checked: the sender of a packed message, the signature of a key
delegation proof, the messages that it is asked to send, and the payloads that it returns as JSON.
The other messages it unwraps are there, since no turn removes a message.
-/

namespace IndySdk.Agency

open Outcome List

/-! ### Messages from outside -/

/-- What decrypting a message and reading it gives. -/
structure MessageCrates where
  authDecrypt : List UInt8 → Option (String × List UInt8)
  unbundle : List UInt8 → Option (List A2AMessage)
  unpackMessage : List UInt8 → Option (String × Option String)
  fromStr : String → Option A2AMessage

namespace MessageCrates

variable (crates : MessageCrates)

def unbundleAuthcrypted (bundle : List UInt8) : AgentResult (String × List A2AMessage) := do
  let (senderVk, bundle) ← ofOption "Can't unbundle message." (crates.authDecrypt bundle)
  let msgs ← ofOption "Can't unbundle messages" (crates.unbundle bundle)
  .ok (senderVk, msgs)

def unpack (message : List UInt8) : AgentResult (Option String × List A2AMessage) := do
  let (message, senderVerkey) ←
    ofOption "Can't unbundle message." (crates.unpackMessage message)
  let msg ← ofOption "Can't unpack message" (crates.fromStr message)
  .ok (senderVerkey, [msg])

/-- A packed message need not name its sender. -/
def parseAuthcrypted (protocol : ProtocolTypes) (message : List UInt8) :
    AgentResult (String × List A2AMessage) :=
  match protocol with
  | .V1 => crates.unbundleAuthcrypted message
  | .V2 => do
    let (senderVk, msgs) ← crates.unpack message
    let senderVk ← unwrap senderVk
    .ok (senderVk, msgs)

end MessageCrates

/-- A message as it arrives, or a message of the agent itself. -/
inductive Arrival where
  | a2a (message : List UInt8) (world : TurnWorld)
  | a2conn (msg : A2ConnMessage)

section Definitions

variable (messageCrates : MessageCrates) (crates : ConnectionCrates) (protocol : ProtocolTypes)
  (slf : AgentConnectionConfig)

/-- The turns of the messages that arrive. A message that cannot be read has no turns. -/
def arrivalTurns : Turns Recorded Arrival Task TurnWorld (AgentResult Reply) where
  start
    | .a2a message world, s =>
      match messageCrates.parseAuthcrypted protocol message with
      | .ok (senderVk, msgs) =>
        (connectionTurns crates protocol slf).start (.a2a senderVk msgs world) s
      | .err e => (.inr (.err e), s)
      | .panic => (.inr .panic, s)
    | .a2conn msg, s => (connectionTurns crates protocol slf).start (.a2conn msg) s
  resume := (connectionTurns crates protocol slf).resume
  fatal := (connectionTurns crates protocol slf).fatal

/-! ### What a message must not hold -/

def Decodes (keyDlgProof : KeyDlgProof) : Prop :=
  (crates.base64Decode keyDlgProof.signature).isSome

variable (state : AgentConnectionState)

/-- The signature of a request that passes the checks decodes. -/
def RequestHarmless (msgDetail : ConnectionRequestMessageDetail) (senderVk : String) : Prop :=
  AgentConnection.validateConnectionRequest slf state senderVk = .ok () →
    Decodes crates msgDetail.keyDlgProof

/-- The signature that is checked first, in an answer that passes the checks, decodes. -/
def AnswerHarmless (msgDetail : ConnectionRequestAnswerMessageDetail)
    (replyToMsgId : Option String) (senderVk : String) : Prop :=
  ∀ msgId, replyToMsgId = some msgId →
    state.validateConnectionRequestAnswer msgDetail msgId = .ok () →
      match AgentConnection.getMessageHandlerRole slf senderVk with
      | .owner => ∀ proof, msgDetail.keyDlgProof = some proof → Decodes crates proof
      | .remote => Decodes crates msgDetail.senderDetail.agentKeyDlgProof

/-- The messages to send are stored. -/
def SendHarmless (msg : SendMessages) : Prop :=
  ∀ uid ∈ msg.uids, (state.messages.lookup uid).isSome

def Selected (msg : GetMessages) (message : InternalMessage) : Prop :=
  (msg.uids = [] ∨ message.uid ∈ msg.uids) ∧
    (msg.statusCodes = [] ∨ message.statusCode ∈ msg.statusCodes)

/-- The payloads that are returned as JSON are JSON. -/
def ReadHarmless (msg : GetMessages) : Prop :=
  protocol = .V2 → msg.excludePayload ≠ some "Y" →
    ∀ message ∈ state.messages.values, Selected msg message →
      ∀ payload, message.payload = some payload → (crates.fromSlice payload).isSome

def MessageHarmless (senderVk : String) : List A2AMessage → Prop
  | .version1 (.createMessage msg) :: tail =>
    match msg.mtype, tail with
    | .connReq, .version1 (.messageDetail (.connectionRequest detail)) :: _ =>
      RequestHarmless crates slf state detail senderVk
    | .connReqAnswer, .version1 (.messageDetail (.connectionRequestAnswer detail)) :: _ =>
      AnswerHarmless crates slf state detail msg.replyToMsgId senderVk
    | _, _ => True
  | .version2 (.connectionRequest msg) :: _ =>
    RequestHarmless crates slf state msg.toDetail senderVk
  | .version2 (.connectionRequestAnswer msg) :: _ =>
    AnswerHarmless crates slf state msg.toDetail msg.replyToMsgId senderVk
  | .version1 (.sendMessages msg) :: _ | .version2 (.sendMessages msg) :: _ =>
    SendHarmless state msg
  | .version1 (.getMessages msg) :: _ | .version2 (.getMessages msg) :: _ =>
    ReadHarmless crates protocol state msg
  | _ => True

/-- The second signature of an owner's answer decodes. -/
def ResumeHarmless (awaiting : Awaiting) (world : TurnWorld) : Prop :=
  match awaiting with
  | .ownProof msgDetail _ _ _ =>
    world.succeeded → Decodes crates msgDetail.senderDetail.agentKeyDlgProof
  | _ => True

/-- A message whose sender may send it is harmless, and a packed message that can be read names its
sender. -/
def ArrivalHarmless (message : List UInt8) : Prop :=
  match protocol with
  | .V1 => ∀ senderVk msgs, messageCrates.unbundleAuthcrypted message = .ok (senderVk, msgs) →
    AgentConnection.checkMessageSender slf state msgs.head? senderVk = .ok () →
      MessageHarmless crates .V1 slf state senderVk msgs
  | .V2 => ∀ senderVk msgs, messageCrates.unpack message = .ok (senderVk, msgs) →
    ∃ vk, senderVk = some vk ∧
      (AgentConnection.checkMessageSender slf state msgs.head? vk = .ok () →
        MessageHarmless crates .V2 slf state vk msgs)

/-- While the connection runs, what arrives is harmless. -/
def Harmless (s : Turns.Running Recorded Task) (event : Turns.Event Arrival TurnWorld) : Prop :=
  s.stopped = false →
    match event with
    | .start (.a2a message _) =>
      ArrivalHarmless messageCrates crates protocol slf s.state.state message
    | .start (.a2conn _) => True
    | .resume index world => ∀ flight, s.flights[index]? = some flight →
      ResumeHarmless crates flight.waiting.awaiting world

/-- Handling a message of somebody else answers or fails. -/
def NeverPanics (s : Turns.Running Recorded Task) (event : Turns.Event Arrival TurnWorld) : Prop :=
  (∀ msg, event ≠ .start (.a2conn msg)) →
    ((arrivalTurns messageCrates crates protocol slf).machine.step event s).1 ≠ some .panic

end Definitions

/-! ### What is never missing -/

namespace AgentConnectionState

/-- No message is removed. -/
def KeepsMessages (s s' : AgentConnectionState) : Prop :=
  ∀ uid, (s.messages.lookup uid).isSome → (s'.messages.lookup uid).isSome

variable {s s' s'' : AgentConnectionState} {uid : String}

theorem KeepsMessages.refl (s : AgentConnectionState) : s.KeepsMessages s := fun _ h => h

theorem KeepsMessages.trans (h : s.KeepsMessages s') (h' : s'.KeepsMessages s'') :
    s.KeepsMessages s'' := fun uid hsome => h' uid (h uid hsome)

theorem isSome_insert {messages : AssocMap String InternalMessage} {uid' : String}
    {message : InternalMessage} (h : (messages.lookup uid).isSome ∨ uid = uid') :
    ((messages.insert uid' message).lookup uid).isSome := by
  by_cases he : uid = uid'
  · rw [he, AList.lookup_insert]
    rfl
  · rw [AList.lookup_insert_ne he]
    exact h.resolve_right he

theorem createAndStore_keeps (s : AgentConnectionState) (msg : InternalMessage) :
    s.KeepsMessages (s.createAndStoreInternalMessage msg) :=
  fun _ h => isSome_insert (.inl h)

theorem isSome_createAndStore (s : AgentConnectionState) (msg : InternalMessage) :
    ((s.createAndStoreInternalMessage msg).messages.lookup msg.uid).isSome :=
  isSome_insert (.inr rfl)

theorem changeMessage_keeps {change : InternalMessage → InternalMessage}
    (h : s.changeMessage uid change = some s') : s.KeepsMessages s' := by
  obtain ⟨message, -, rfl⟩ := Option.map_eq_some_iff.mp h
  exact fun _ h => isSome_insert (.inl h)

theorem changeMessage_eq_none_iff {change : InternalMessage → InternalMessage} :
    s.changeMessage uid change = none ↔ ¬ (s.messages.lookup uid).isSome := by
  rw [changeMessage, Option.map_eq_none_iff, Option.not_isSome_iff_eq_none]

theorem answerMessage_keeps {refMsgId : String} {statusCode : MessageStatusCode}
    (h : s.answerMessage uid refMsgId statusCode = .ok s') : s.KeepsMessages s' :=
  changeMessage_keeps (ofOption_eq_ok.mp h)

theorem updateEach_keeps (statusCode : MessageStatusCode) (uids : List String)
    (s : AgentConnectionState) : s.KeepsMessages (updateEach statusCode uids s).2 := by
  induction uids generalizing s with
  | nil => exact KeepsMessages.refl s
  | cons uid uids ih =>
    rw [updateEach]
    split
    · rename_i next hnext
      exact (changeMessage_keeps (ofOption_eq_ok.mp hnext)).trans (ih next)
    · exact KeepsMessages.refl s
    · exact KeepsMessages.refl s

theorem updateMessagesStatus_keeps (s : AgentConnectionState) (msg : UpdateMessageStatus) :
    s.KeepsMessages (s.updateMessagesStatus msg).2 := by
  unfold updateMessagesStatus
  split
  · exact updateEach_keeps msg.statusCode msg.uids s
  · exact KeepsMessages.refl s

end AgentConnectionState

/-- The message that a waiting handler goes on with is stored. -/
def Awaiting.Stored (state : AgentConnectionState) : Awaiting → Prop
  | .senderDid _ _ uid _ | .senderAgencyDid _ _ uid _ | .answerPayload uid _ =>
    (state.messages.lookup uid).isSome
  | _ => True

theorem Awaiting.Stored.kept {s s' : AgentConnectionState} (hkept : s.KeepsMessages s')
    {awaiting : Awaiting} (h : awaiting.Stored s) : awaiting.Stored s' := by
  cases awaiting with
  | senderDid | senderAgencyDid | answerPayload => exact hkept _ h
  | requestProof | ownProof | senderProof | remoteProof | sent | persisted | encrypted => trivial

structure Turn.Grounded (state : AgentConnectionState) (turn : Turn) : Prop where
  kept : state.KeepsMessages turn.state
  stored : ∀ awaiting, turn.progress = .awaiting awaiting → awaiting.Stored turn.state

namespace AgentConnection

variable {crates : ConnectionCrates} {protocol : ProtocolTypes} {slf : AgentConnectionConfig}
  {state : AgentConnectionState} {world : TurnWorld} {msgs : List A2AMessage} {awaiting : Awaiting}
  {delivery : Delivery} {uid : String}

theorem grounded_done (state : AgentConnectionState) (result : AgentResult (List A2AMessage)) :
    Turn.Grounded state ⟨.done result, state, []⟩ :=
  ⟨.refl state, fun _ h => by cases h⟩

theorem grounded_persist (state : AgentConnectionState) (msgs : List A2AMessage) :
    Turn.Grounded state ⟨persistConnectionState state msgs, state, []⟩ := by
  refine ⟨.refl state, fun _ h => ?_⟩
  cases h
  trivial

theorem grounded_ofResult {α : Type} {result : AgentResult α} {next : α → Turn}
    (h : ∀ a, result = .ok a → (next a).Grounded state) :
    (Turn.ofResult state result next).Grounded state := by
  cases result with
  | ok a => exact h a rfl
  | err e => exact grounded_done state (.err e)
  | panic => exact grounded_done state .panic

theorem sendAll_stored {toSend : List (String × Option String)} {reported : Bool}
    (h : sendAll crates protocol slf state world toSend msgs reported = .awaiting awaiting)
    (s : AgentConnectionState) : awaiting.Stored s := by
  unfold sendAll at h
  dsimp only at h
  split at h
  · cases h
    trivial
  · cases h
    trivial
  · cases h
  · cases h

theorem sendMessageIfNeeded_stored
    (h : sendMessageIfNeeded crates protocol slf state world delivery uid msgs =
      .awaiting awaiting) (s : AgentConnectionState) : awaiting.Stored s := by
  unfold sendMessageIfNeeded at h
  split at h
  · exact sendAll_stored h s
  · cases h
    trivial

theorem verify_grounded {proof : KeyDlgProof} {next : Awaiting} (h : next.Stored state) :
    (verifyAgentKeyDlgProof crates state proof next).Grounded state := by
  unfold verifyAgentKeyDlgProof
  split
  · refine ⟨.refl state, fun _ he => ?_⟩
    cases he
    exact h
  · exact grounded_done state .panic

theorem handleCreateConnectionRequestAnswer_grounded
    (msgDetail : ConnectionRequestAnswerMessageDetail) (replyToMsgId msgUid : Option String)
    (senderVk : String) (delivery : Delivery) :
    (handleCreateConnectionRequestAnswer crates slf state msgDetail replyToMsgId msgUid senderVk
      delivery).Grounded state := by
  refine grounded_ofResult fun next hnext => verify_grounded ?_
  obtain ⟨id, -, hnext⟩ := bind_eq_ok_iff.mp hnext
  obtain ⟨_, -, hnext⟩ := bind_eq_ok_iff.mp hnext
  split at hnext
  · obtain ⟨proof, -, hnext⟩ := bind_eq_ok_iff.mp hnext
    cases hnext
    trivial
  · cases hnext
    trivial

theorem answerIfReply_keeps {replyToMsgId : Option String} {state' : AgentConnectionState}
    (h : answerIfReply state replyToMsgId uid = .ok state') :
    state.KeepsMessages state' := by
  unfold answerIfReply at h
  split at h
  · split at h
    · rename_i hanswer
      cases h
      exact AgentConnectionState.answerMessage_keeps hanswer
    · cases h
  · cases h
    exact .refl state

theorem handleCreateGeneralMessage_grounded (mtype : RemoteMessageType)
    (msgDetail : GeneralMessageDetail) (replyToMsgId uid : Option String) (senderVk : String)
    (delivery : Delivery) :
    (handleCreateGeneralMessage crates protocol slf state mtype msgDetail replyToMsgId uid
      senderVk delivery world).Grounded state := by
  refine grounded_ofResult fun _ _ => ?_
  dsimp only
  split
  · rename_i hanswer
    refine ⟨(AgentConnectionState.createAndStore_keeps _ _).trans (answerIfReply_keeps hanswer),
      fun _ h => sendMessageIfNeeded_stored h _⟩
  · exact ⟨AgentConnectionState.createAndStore_keeps _ _, fun _ h => by cases h⟩
  · exact ⟨AgentConnectionState.createAndStore_keeps _ _, fun _ h => by cases h⟩

theorem handleUpdateConnectionStatus_grounded (msg : UpdateConnectionStatus) :
    (handleUpdateConnectionStatus protocol state msg).Grounded state := by
  unfold handleUpdateConnectionStatus
  split
  · exact grounded_done state _
  · refine ⟨fun _ h => h, fun _ h => ?_⟩
    cases h
    trivial

theorem handleUpdateMessageStatus_grounded (msg : UpdateMessageStatus) :
    (handleUpdateMessageStatus protocol state msg).Grounded state := by
  have hkept := AgentConnectionState.updateMessagesStatus_keeps state msg
  unfold handleUpdateMessageStatus
  generalize state.updateMessagesStatus msg = updated at hkept ⊢
  obtain ⟨result, updated⟩ := updated
  cases result with
  | ok answer =>
    refine ⟨hkept, fun _ h => ?_⟩
    cases h
    trivial
  | err e => exact ⟨hkept, fun _ h => by cases h⟩
  | panic => exact ⟨hkept, fun _ h => by cases h⟩

theorem handleA2aMsg_grounded (senderVk : String) (msgs : List A2AMessage) :
    (handleA2aMsg crates protocol slf state senderVk msgs world).Grounded state := by
  refine grounded_ofResult fun _ _ => ?_
  split
  · unfold handleCreateMessage
    dsimp only
    split
    · exact grounded_ofResult fun _ _ => verify_grounded trivial
    · exact handleCreateConnectionRequestAnswer_grounded _ _ _ _ _
    · exact handleCreateGeneralMessage_grounded _ _ _ _ _ _
    · exact grounded_done state _
  · exact grounded_ofResult fun _ _ => verify_grounded trivial
  · exact handleCreateConnectionRequestAnswer_grounded _ _ _ _ _
  · exact handleCreateGeneralMessage_grounded _ _ _ _ _ _
  · exact ⟨.refl state, fun _ h => sendAll_stored h _⟩
  · exact ⟨.refl state, fun _ h => sendAll_stored h _⟩
  · exact grounded_ofResult fun _ _ => grounded_persist state _
  · exact grounded_ofResult fun _ _ => grounded_persist state _
  · exact handleUpdateConnectionStatus_grounded _
  · exact handleUpdateConnectionStatus_grounded _
  · exact handleUpdateMessageStatus_grounded _
  · exact handleUpdateMessageStatus_grounded _
  · exact grounded_done state _

theorem storeOwnAnswer_grounded (msgDetail : ConnectionRequestAnswerMessageDetail)
    (replyToMsgId : String) (keyDlgProof : KeyDlgProof) (delivery : Delivery) :
    (storeOwnAnswer slf state msgDetail replyToMsgId keyDlgProof delivery world).Grounded
      state := by
  have hstored := AgentConnectionState.createAndStore_keeps state
    (receivedRequest msgDetail replyToMsgId)
  have hboth := hstored.trans (AgentConnectionState.createAndStore_keeps _
    (ownAnswer slf world.drawn msgDetail replyToMsgId))
  unfold storeOwnAnswer
  dsimp only
  split
  · rename_i hanswer
    have hkept := AgentConnectionState.answerMessage_keeps hanswer
    refine ⟨hboth.trans hkept, fun _ h => ?_⟩
    cases h
    exact hkept _ (AgentConnectionState.isSome_createAndStore _ _)
  · exact ⟨hboth, fun _ h => by cases h⟩
  · exact ⟨hboth, fun _ h => by cases h⟩

theorem storeRemoteAnswer_grounded (msgDetail : ConnectionRequestAnswerMessageDetail)
    (replyToMsgId : String) (msgUid : Option String) (delivery : Delivery) :
    (storeRemoteAnswer state msgDetail replyToMsgId msgUid delivery world).Grounded state := by
  have hstored := AgentConnectionState.createAndStore_keeps state
    (remoteAnswer world.drawn msgDetail msgUid)
  unfold storeRemoteAnswer
  dsimp only
  split
  · rename_i hanswer
    have hkept := AgentConnectionState.answerMessage_keeps hanswer
    refine ⟨hstored.trans hkept, fun _ h => ?_⟩
    cases h
    exact hkept _ (AgentConnectionState.isSome_createAndStore _ _)
  · exact ⟨hstored, fun _ h => by cases h⟩
  · exact ⟨hstored, fun _ h => by cases h⟩

theorem finishAnswer_stored {role : MessageHandlerRole}
    (h : finishAnswer crates protocol slf state role uid delivery world = .awaiting awaiting) :
    awaiting.Stored state := by
  unfold finishAnswer at h
  split at h
  · exact sendMessageIfNeeded_stored h state
  · split at h
    · rename_i hsome
      cases h
      exact hsome
    · cases h

theorem storePayload_grounded (uid : String) (delivery : Delivery) :
    (storePayload crates protocol slf state uid delivery world).Grounded state := by
  unfold storePayload
  split
  · rename_i hchange
    exact ⟨AgentConnectionState.changeMessage_keeps hchange,
      fun _ h => sendMessageIfNeeded_stored h _⟩
  · exact grounded_done state .panic

theorem resume_grounded (senderVk : String) (h : awaiting.Stored state) :
    (resume crates protocol slf state senderVk awaiting world).Grounded state := by
  unfold resume
  split
  · cases awaiting with
    | requestProof msgDetail delivery =>
      exact ⟨AgentConnectionState.createAndStore_keeps _ _,
        fun _ h => sendMessageIfNeeded_stored h _⟩
    | ownProof => exact verify_grounded trivial
    | senderProof => exact storeOwnAnswer_grounded _ _ _ _
    | remoteProof => exact storeRemoteAnswer_grounded _ _ _ _
    | senderDid =>
      refine ⟨.refl state, fun _ he => ?_⟩
      cases he
      exact h
    | senderAgencyDid => exact ⟨.refl state, fun _ he => finishAnswer_stored he⟩
    | answerPayload => exact storePayload_grounded _ _
    | sent => exact grounded_persist state _
    | persisted =>
      refine grounded_ofResult fun _ _ => ⟨.refl state, fun _ he => ?_⟩
      cases he
      trivial
    | encrypted => exact grounded_done state _
  · exact grounded_done state _

/-! ### When a turn aborts -/

theorem ofResult_ne_panic_iff {α : Type} {result : AgentResult α} {next : α → Turn}
    (hresult : result ≠ .panic) :
    (Turn.ofResult state result next).progress ≠ .done .panic ↔
      ∀ a, result = .ok a → (next a).progress ≠ .done .panic := by
  cases result with
  | ok a =>
    constructor
    · rintro h _ ⟨⟩
      exact h
    · intro h
      exact h a rfl
  | err e => exact iff_of_true (fun h => by cases h) (fun _ h => by cases h)
  | panic => exact absurd rfl hresult

/-! Checks fail, and never abort. -/

theorem checkMessageSender_ne_panic (msg : Option A2AMessage) (senderVk : String) :
    checkMessageSender slf state msg senderVk ≠ .panic := by
  unfold checkMessageSender
  split <;> first | split <;> exact fun h => by cases h | exact fun h => by cases h

theorem validateConnectionRequest_ne_panic (senderVk : String) :
    validateConnectionRequest slf state senderVk ≠ .panic := by
  unfold validateConnectionRequest
  split
  · unfold AgentConnectionState.checkNoConnectionEstablished
      AgentConnectionState.checkNoAcceptedInvitationExists
    split
    · exact err_ne_panic _
    · split
      · exact err_ne_panic _
      · exact ok_ne_panic _
  · exact err_ne_panic _

theorem checkIfMessageNotAlreadyAnswered_ne_panic (statusCode : MessageStatusCode) :
    checkIfMessageNotAlreadyAnswered statusCode ≠ .panic := by
  unfold checkIfMessageNotAlreadyAnswered
  split
  · exact err_ne_panic _
  · exact ok_ne_panic _

theorem validateConnectionRequestAnswer_ne_panic (msgDetail : ConnectionRequestAnswerMessageDetail)
    (replyToMsgId : String) :
    state.validateConnectionRequestAnswer msgDetail replyToMsgId ≠ .panic := by
  refine bind_ne_panic ?_ fun _ => bind_ne_panic ?_ fun _ => ?_
  · unfold AgentConnectionState.checkNoAcceptedInvitationExists
    split
    · exact err_ne_panic _
    · exact ok_ne_panic _
  · unfold checkValidStatusCode
    split
    · exact ok_ne_panic _
    · exact err_ne_panic _
  · split
    · exact checkIfMessageNotAlreadyAnswered_ne_panic _
    · exact ok_ne_panic _

theorem validateGeneralMessage_ne_panic (replyToMsgId : Option String) :
    state.validateGeneralMessage replyToMsgId ≠ .panic := by
  unfold AgentConnectionState.validateGeneralMessage
  split
  · exact bind_ne_panic (ofOption_ne_panic _ _) fun _ =>
      checkIfMessageNotAlreadyAnswered_ne_panic _
  · exact ok_ne_panic _

theorem getRecipientKey_ne_panic (senderVk : String) :
    getRecipientKey slf state senderVk ≠ .panic := by
  unfold getRecipientKey
  split
  · exact ok_ne_panic _
  · split
    · exact ofOption_ne_panic _ _
    · exact err_ne_panic _

/-! Sending aborts at a message that is not stored. -/

theorem prepareRemoteMessage_ne_panic (uid : String) :
    prepareRemoteMessage state world uid ≠ .panic := by
  refine bind_ne_panic (ofOption_ne_panic _ _) fun _ => ?_
  split
  · exact err_ne_panic _
  · exact ok_ne_panic _

theorem sendMessage_ne_panic (message : InternalMessage) (replyTo : Option String) :
    sendMessage crates protocol slf state world message replyTo ≠ .panic := by
  have hprepare : (some <$> prepareRemoteMessage state world message.uid) ≠ .panic :=
    map_ne_panic some (prepareRemoteMessage_ne_panic _)
  unfold sendMessage
  split
  · exact ok_ne_panic _
  · refine bind_ne_panic (ofOption_ne_panic _ _) fun _ => ?_
    split
    · exact err_ne_panic _
    · exact bind_ne_panic (ofOption_ne_panic _ _) fun _ => hprepare
  · unfold sendGeneralMessage
    split
    · refine bind_ne_panic (ofOption_ne_panic _ _) fun _ => ?_
      split
      · exact hprepare
      · exact bind_ne_panic (ofOption_ne_panic _ _) fun _ => hprepare
    · exact ok_ne_panic _

theorem sendMessages_ne_panic_iff {toSend : List (String × Option String)} :
    sendMessages crates protocol slf state world toSend ≠ .panic ↔
      ∀ p ∈ toSend, (state.messages.lookup p.1).isSome := by
  have hsend : ∀ p : String × Option String, (unwrap (state.messages.lookup p.1) >>=
      fun message => sendMessage crates protocol slf state world message p.2) = .panic ↔
        ¬ (state.messages.lookup p.1).isSome := by
    intro p
    cases state.messages.lookup p.1 with
    | some message => exact iff_of_false (sendMessage_ne_panic message p.2) (not_not.mpr rfl)
    | none => exact iff_of_true rfl Bool.false_ne_true
  unfold sendMessages
  dsimp only
  split
  · rename_i hany
    obtain ⟨send, hmem, hpanic⟩ := any_eq_true.mp hany
    obtain ⟨p, hp, rfl⟩ := mem_map.mp hmem
    refine iff_of_false (not_not.mpr rfl) fun hall => (hsend p).mp ?_ (hall p hp)
    split at hpanic
    · assumption
    · cases hpanic
  · rename_i hany
    have hall : ∀ p ∈ toSend, (state.messages.lookup p.1).isSome := by
      intro p hp
      by_contra hmissing
      refine hany (any_eq_true.mpr ⟨_, mem_map_of_mem hp, ?_⟩)
      rw [(hsend p).mpr hmissing]
    refine iff_of_true (bind_ne_panic ?_ fun _ => ok_ne_panic _) hall
    intro hpanic
    obtain ⟨before, send, after, hsends, -, hsend'⟩ := mapM_eq_panic_iff.mp hpanic
    have hmem : send ∈ before ++ send :: after := mem_append_right _ mem_cons_self
    rw [← hsends] at hmem
    obtain ⟨p, hp, rfl⟩ := mem_map.mp hmem
    exact (hsend p).mp hsend' (hall p hp)

theorem sendAll_ne_panic_iff {toSend : List (String × Option String)} {reported : Bool} :
    sendAll crates protocol slf state world toSend msgs reported ≠ .done .panic ↔
      ∀ p ∈ toSend, (state.messages.lookup p.1).isSome := by
  rw [← @sendMessages_ne_panic_iff crates protocol slf state world toSend]
  unfold sendAll
  dsimp only
  split
  · rename_i h
    exact iff_of_true (fun h => by cases h) (h ▸ ok_ne_panic _)
  · rename_i h
    exact iff_of_true (fun h => by cases h) (h ▸ ok_ne_panic _)
  · rename_i h
    exact iff_of_true (fun h => by cases h) (h ▸ err_ne_panic _)
  · rename_i h
    exact iff_of_false (not_not.mpr rfl) (not_not.mpr h)

theorem sendMessageIfNeeded_ne_panic (h : (state.messages.lookup uid).isSome) :
    sendMessageIfNeeded crates protocol slf state world delivery uid msgs ≠ .done .panic := by
  unfold sendMessageIfNeeded
  split
  · apply sendAll_ne_panic_iff.mpr
    intro p hp
    rw [mem_singleton.mp hp]
    exact h
  · exact fun h => by cases h

/-! A reply names a message that has been checked. -/

theorem isSome_of_validateGeneralMessage {msgId : String}
    (h : state.validateGeneralMessage (some msgId) = .ok ()) :
    (state.messages.lookup msgId).isSome := by
  obtain ⟨message, hmessage, -⟩ := bind_eq_ok_iff.mp h
  rw [ofOption_eq_ok.mp hmessage]
  rfl

theorem answerMessage_eq_ok (refMsgId : String) (statusCode : MessageStatusCode)
    (h : (state.messages.lookup uid).isSome) :
    ∃ s', state.answerMessage uid refMsgId statusCode = .ok s' := by
  obtain ⟨message, hmessage⟩ := Option.isSome_iff_exists.mp h
  unfold AgentConnectionState.answerMessage AgentConnectionState.changeMessage
  rw [hmessage]
  exact ⟨_, rfl⟩

theorem handleCreateGeneralMessage_ne_panic (mtype : RemoteMessageType)
    (msgDetail : GeneralMessageDetail) (replyToMsgId uid : Option String) (senderVk : String)
    (delivery : Delivery) :
    (handleCreateGeneralMessage crates protocol slf state mtype msgDetail replyToMsgId uid
      senderVk delivery world).progress ≠ .done .panic := by
  refine (ofResult_ne_panic_iff (validateGeneralMessage_ne_panic _)).mpr fun _ hvalid => ?_
  have hstored := AgentConnectionState.isSome_createAndStore state
    (generalMessage slf state world.drawn mtype msgDetail uid senderVk)
  dsimp only
  split
  · rename_i hanswer
    exact sendMessageIfNeeded_ne_panic (answerIfReply_keeps hanswer _ hstored)
  · exact fun h => by cases h
  · rename_i hanswer
    exfalso
    cases replyToMsgId with
    | none => cases hanswer
    | some msgId =>
      obtain ⟨s', hs'⟩ := answerMessage_eq_ok
        (generalMessage slf state world.drawn mtype msgDetail uid senderVk).uid .accepted
        (AgentConnectionState.createAndStore_keeps state
          (generalMessage slf state world.drawn mtype msgDetail uid senderVk) _
          (isSome_of_validateGeneralMessage hvalid))
      unfold answerIfReply at hanswer
      dsimp only at hanswer
      rw [hs'] at hanswer
      cases hanswer

theorem handleUpdateConnectionStatus_ne_panic (msg : UpdateConnectionStatus) :
    (handleUpdateConnectionStatus protocol state msg).progress ≠ .done .panic := by
  unfold handleUpdateConnectionStatus
  split
  · exact fun h => by cases h
  · exact fun h => by cases h

theorem updateEach_ne_panic (statusCode : MessageStatusCode) (uids : List String)
    (state : AgentConnectionState) :
    (AgentConnectionState.updateEach statusCode uids state).1 ≠ .panic := by
  induction uids generalizing state with
  | nil => exact ok_ne_panic _
  | cons uid uids ih =>
    rw [AgentConnectionState.updateEach]
    split
    · exact ih _
    · exact err_ne_panic _
    · rename_i hupdate
      exact absurd hupdate (ofOption_ne_panic _ _)

theorem handleUpdateMessageStatus_ne_panic (msg : UpdateMessageStatus) :
    (handleUpdateMessageStatus protocol state msg).progress ≠ .done .panic := by
  have hresult : (state.updateMessagesStatus msg).1 ≠ .panic := by
    unfold AgentConnectionState.updateMessagesStatus
    split
    · exact bind_ne_panic (updateEach_ne_panic _ _ _) fun _ => ok_ne_panic _
    · exact err_ne_panic _
  unfold handleUpdateMessageStatus
  generalize state.updateMessagesStatus msg = updated at hresult ⊢
  obtain ⟨result, updated⟩ := updated
  exact (ofResult_ne_panic_iff hresult).mpr fun _ _ h => by cases h

/-! What is not checked is unwrapped. -/

theorem verify_ne_panic_iff {proof : KeyDlgProof} {next : Awaiting} :
    (verifyAgentKeyDlgProof crates state proof next).progress ≠ .done .panic ↔
      Decodes crates proof := by
  unfold verifyAgentKeyDlgProof Decodes
  cases crates.base64Decode proof.signature with
  | some decoded => exact iff_of_true (fun h => by cases h) rfl
  | none => exact iff_of_false (not_not.mpr rfl) Bool.false_ne_true

theorem handleCreateConnectionRequest_ne_panic_iff (msgDetail : ConnectionRequestMessageDetail)
    (senderVk : String) (delivery : Delivery) :
    (handleCreateConnectionRequest crates slf state msgDetail senderVk delivery).progress ≠
        .done .panic ↔ RequestHarmless crates slf state msgDetail senderVk := by
  unfold handleCreateConnectionRequest RequestHarmless
  rw [ofResult_ne_panic_iff (validateConnectionRequest_ne_panic senderVk)]
  constructor
  · intro h hvalid
    exact verify_ne_panic_iff.mp (h () hvalid)
  · intro h _ hvalid
    exact verify_ne_panic_iff.mpr (h hvalid)

theorem handleCreateConnectionRequestAnswer_ne_panic_iff
    (msgDetail : ConnectionRequestAnswerMessageDetail) (replyToMsgId msgUid : Option String)
    (senderVk : String) (delivery : Delivery) :
    (handleCreateConnectionRequestAnswer crates slf state msgDetail replyToMsgId msgUid senderVk
        delivery).progress ≠ .done .panic ↔
      AnswerHarmless crates slf state msgDetail replyToMsgId senderVk := by
  unfold handleCreateConnectionRequestAnswer AnswerHarmless
  cases replyToMsgId with
  | none => exact iff_of_true (fun h => by cases h) (fun _ h => by cases h)
  | some msgId =>
    rw [ofOption_some, ok_bind]
    cases hvalid : state.validateConnectionRequestAnswer msgDetail msgId with
    | err e =>
      refine iff_of_true (fun h => by cases h) ?_
      rintro _ ⟨⟩ hok
      rw [hvalid] at hok
      cases hok
    | panic => exact absurd hvalid (validateConnectionRequestAnswer_ne_panic _ _)
    | ok _ =>
      rw [ok_bind]
      cases getMessageHandlerRole slf senderVk with
      | remote =>
        refine verify_ne_panic_iff.trans ⟨?_, fun h => h msgId rfl hvalid⟩
        rintro h _ ⟨⟩ -
        exact h
      | owner =>
        dsimp only
        cases msgDetail.keyDlgProof with
        | none => exact iff_of_true (fun h => by cases h) (fun _ _ _ _ h => by cases h)
        | some proof =>
          refine verify_ne_panic_iff.trans ⟨?_, fun h => h msgId rfl hvalid proof rfl⟩
          rintro h _ ⟨⟩ - _ ⟨⟩
          exact h

theorem handleSendMessages_ne_panic_iff (msg : SendMessages) :
    (handleSendMessages crates protocol slf state msg world).progress ≠ .done .panic ↔
      SendHarmless state msg := by
  refine sendAll_ne_panic_iff.trans ?_
  rw [forall_mem_map]
  rfl

theorem detailPayload_ne_panic_iff (excludePayload : Option String)
    (payload : Option (List UInt8)) :
    detailPayload crates protocol excludePayload payload ≠ .panic ↔
      (protocol = .V2 → excludePayload ≠ some "Y" → ∀ bytes, payload = some bytes →
        (crates.fromSlice bytes).isSome) := by
  unfold detailPayload
  split
  · rename_i hexcluded
    exact iff_of_true (ok_ne_panic _) fun _ h => absurd hexcluded h
  · rename_i hincluded
    cases payload with
    | none => exact iff_of_true (ok_ne_panic _) fun _ _ _ h => by cases h
    | some bytes =>
      cases protocol with
      | V1 => exact iff_of_true (ok_ne_panic _) fun h => by cases h
      | V2 =>
        cases hjson : crates.fromSlice bytes with
        | some value =>
          dsimp only
          rw [hjson]
          refine iff_of_true (ok_ne_panic _) ?_
          rintro - - _ ⟨⟩
          rw [hjson]
          rfl
        | none =>
          dsimp only
          rw [hjson]
          refine iff_of_false (not_not.mpr rfl) fun h => ?_
          have hsome := h rfl hincluded bytes rfl
          rw [hjson] at hsome
          cases hsome

theorem detailPayload_ne_err (excludePayload : Option String) (payload : Option (List UInt8))
    (e : String) : detailPayload crates protocol excludePayload payload ≠ .err e := by
  unfold detailPayload
  split
  · exact fun h => by cases h
  · cases payload with
    | none => exact fun h => by cases h
    | some bytes =>
      cases protocol with
      | V1 => exact fun h => by cases h
      | V2 =>
        dsimp only
        cases crates.fromSlice bytes with
        | none => exact fun h => by cases h
        | some value => exact fun h => by cases h

theorem getMessages_ne_panic_iff (msg : GetMessages) :
    getMessages crates protocol state msg ≠ .panic ↔ ReadHarmless crates protocol state msg := by
  have hselected : ∀ message : InternalMessage,
      ((msg.uids.isEmpty || msg.uids.contains message.uid) &&
        (msg.statusCodes.isEmpty || msg.statusCodes.contains message.statusCode)) = true ↔
          Selected msg message := by
    intro message
    simp [Selected]
  have hpanic : ∀ message : InternalMessage,
      (detailPayload crates protocol msg.excludePayload message.payload >>= fun payload =>
        (.ok ⟨message.uid, message.statusCode, message.senderDid, message.type, payload,
          message.refMsgId⟩ : AgentResult GetMessagesDetailResponse)) ≠ .panic ↔
        detailPayload crates protocol msg.excludePayload message.payload ≠ .panic := by
    intro message
    rw [Ne, bind_eq_panic_iff, not_or]
    exact and_iff_left fun ⟨_, _, h⟩ => ok_ne_panic _ h
  unfold getMessages
  rw [Outcome.mapM_ne_panic_iff]
  · constructor
    · intro h hprotocol hincluded message hmem hmessage payload hpayload
      have hin := h message (mem_filter.mpr
        ⟨crates.order.mem_order.mpr hmem, (hselected message).mpr hmessage⟩)
      exact (detailPayload_ne_panic_iff _ _).mp ((hpanic message).mp hin) hprotocol hincluded
        payload hpayload
    · intro h message hin
      obtain ⟨hmem, hmessage⟩ := mem_filter.mp hin
      apply (hpanic message).mpr
      apply (detailPayload_ne_panic_iff _ _).mpr
      intro hprotocol hincluded
      exact h hprotocol hincluded message (crates.order.mem_order.mp hmem)
        ((hselected message).mp hmessage)
  · intro message _ e herr
    cases hpayload : detailPayload crates protocol msg.excludePayload message.payload with
    | ok payload =>
      rw [hpayload] at herr
      cases herr
    | err e' => exact detailPayload_ne_err _ _ _ hpayload
    | panic =>
      rw [hpayload] at herr
      cases herr

theorem handleGetMessages_ne_panic_iff (msg : GetMessages) :
    (handleGetMessages crates protocol state msg).progress ≠ .done .panic ↔
      ReadHarmless crates protocol state msg := by
  rw [← getMessages_ne_panic_iff]
  unfold handleGetMessages
  cases getMessages crates protocol state msg with
  | ok messages => exact iff_of_true (fun h => by cases h) (ok_ne_panic _)
  | err e => exact iff_of_true (fun h => by cases h) (err_ne_panic _)
  | panic => exact iff_of_false (not_not.mpr rfl) (not_not.mpr rfl)

theorem handleCreateMessage_ne_panic_iff (msg : CreateMessage) (tail : List A2AMessage)
    (senderVk : String) :
    (handleCreateMessage crates protocol slf state msg tail senderVk world).progress ≠
        .done .panic ↔
      MessageHarmless crates protocol slf state senderVk
        (.version1 (.createMessage msg) :: tail) := by
  unfold handleCreateMessage MessageHarmless
  dsimp only
  split
  · rename_i htype
    rw [htype]
    exact handleCreateConnectionRequest_ne_panic_iff _ _ _
  · rename_i htype
    rw [htype]
    exact handleCreateConnectionRequestAnswer_ne_panic_iff _ _ _ _ _
  · refine iff_of_true (handleCreateGeneralMessage_ne_panic _ _ _ _ _ _) ?_
    split
    · rename_i hdetail
      cases hdetail
    · rename_i hdetail
      cases hdetail
    · trivial
  · refine iff_of_true (fun h => by cases h) ?_
    split
    · simp_all
    · simp_all
    · trivial

theorem handleA2aMsg_ne_panic_iff (senderVk : String) (msgs : List A2AMessage) :
    (handleA2aMsg crates protocol slf state senderVk msgs world).progress ≠ .done .panic ↔
      (checkMessageSender slf state msgs.head? senderVk = .ok () →
        MessageHarmless crates protocol slf state senderVk msgs) := by
  unfold handleA2aMsg
  rw [ofResult_ne_panic_iff (checkMessageSender_ne_panic _ _)]
  refine Unique.forall_iff.trans (imp_congr_right fun _ => ?_)
  split
  · exact handleCreateMessage_ne_panic_iff _ _ _
  · exact handleCreateConnectionRequest_ne_panic_iff _ _ _
  · exact handleCreateConnectionRequestAnswer_ne_panic_iff _ _ _ _ _
  · exact iff_of_true (handleCreateGeneralMessage_ne_panic _ _ _ _ _ _) trivial
  · exact handleSendMessages_ne_panic_iff _
  · exact handleSendMessages_ne_panic_iff _
  · exact handleGetMessages_ne_panic_iff _
  · exact handleGetMessages_ne_panic_iff _
  · exact iff_of_true (handleUpdateConnectionStatus_ne_panic _) trivial
  · exact iff_of_true (handleUpdateConnectionStatus_ne_panic _) trivial
  · exact iff_of_true (handleUpdateMessageStatus_ne_panic _) trivial
  · exact iff_of_true (handleUpdateMessageStatus_ne_panic _) trivial
  · refine iff_of_true (fun h => by cases h) ?_
    unfold MessageHarmless
    split
    all_goals simp_all

theorem storeOwnAnswer_ne_panic (msgDetail : ConnectionRequestAnswerMessageDetail)
    (replyToMsgId : String) (keyDlgProof : KeyDlgProof) (delivery : Delivery) :
    (storeOwnAnswer slf state msgDetail replyToMsgId keyDlgProof delivery world).progress ≠
      .done .panic := by
  unfold storeOwnAnswer
  dsimp only
  split
  · exact fun h => by cases h
  · exact fun h => by cases h
  · rename_i hanswer
    exact absurd hanswer (ofOption_ne_panic _ _)

theorem storeRemoteAnswer_ne_panic (msgDetail : ConnectionRequestAnswerMessageDetail)
    (replyToMsgId : String) (msgUid : Option String) (delivery : Delivery) :
    (storeRemoteAnswer state msgDetail replyToMsgId msgUid delivery world).progress ≠
      .done .panic := by
  unfold storeRemoteAnswer
  dsimp only
  split
  · exact fun h => by cases h
  · exact fun h => by cases h
  · rename_i hanswer
    exact absurd hanswer (ofOption_ne_panic _ _)

theorem finishAnswer_ne_panic (role : MessageHandlerRole) (delivery : Delivery)
    (h : (state.messages.lookup uid).isSome) :
    finishAnswer crates protocol slf state role uid delivery world ≠ .done .panic := by
  unfold finishAnswer
  split
  · exact sendMessageIfNeeded_ne_panic h
  · split
    · exact fun h => by cases h
    · exact fun h => by cases h

theorem storePayload_ne_panic (delivery : Delivery) (h : (state.messages.lookup uid).isSome) :
    (storePayload crates protocol slf state uid delivery world).progress ≠ .done .panic := by
  unfold storePayload
  split
  · rename_i hchange
    exact sendMessageIfNeeded_ne_panic (AgentConnectionState.changeMessage_keeps hchange _ h)
  · rename_i hchange
    exact absurd h (AgentConnectionState.changeMessage_eq_none_iff.mp hchange)

theorem resume_ne_panic_iff (senderVk : String) (h : awaiting.Stored state) :
    (resume crates protocol slf state senderVk awaiting world).progress ≠ .done .panic ↔
      ResumeHarmless crates awaiting world := by
  unfold resume
  split
  · rename_i hsucceeded
    cases awaiting with
    | requestProof =>
      exact iff_of_true
        (sendMessageIfNeeded_ne_panic (AgentConnectionState.isSome_createAndStore _ _)) trivial
    | ownProof => exact verify_ne_panic_iff.trans ⟨fun h _ => h, fun h => h hsucceeded⟩
    | senderProof => exact iff_of_true (storeOwnAnswer_ne_panic _ _ _ _) trivial
    | remoteProof => exact iff_of_true (storeRemoteAnswer_ne_panic _ _ _ _) trivial
    | senderAgencyDid => exact iff_of_true (finishAnswer_ne_panic _ _ h) trivial
    | answerPayload => exact iff_of_true (storePayload_ne_panic _ h) trivial
    | persisted =>
      refine iff_of_true ((ofResult_ne_panic_iff (getRecipientKey_ne_panic _)).mpr ?_) trivial
      exact fun _ _ h => by cases h
    | senderDid | sent | encrypted => exact iff_of_true (fun h => by cases h) trivial
  · rename_i hfailed
    refine iff_of_true (fun h => by cases h) ?_
    cases awaiting with
    | ownProof => exact fun hsucceeded => absurd hsucceeded hfailed
    | requestProof | senderProof | remoteProof | senderDid | senderAgencyDid | answerPayload
    | sent | persisted | encrypted => trivial

end AgentConnection

/-! ### Runs -/

theorem Turn.next_ne_panic_iff {turn : Turn} {senderVk : String} :
    turn.next senderVk ≠ .inr .panic ↔ turn.progress ≠ .done .panic := by
  unfold Turn.next
  cases turn.progress with
  | awaiting awaiting => exact iff_of_true (fun h => by cases h) (fun h => by cases h)
  | done result =>
    cases result with
    | ok msgs => exact iff_of_true (fun h => by cases h) (fun h => by cases h)
    | err e => exact iff_of_true (fun h => by cases h) (fun h => by cases h)
    | panic => exact iff_of_false (not_not.mpr rfl) (not_not.mpr rfl)

/-- What a flight waits with is stored. -/
def Grounding (s : Recorded) (_ : List (Recorded × Recorded)) (task : Task) : Prop :=
  task.awaiting.Stored s.state

def MessagesKept (s s' : Recorded) : Prop := s.state.KeepsMessages s'.state

theorem Turn.Grounded.keeps {s : Recorded} {spans : List (Recorded × Recorded)} {turn : Turn}
    (h : turn.Grounded s.state) (senderVk : String) :
    Turns.Keeps (fun _ => True) Grounding MessagesKept (fun _ _ => True) s spans
      (turn.next senderVk, s.after turn) where
  inv := trivial
  step := h.kept
  own task he := by
    unfold Turn.next at he
    cases hprogress : turn.progress with
    | awaiting awaiting =>
      rw [hprogress] at he
      cases he
      exact h.stored awaiting hprogress
    | done result =>
      rw [hprogress] at he
      cases he
  report _ _ := trivial

section Runs

variable (messageCrates : MessageCrates) (crates : ConnectionCrates) (protocol : ProtocolTypes)
  (slf : AgentConnectionConfig)

theorem handleAgent2ConnMessage_keeps (state : AgentConnectionState) (msg : A2ConnMessage) :
    state.KeepsMessages
      (AgentConnection.handleAgent2ConnMessage crates protocol slf state msg).2 := by
  unfold AgentConnection.handleAgent2ConnMessage
  split
  · exact .refl state
  · rename_i msg
    exact AgentConnectionState.updateMessagesStatus_keeps state msg
  · exact .refl state

theorem arrivalTurns_relies : Turns.Relies (arrivalTurns messageCrates crates protocol slf)
    (fun _ _ _ => True) (fun _ => True) Grounding MessagesKept (fun _ _ => True) where
  start {s input} _ _ := by
    cases input with
    | a2a message world =>
      unfold arrivalTurns
      dsimp only
      split
      · exact (AgentConnection.handleA2aMsg_grounded _ _).keeps _
      · exact ⟨trivial, .refl _, (fun _ h => by cases h), fun _ _ => trivial⟩
      · exact ⟨trivial, .refl _, (fun _ h => by cases h), fun _ _ => trivial⟩
    | a2conn msg =>
      exact ⟨trivial, handleAgent2ConnMessage_keeps _ _ _ _ _, (fun _ h => by cases h),
        fun _ _ => trivial⟩
  resume _ hown _ := (AgentConnection.resume_grounded _ hown).keeps _
  stable hstep hown := hown.kept hstep

variable {messageCrates crates protocol slf} {s : Recorded}

/-- The first turn of an arrival aborts exactly when the arrival is harmful. -/
theorem start_ne_panic_iff (message : List UInt8) (world : TurnWorld) :
    ((arrivalTurns messageCrates crates protocol slf).start (.a2a message world) s).1 ≠
        .inr .panic ↔ ArrivalHarmless messageCrates crates protocol slf s.state message := by
  unfold arrivalTurns ArrivalHarmless MessageCrates.parseAuthcrypted
  cases protocol with
  | V1 =>
    dsimp only
    cases hparse : messageCrates.unbundleAuthcrypted message with
    | ok parsed =>
      obtain ⟨senderVk, msgs⟩ := parsed
      refine Turn.next_ne_panic_iff.trans
        ((AgentConnection.handleA2aMsg_ne_panic_iff senderVk msgs).trans ⟨?_, fun h => h _ _ rfl⟩)
      rintro h _ _ ⟨⟩
      exact h
    | err e => exact iff_of_true (fun h => by cases h) (fun _ _ h => by cases h)
    | panic =>
      refine absurd hparse (bind_ne_panic (ofOption_ne_panic _ _) fun _ => ?_)
      exact bind_ne_panic (ofOption_ne_panic _ _) fun _ => ok_ne_panic _
  | V2 =>
    dsimp only
    cases hparse : messageCrates.unpack message with
    | ok parsed =>
      obtain ⟨senderVk, msgs⟩ := parsed
      cases senderVk with
      | none =>
        refine iff_of_false (not_not.mpr rfl) fun h => ?_
        obtain ⟨vk, he, -⟩ := h none msgs rfl
        cases he
      | some vk =>
        refine Turn.next_ne_panic_iff.trans
          ((AgentConnection.handleA2aMsg_ne_panic_iff vk msgs).trans ⟨?_, ?_⟩)
        · rintro h _ _ ⟨⟩
          exact ⟨vk, rfl, h⟩
        · intro h
          obtain ⟨_, ⟨⟩, hharmless⟩ := h _ _ rfl
          exact hharmless
    | err e => exact iff_of_true (fun h => by cases h) (fun _ _ h => by cases h)
    | panic =>
      refine absurd hparse (bind_ne_panic (ofOption_ne_panic _ _) fun _ => ?_)
      exact bind_ne_panic (ofOption_ne_panic _ _) fun _ => ok_ne_panic _

theorem neverPanics_iff {s : Turns.Running Recorded Task} (event : Turns.Event Arrival TurnWorld)
    (hs : s.Reliable (fun _ => True) Grounding) :
    NeverPanics messageCrates crates protocol slf s event ↔
      Harmless messageCrates crates protocol slf s event := by
  unfold NeverPanics Harmless
  cases hstopped : s.stopped with
  | true =>
    refine iff_of_true (fun _ h => ?_) (fun h => by cases h)
    rw [Turns.output_of_stopped _ hstopped] at h
    cases h
  | false =>
    rw [forall_prop_of_true rfl]
    cases event with
    | start input =>
      rw [Ne, Turns.output_start_iff _ hstopped]
      cases input with
      | a2conn msg => exact iff_of_true (fun h => absurd rfl (h msg)) trivial
      | a2a message world =>
        rw [forall_prop_of_true (fun _ he => by cases he)]
        exact start_ne_panic_iff message world
    | resume index world =>
      rw [forall_prop_of_true (fun _ he => by cases he), Ne, Turns.output_resume_iff _ hstopped,
        not_exists]
      refine forall_congr' fun flight => not_and.trans (imp_congr_right fun hflight => ?_)
      exact Turn.next_ne_panic_iff.trans (AgentConnection.resume_ne_panic_iff _
        (hs.2 flight (mem_of_getElem? hflight)))

end Runs

/-- Whatever arrives is the owner's request to send a message. -/
def sendsUnknown : MessageCrates where
  authDecrypt message := some ("userKey", message)
  unbundle _ := some [.version1 (.sendMessages ⟨["unknown"]⟩)]
  unpackMessage _ := none
  fromStr _ := none

end IndySdk.Agency
