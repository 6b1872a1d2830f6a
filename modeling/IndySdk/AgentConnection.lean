import IndySdk.A2AMessages
import IndySdk.Outcome

/-!
# Connections of a cloud agent

One connection of the agent's owner with somebody else. The owner asks for it and answers requests
for it, the other side answers and writes to it; what is said is kept as messages under their
identifiers. A message is handled in turns: between two of them a wallet call, a signature check
or a request to another host is in flight, and other messages have turns of their own. What these
calls answer, and which identifiers are drawn, is an input of a turn.
-/

namespace IndySdk.Agency

open Outcome

abbrev AgentResult (α : Type) := Outcome String α

structure RemoteConnectionDetail where
  forwardAgentDetail : ForwardAgentDetail
  agentDetail : AgentDetail
  agentKeyDlgProof : KeyDlgProof

structure InternalMessage where
  uid : String
  type : RemoteMessageType
  senderDid : String
  statusCode : MessageStatusCode
  refMsgId : Option String
  payload : Option (List UInt8)
  sendingData : AssocMap String (Option String)
  thread : Option Thread

structure AgentConnectionConfig where
  ownerDid : String
  ownerVerkey : String
  userPairwiseDid : String
  userPairwiseVerkey : String
  agentPairwiseDid : String
  agentPairwiseVerkey : String
  agentConfigs : AssocMap String String
  forwardAgentDetail : ForwardAgentDetail

structure AgentConnectionState where
  agentKeyDlgProof : Option KeyDlgProof := none
  remoteConnectionDetail : Option RemoteConnectionDetail := none
  connectionStatus : ConnectionStatus := .notConnected
  messages : AssocMap String InternalMessage := ∅

/-- What the crates beneath compute. -/
structure ConnectionCrates where
  base64Decode : String → Option (List UInt8)
  fromSlice : List UInt8 → Option Json
  toVec : Json → List UInt8
  order : IterationOrder

/-- What a turn is given: whether the call that was in flight succeeded, what it packed, the
identifier that is drawn, and why a message for the other side cannot be encrypted. -/
structure TurnWorld where
  succeeded : Bool := true
  packed : List UInt8 := []
  drawn : String := ""
  prepareFailure : String → Option String := fun _ => none

inductive MessageHandlerRole where
  | owner
  | remote
  deriving DecidableEq

/-- How a message that is created is passed on. -/
structure Delivery where
  sendMsg : Bool
  replyToMsgId : Option String
  version : ProtocolTypes

/-- The call in flight between two turns of a message, with what the next turn needs. -/
inductive Awaiting where
  | requestProof (msgDetail : ConnectionRequestMessageDetail) (delivery : Delivery)
  | ownProof (msgDetail : ConnectionRequestAnswerMessageDetail) (replyToMsgId : String)
      (keyDlgProof : KeyDlgProof) (delivery : Delivery)
  | senderProof (msgDetail : ConnectionRequestAnswerMessageDetail) (replyToMsgId : String)
      (keyDlgProof : KeyDlgProof) (delivery : Delivery)
  | remoteProof (msgDetail : ConnectionRequestAnswerMessageDetail) (replyToMsgId : String)
      (msgUid : Option String) (delivery : Delivery)
  | senderDid (role : MessageHandlerRole) (msgDetail : ConnectionRequestAnswerMessageDetail)
      (uid : String) (delivery : Delivery)
  | senderAgencyDid (role : MessageHandlerRole) (msgDetail : ConnectionRequestAnswerMessageDetail)
      (uid : String) (delivery : Delivery)
  | answerPayload (uid : String) (delivery : Delivery)
  | sent (endpoints uids : List String) (msgs : List A2AMessage) (reported : Bool)
  | persisted (metadata : AgentConnectionState) (msgs : List A2AMessage)
  | encrypted (msgs : List A2AMessage)

inductive Progress where
  | awaiting (next : Awaiting)
  | done (result : AgentResult (List A2AMessage))

/-- What a turn stores under which identifier, whether the caller supplied it, and what it
establishes. -/
inductive Entry where
  | requested (uid : String)
  | stored (uid : String) (supplied : Bool)
  | established (role : MessageHandlerRole) (statusCode : MessageStatusCode)
      (replyToMsgId : String)
  deriving DecidableEq

structure Turn where
  progress : Progress
  state : AgentConnectionState
  entries : List Entry := []

/-- A turn whose progress is a failure, if the computation fails. -/
def Turn.ofResult {α : Type} (state : AgentConnectionState) (result : AgentResult α)
    (next : α → Turn) : Turn :=
  match result with
  | .ok a => next a
  | .err e => ⟨.done (.err e), state, []⟩
  | .panic => ⟨.done .panic, state, []⟩

def InternalMessage.new (drawn : String) (uid : Option String) (mtype : RemoteMessageType)
    (statusCode : MessageStatusCode) (senderDid : String) (refMsgId : Option String)
    (payload : Option (List UInt8)) (sendingData : Option (AssocMap String (Option String)))
    (thread : Option Thread) : InternalMessage where
  uid := uid.getD drawn
  type := mtype
  senderDid := senderDid
  statusCode := statusCode
  refMsgId := refMsgId
  payload := payload
  sendingData := sendingData.getD ∅
  thread := thread

def toI8 (bytes : List UInt8) : List Int8 := bytes.map UInt8.toInt8

/-! ### Checks -/

def checkIfMessageNotAlreadyAnswered (statusCode : MessageStatusCode) : AgentResult Unit :=
  if statusCode ∈ MessageStatusCode.validStatusCodes then .err "Message is already answered."
  else .ok ()

def checkValidStatusCode (statusCode : MessageStatusCode) : AgentResult Unit :=
  if statusCode ∈ MessageStatusCode.validStatusCodes then .ok ()
  else .err "Invalid answer status code."

namespace AgentConnectionState

variable (state : AgentConnectionState)

def checkNoConnectionEstablished : AgentResult Unit :=
  if state.remoteConnectionDetail.isSome then .err "Accepted connection already exists." else .ok ()

def checkNoAcceptedInvitationExists : AgentResult Unit :=
  if state.messages.values.any (fun msg => msg.type = .connReq ∧ msg.statusCode = .accepted) then
    .err "Accepted connection already exists."
  else .ok ()

def checkIfMessageStatusCanBeUpdated (uid : String) (statusCode : MessageStatusCode) :
    AgentResult Unit := do
  let message ← ofOption "Message not found." (state.messages.lookup uid)
  checkIfMessageNotAlreadyAnswered message.statusCode
  if statusCode ∉ MessageStatusCode.validNewMessageStatusCodesAllowedUpdateTo then
    .err "Invalid update status code."
  else if message.statusCode ∉ MessageStatusCode.validExistingMessageStatusesToUpdate then
    .err "Message is not in a state where it can be updated with the given status code."
  else .ok ()

def isSentByRemote (senderVerkey : String) : Bool :=
  match state.remoteConnectionDetail with
  | some detail => senderVerkey == detail.agentKeyDlgProof.agentDelegatedKey
  | none => true

def validateConnectionRequestAnswer (msgDetail : ConnectionRequestAnswerMessageDetail)
    (replyToMsgId : String) : AgentResult Unit := do
  state.checkNoAcceptedInvitationExists
  checkValidStatusCode msgDetail.answerStatusCode
  match state.messages.lookup replyToMsgId with
  | some msg => checkIfMessageNotAlreadyAnswered msg.statusCode
  | none => .ok ()

def validateGeneralMessage (replyToMsgId : Option String) : AgentResult Unit :=
  match replyToMsgId with
  | some msgId => do
    let message ← ofOption "Message not found." (state.messages.lookup msgId)
    checkIfMessageNotAlreadyAnswered message.statusCode
  | none => .ok ()

/-! ### Changes -/

/-- The message of an identifier is changed, if there is one. -/
def changeMessage (uid : String) (change : InternalMessage → InternalMessage) :
    Option AgentConnectionState :=
  (state.messages.lookup uid).map fun message =>
    { state with messages := state.messages.insert uid (change message) }

def updateMessageStatus (uid : String) (status : MessageStatusCode) :
    AgentResult AgentConnectionState :=
  ofOption "Message not found."
    (state.changeMessage uid fun message => { message with statusCode := status })

def answerMessage (uid refMsgId : String) (statusCode : MessageStatusCode) :
    AgentResult AgentConnectionState :=
  ofOption "Message mot found." (state.changeMessage uid fun message =>
    { message with statusCode := statusCode, refMsgId := some refMsgId })

def createAndStoreInternalMessage (msg : InternalMessage) : AgentConnectionState :=
  { state with messages := state.messages.insert msg.uid msg }

/-- The updates of a request, one after the other. -/
def updateEach (statusCode : MessageStatusCode) :
    List String → AgentConnectionState → AgentResult Unit × AgentConnectionState
  | [], state => (.ok (), state)
  | uid :: uids, state =>
    match state.updateMessageStatus uid statusCode with
    | .ok state => updateEach statusCode uids state
    | .err e => (.err e, state)
    | .panic => (.panic, state)

/-- All of the messages are checked before any of them is updated. -/
def updateMessagesStatus (msg : UpdateMessageStatus) :
    AgentResult (List String × MessageStatusCode) × AgentConnectionState :=
  if msg.uids.all fun uid =>
      state.checkIfMessageStatusCanBeUpdated uid msg.statusCode matches .ok _ then
    let updated := updateEach msg.statusCode msg.uids state
    (updated.1.bind fun _ => .ok (msg.uids, msg.statusCode), updated.2)
  else (.err "Messages can't be updated.", state)

end AgentConnectionState

namespace AgentConnection

variable (crates : ConnectionCrates) (protocol : ProtocolTypes) (slf : AgentConnectionConfig)
  (state : AgentConnectionState)

def isSentByOwner (senderVerkey : String) : Bool := senderVerkey == slf.userPairwiseVerkey

def getMessageHandlerRole (senderVerkey : String) : MessageHandlerRole :=
  if isSentByOwner slf senderVerkey then .owner else .remote

def validateConnectionRequest (senderVerkey : String) : AgentResult Unit := do
  if isSentByOwner slf senderVerkey then
    state.checkNoConnectionEstablished
    state.checkNoAcceptedInvitationExists
  else .err "Unknown message sender."

/-- Who may send a message of a kind. -/
def checkMessageSender (msg : Option A2AMessage) (senderVerkey : String) : AgentResult Unit :=
  match msg with
  | some (.version1 (.createMessage _)) | some (.version2 (.connectionRequest _))
  | some (.version2 (.connectionRequestAnswer _)) | some (.version2 (.sendRemoteMessage _)) =>
    if isSentByOwner slf senderVerkey || state.isSentByRemote senderVerkey then .ok ()
    else .err "Invalid message sender."
  | some (.version1 (.sendMessages _)) | some (.version2 (.sendMessages _))
  | some (.version1 (.getMessages _)) | some (.version2 (.getMessages _))
  | some (.version1 (.updateConnectionStatus _)) | some (.version2 (.updateConnectionStatus _))
  | some (.version1 (.updateMessageStatus _)) | some (.version2 (.updateMessageStatus _)) =>
    if isSentByOwner slf senderVerkey then .ok () else .err "Invalid message sender."
  | _ => .err "Unsupported message."

def getRecipientKey (senderVk : String) : AgentResult String :=
  if isSentByOwner slf senderVk then .ok slf.ownerVerkey
  else if state.isSentByRemote senderVk then
    ofOption "Remote connection is not set."
      (state.remoteConnectionDetail.map (·.agentKeyDlgProof.agentDelegatedKey))
  else .err "Unknown message sender."

/-! ### Messages for the other side

The endpoint that a stored message is posted to, if it is posted at all. -/

def prepareRemoteMessage (world : TurnWorld) (uid : String) : AgentResult String := do
  let detail ← ofOption "Missed Remote Connection Details." state.remoteConnectionDetail
  match world.prepareFailure uid with
  | some e => .err e
  | none => .ok (detail.forwardAgentDetail.endpoint ++ "/agency/msg")

def sendInviteAnswerMessage (world : TurnWorld) (message : InternalMessage)
    (replyTo : Option String) : AgentResult (Option String) := do
  let _ ← ofOption "Missed required field `reply_to_msg_id`." replyTo
  if message.statusCode ≠ .accepted then .err "Message status isn't accepted."
  else
    let _ ← ofOption "Missed Key Delegation Proof." state.agentKeyDlgProof
    some <$> prepareRemoteMessage state world message.uid

/-- The body of a message of the second version has to be JSON. -/
def sendGeneralMessage (world : TurnWorld) (message : InternalMessage) :
    AgentResult (Option String) :=
  if message.senderDid = slf.userPairwiseDid then do
    let msg ← ofOption "Missed Payload." message.payload
    match protocol with
    | .V1 => some <$> prepareRemoteMessage state world message.uid
    | .V2 => do
      let _ ← ofOption "Payload is not JSON." (crates.fromSlice msg)
      some <$> prepareRemoteMessage state world message.uid
  else .ok none

def sendMessage (world : TurnWorld) (message : InternalMessage) (replyTo : Option String) :
    AgentResult (Option String) :=
  match message.type with
  | .connReq => .ok none
  | .connReqAnswer => sendInviteAnswerMessage state world message replyTo
  | _ => sendGeneralMessage crates protocol slf state world message

/-- Every message is looked up before the first failure is reported. -/
def sendMessages (world : TurnWorld) (msgs : List (String × Option String)) :
    AgentResult (List String) :=
  let sends := msgs.map fun (uid, replyTo) => do
    let message ← unwrap (state.messages.lookup uid)
    sendMessage crates protocol slf state world message replyTo
  if sends.any (· matches .panic) then .panic
  else do
    let endpoints ← sends.mapM id
    .ok (endpoints.filterMap id)

def messageSent (uids : List String) : A2AMessage :=
  match protocol with
  | .V1 => .version1 (.messageSent ⟨uids⟩)
  | .V2 => .version2 (.messageSent ⟨uids⟩)

def reportSent (uids : List String) (msgs : List A2AMessage) (reported : Bool) : List A2AMessage :=
  if reported then msgs ++ [messageSent protocol uids] else msgs

/-- The handler of a message is done, and the state goes to the wallet. -/
def persistConnectionState (msgs : List A2AMessage) : Progress := .awaiting (.persisted state msgs)

def sendAll (world : TurnWorld) (toSend : List (String × Option String)) (msgs : List A2AMessage)
    (reported : Bool) : Progress :=
  let uids := toSend.map Prod.fst
  match sendMessages crates protocol slf state world toSend with
  | .ok [] => persistConnectionState state (reportSent protocol uids msgs reported)
  | .ok endpoints => .awaiting (.sent endpoints uids msgs reported)
  | .err e => .done (.err e)
  | .panic => .done .panic

/-- In the first version the answer says that the message was sent. -/
def sendMessageIfNeeded (world : TurnWorld) (delivery : Delivery) (uid : String)
    (msgs : List A2AMessage) : Progress :=
  if delivery.sendMsg then
    sendAll crates protocol slf state world [(uid, delivery.replyToMsgId)] msgs
      (delivery.version = .V1)
  else persistConnectionState state msgs

/-! ### Requests for a connection -/

def verifyAgentKeyDlgProof (keyDlgProof : KeyDlgProof) (next : Awaiting) : Turn :=
  match crates.base64Decode keyDlgProof.signature with
  | some _ => ⟨.awaiting next, state, []⟩
  | none => ⟨.done .panic, state, []⟩

def handleCreateConnectionRequest (msgDetail : ConnectionRequestMessageDetail)
    (senderVerkey : String) (delivery : Delivery) : Turn :=
  .ofResult state (validateConnectionRequest slf state senderVerkey) fun _ =>
    verifyAgentKeyDlgProof crates state msgDetail.keyDlgProof (.requestProof msgDetail delivery)

def buildInviteMessage (msg : InternalMessage) (msgDetail : ConnectionRequestMessageDetail) :
    List A2AMessage :=
  let inviteDetail : InviteDetail :=
    { connReqId := msg.uid
      targetName := some ""
      senderAgencyDetail := slf.forwardAgentDetail
      senderDetail :=
        { did := slf.userPairwiseDid
          verkey := slf.userPairwiseVerkey
          agentKeyDlgProof := msgDetail.keyDlgProof
          name := slf.agentConfigs.lookup "name"
          logoUrl := slf.agentConfigs.lookup "logo_url"
          publicDid := some slf.ownerDid }
      statusCode := msg.statusCode
      statusMsg := msg.statusCode.message
      threadId := msgDetail.threadId }
  match protocol with
  | .V1 => [.version1 (.messageCreated ⟨msg.uid⟩),
      .version1 (.messageDetail (.connectionRequestResp ⟨inviteDetail, ""⟩))]
  | .V2 => [.version2 (.connectionRequestResponse ⟨msg.uid, inviteDetail, "", true⟩)]

def requestMessage (drawn : String) (msgDetail : ConnectionRequestMessageDetail) :
    InternalMessage :=
  .new drawn none .connReq .created slf.userPairwiseDid none none
    (some ((∅ : AssocMap String (Option String)).insert "phone_no" msgDetail.phoneNo)) none

/-- The proof of a request for a connection is verified. -/
def storeConnectionRequest (msgDetail : ConnectionRequestMessageDetail) (delivery : Delivery)
    (world : TurnWorld) : Turn :=
  let msg := requestMessage slf world.drawn msgDetail
  let state := { state with agentKeyDlgProof := some msgDetail.keyDlgProof }
  let state := state.createAndStoreInternalMessage msg
  ⟨sendMessageIfNeeded crates protocol slf state world delivery msg.uid
    (buildInviteMessage protocol slf msg msgDetail), state,
    [.requested msg.uid, .stored msg.uid false]⟩

/-! ### Answers to requests -/

def remoteConnectionDetail (msgDetail : ConnectionRequestAnswerMessageDetail) :
    RemoteConnectionDetail where
  forwardAgentDetail := msgDetail.senderAgencyDetail
  agentDetail := ⟨msgDetail.senderDetail.did, msgDetail.senderDetail.verkey⟩
  agentKeyDlgProof := msgDetail.senderDetail.agentKeyDlgProof

def handleCreateConnectionRequestAnswer (msgDetail : ConnectionRequestAnswerMessageDetail)
    (replyToMsgId msgUid : Option String) (senderVerkey : String) (delivery : Delivery) : Turn :=
  .ofResult state (do
    let replyToMsgId ←
      ofOption "Required field `reply_to_msg_id` is missed." replyToMsgId
    state.validateConnectionRequestAnswer msgDetail replyToMsgId
    match getMessageHandlerRole slf senderVerkey with
    | .owner => do
      let keyDlgProof ←
        ofOption "Required field `key_dlg_proof` is missed." msgDetail.keyDlgProof
      .ok (keyDlgProof, Awaiting.ownProof msgDetail replyToMsgId keyDlgProof delivery)
    | .remote => .ok (msgDetail.senderDetail.agentKeyDlgProof,
        Awaiting.remoteProof msgDetail replyToMsgId msgUid delivery))
    fun (proof, next) => verifyAgentKeyDlgProof crates state proof next

def receivedRequest (msgDetail : ConnectionRequestAnswerMessageDetail) (replyToMsgId : String) :
    InternalMessage :=
  .new "" (some replyToMsgId) .connReq .received msgDetail.senderDetail.did none none none none

def ownAnswer (drawn : String) (msgDetail : ConnectionRequestAnswerMessageDetail)
    (replyToMsgId : String) : InternalMessage :=
  .new drawn none .connReqAnswer msgDetail.answerStatusCode slf.userPairwiseDid
    (some replyToMsgId) none none msgDetail.thread

/-- Both proofs of the owner's answer are verified. -/
def storeOwnAnswer (msgDetail : ConnectionRequestAnswerMessageDetail) (replyToMsgId : String)
    (keyDlgProof : KeyDlgProof) (delivery : Delivery) (world : TurnWorld) : Turn :=
  let connReqMsg := receivedRequest msgDetail replyToMsgId
  let answerMsg := ownAnswer slf world.drawn msgDetail replyToMsgId
  let state := state.createAndStoreInternalMessage connReqMsg
  let state := state.createAndStoreInternalMessage answerMsg
  let state := { state with
    agentKeyDlgProof := some keyDlgProof
    remoteConnectionDetail := some (remoteConnectionDetail msgDetail) }
  let entries := [.stored connReqMsg.uid true, .stored answerMsg.uid false,
    .established .owner msgDetail.answerStatusCode replyToMsgId]
  match state.answerMessage replyToMsgId answerMsg.uid msgDetail.answerStatusCode with
  | .ok state => ⟨.awaiting (.senderDid .owner msgDetail answerMsg.uid delivery), state, entries⟩
  | .err e => ⟨.done (.err e), state, entries⟩
  | .panic => ⟨.done .panic, state, entries⟩

def remoteAnswer (drawn : String) (msgDetail : ConnectionRequestAnswerMessageDetail)
    (msgUid : Option String) : InternalMessage :=
  .new drawn msgUid .connReqAnswer msgDetail.answerStatusCode msgDetail.senderDetail.did none none
    none msgDetail.thread

/-- The proof of an answer of the other side is verified. -/
def storeRemoteAnswer (msgDetail : ConnectionRequestAnswerMessageDetail) (replyToMsgId : String)
    (msgUid : Option String) (delivery : Delivery) (world : TurnWorld) : Turn :=
  let answerMsg := remoteAnswer world.drawn msgDetail msgUid
  let state := state.createAndStoreInternalMessage answerMsg
  let state := { state with remoteConnectionDetail := some (remoteConnectionDetail msgDetail) }
  let entries := [.stored answerMsg.uid msgUid.isSome,
    .established .remote msgDetail.answerStatusCode replyToMsgId]
  match state.answerMessage replyToMsgId answerMsg.uid msgDetail.answerStatusCode with
  | .ok state => ⟨.awaiting (.senderDid .remote msgDetail answerMsg.uid delivery), state, entries⟩
  | .err e => ⟨.done (.err e), state, entries⟩
  | .panic => ⟨.done .panic, state, entries⟩

def answerCreated (uid : String) : A2AMessage :=
  match protocol with
  | .V1 => .version1 (.messageCreated ⟨uid⟩)
  | .V2 => .version2 (.connectionRequestAnswerResponse ⟨uid, true⟩)

/-- The DIDs of the other side are stored. The payload of its answer is packed for the owner. -/
def finishAnswer (role : MessageHandlerRole) (uid : String) (delivery : Delivery)
    (world : TurnWorld) : Progress :=
  match role with
  | .owner =>
    sendMessageIfNeeded crates protocol slf state world delivery uid [answerCreated protocol uid]
  | .remote =>
    if (state.messages.lookup uid).isSome then .awaiting (.answerPayload uid delivery)
    else .done (.err "Message not found.")

def storePayload (uid : String) (delivery : Delivery) (world : TurnWorld) : Turn :=
  match state.changeMessage uid fun message => { message with payload := some world.packed } with
  | some state => ⟨sendMessageIfNeeded crates protocol slf state world delivery uid
      [answerCreated protocol uid], state, []⟩
  | none => ⟨.done .panic, state, []⟩

/-! ### Other messages -/

def generalMessage (drawn : String) (mtype : RemoteMessageType) (msgDetail : GeneralMessageDetail)
    (uid : Option String) (senderVerkey : String) : InternalMessage :=
  let sendingData := ((∅ : AssocMap String (Option String)).insert "detail" msgDetail.detail).insert
    "title" msgDetail.title
  match getMessageHandlerRole slf senderVerkey with
  | .owner => .new drawn uid mtype .created slf.userPairwiseDid none (some msgDetail.msg)
      (some sendingData) none
  | .remote => .new drawn uid mtype .received
      ((state.remoteConnectionDetail.map (·.agentDetail.did)).getD slf.userPairwiseDid) none
      (some msgDetail.msg) (some sendingData) none

def generalCreated (uid : String) : A2AMessage :=
  match protocol with
  | .V1 => .version1 (.messageCreated ⟨uid⟩)
  | .V2 => .version2 (.sendRemoteMessageResponse ⟨uid, true⟩)

/-- A message that is replied to becomes accepted. -/
def answerIfReply (replyToMsgId : Option String) (uid : String) :
    AgentResult AgentConnectionState :=
  match replyToMsgId with
  | some msgId =>
    match state.answerMessage msgId uid .accepted with
    | .ok state => .ok state
    | _ => .panic
  | none => .ok state

def handleCreateGeneralMessage (mtype : RemoteMessageType) (msgDetail : GeneralMessageDetail)
    (replyToMsgId uid : Option String) (senderVerkey : String) (delivery : Delivery)
    (world : TurnWorld) : Turn :=
  .ofResult state (state.validateGeneralMessage replyToMsgId) fun _ =>
    let msg := generalMessage slf state world.drawn mtype msgDetail uid senderVerkey
    let entries := [.stored msg.uid uid.isSome]
    match answerIfReply (state.createAndStoreInternalMessage msg) replyToMsgId msg.uid with
    | .ok state => ⟨sendMessageIfNeeded crates protocol slf state world delivery msg.uid
        [generalCreated protocol msg.uid], state, entries⟩
    | .err e => ⟨.done (.err e), state.createAndStoreInternalMessage msg, entries⟩
    | .panic => ⟨.done .panic, state.createAndStoreInternalMessage msg, entries⟩

def handleCreateMessage (msg : CreateMessage) (tail : List A2AMessage) (senderVerkey : String)
    (world : TurnWorld) : Turn :=
  let delivery : Delivery := ⟨msg.sendMsg, msg.replyToMsgId, .V1⟩
  match msg.mtype, tail with
  | .connReq, .version1 (.messageDetail (.connectionRequest detail)) :: _ =>
    handleCreateConnectionRequest crates slf state detail senderVerkey delivery
  | .connReqAnswer, .version1 (.messageDetail (.connectionRequestAnswer detail)) :: _ =>
    handleCreateConnectionRequestAnswer crates slf state detail msg.replyToMsgId msg.uid
      senderVerkey delivery
  | mtype, .version1 (.messageDetail (.general detail)) :: _ =>
    handleCreateGeneralMessage crates protocol slf state mtype detail msg.replyToMsgId msg.uid
      senderVerkey delivery world
  | _, _ => ⟨.done (.err "Unsupported message."), state, []⟩

def handleSendRemoteMessage (msg : SendRemoteMessage) (senderVerkey : String)
    (world : TurnWorld) : Turn :=
  handleCreateGeneralMessage crates protocol slf state msg.mtype
    ⟨crates.toVec msg.msg, msg.title, msg.detail⟩ msg.replyToMsgId (some msg.id) senderVerkey
    ⟨msg.sendMsg, msg.replyToMsgId, .V2⟩ world

def handleSendMessages (msg : SendMessages) (world : TurnWorld) : Turn :=
  ⟨sendAll crates protocol slf state world (msg.uids.map fun uid => (uid, none)) [] true, state, []⟩

/-! ### Reading and updating -/

def detailPayload (excludePayload : Option String) (payload : Option (List UInt8)) :
    AgentResult (Option MessageDetailPayload) :=
  if excludePayload = some "Y" then .ok none
  else
    match payload with
    | none => .ok none
    | some payload =>
      match protocol with
      | .V1 => .ok (some (.V1 (toI8 payload)))
      | .V2 => do
        let value ← unwrap (crates.fromSlice payload)
        .ok (some (.V2 value))

def getMessages (msg : GetMessages) : AgentResult (List GetMessagesDetailResponse) :=
  ((crates.order.order state.messages.values).filter fun message =>
      (msg.uids.isEmpty || msg.uids.contains message.uid) &&
        (msg.statusCodes.isEmpty || msg.statusCodes.contains message.statusCode)).mapM
    fun message => do
      let payload ← detailPayload crates protocol msg.excludePayload message.payload
      .ok ⟨message.uid, message.statusCode, message.senderDid, message.type, payload,
        message.refMsgId⟩

def handleGetMessages (msg : GetMessages) : Turn :=
  .ofResult state (getMessages crates protocol state msg) fun messages =>
    ⟨persistConnectionState state [match protocol with
      | .V1 => .version1 (.messages ⟨messages⟩)
      | .V2 => .version2 (.messages ⟨messages⟩)], state, []⟩

def handleUpdateConnectionStatus (msg : UpdateConnectionStatus) : Turn :=
  if msg.statusCode ≠ .deleted then ⟨.done (.err "Invalid status code received."), state, []⟩
  else
    let state := { state with connectionStatus := msg.statusCode }
    ⟨persistConnectionState state [match protocol with
      | .V1 => .version1 (.connectionStatusUpdated ⟨msg.statusCode⟩)
      | .V2 => .version2 (.connectionStatusUpdated ⟨msg.statusCode⟩)], state, []⟩

def handleUpdateMessageStatus (msg : UpdateMessageStatus) : Turn :=
  let (result, state) := state.updateMessagesStatus msg
  .ofResult state result fun (uids, statusCode) =>
    ⟨persistConnectionState state [match protocol with
      | .V1 => .version1 (.messageStatusUpdated ⟨uids, statusCode⟩)
      | .V2 => .version2 (.messageStatusUpdated ⟨uids, statusCode⟩)], state, []⟩

/-- A message of the agent itself is handled at once, and the state is not written. -/
def handleAgent2ConnMessage (msg : A2ConnMessage) :
    AgentResult A2ConnMessage × AgentConnectionState :=
  match msg with
  | .getMessages msg =>
    ((getMessages crates protocol state msg).bind fun msgs =>
      .ok (.messagesByConnection ⟨slf.userPairwiseDid, msgs⟩), state)
  | .updateMessages msg =>
    let (result, state) := state.updateMessagesStatus msg
    (result.bind fun (uids, _) =>
      .ok (.messageStatusUpdatedByConnection ⟨uids, slf.userPairwiseDid⟩), state)
  | _ => (.err "Unsupported message.", state)

/-! ### Turns -/

/-- The first turn of a message that was decrypted. -/
def handleA2aMsg (senderVk : String) (msgs : List A2AMessage) (world : TurnWorld) : Turn :=
  .ofResult state (checkMessageSender slf state msgs.head? senderVk) fun _ =>
    match msgs with
    | .version1 (.createMessage msg) :: tail =>
      handleCreateMessage crates protocol slf state msg tail senderVk world
    | .version2 (.connectionRequest msg) :: _ =>
      handleCreateConnectionRequest crates slf state msg.toDetail senderVk
        ⟨msg.sendMsg, msg.replyToMsgId, .V2⟩
    | .version2 (.connectionRequestAnswer msg) :: _ =>
      handleCreateConnectionRequestAnswer crates slf state msg.toDetail msg.replyToMsgId
        (some msg.id) senderVk ⟨msg.sendMsg, msg.replyToMsgId, .V2⟩
    | .version2 (.sendRemoteMessage msg) :: _ =>
      handleSendRemoteMessage crates protocol slf state msg senderVk world
    | .version1 (.sendMessages msg) :: _ | .version2 (.sendMessages msg) :: _ =>
      handleSendMessages crates protocol slf state msg world
    | .version1 (.getMessages msg) :: _ | .version2 (.getMessages msg) :: _ =>
      handleGetMessages crates protocol state msg
    | .version1 (.updateConnectionStatus msg) :: _
    | .version2 (.updateConnectionStatus msg) :: _ =>
      handleUpdateConnectionStatus protocol state msg
    | .version1 (.updateMessageStatus msg) :: _ | .version2 (.updateMessageStatus msg) :: _ =>
      handleUpdateMessageStatus protocol state msg
    | _ => ⟨.done (.err "Unsupported message"), state, []⟩

/-- What a call in flight reports when it fails. -/
def failure : Awaiting → String
  | .requestProof .. | .ownProof .. | .senderProof .. | .remoteProof .. =>
    "Agent key delegation proof verification failed."
  | .senderDid .. | .senderAgencyDid .. => "Can't create my DID for pairwise."
  | .answerPayload .. => "Can't encode Answer Payload."
  | .sent .. => "Can't send message to Remote Endpoint."
  | .persisted .. => "Can't store connection state."
  | .encrypted .. => "Can't bundle and authcrypt message."

/-- The next turn of a message, once the call in flight has succeeded. -/
def proceed (senderVk : String) (world : TurnWorld) : Awaiting → Turn
  | .requestProof msgDetail delivery =>
    storeConnectionRequest crates protocol slf state msgDetail delivery world
  | .ownProof msgDetail replyToMsgId keyDlgProof delivery =>
    verifyAgentKeyDlgProof crates state msgDetail.senderDetail.agentKeyDlgProof
      (.senderProof msgDetail replyToMsgId keyDlgProof delivery)
  | .senderProof msgDetail replyToMsgId keyDlgProof delivery =>
    storeOwnAnswer slf state msgDetail replyToMsgId keyDlgProof delivery world
  | .remoteProof msgDetail replyToMsgId msgUid delivery =>
    storeRemoteAnswer state msgDetail replyToMsgId msgUid delivery world
  | .senderDid role msgDetail uid delivery =>
    ⟨.awaiting (.senderAgencyDid role msgDetail uid delivery), state, []⟩
  | .senderAgencyDid role _ uid delivery =>
    ⟨finishAnswer crates protocol slf state role uid delivery world, state, []⟩
  | .answerPayload uid delivery => storePayload crates protocol slf state uid delivery world
  | .sent _ uids msgs reported =>
    ⟨persistConnectionState state (reportSent protocol uids msgs reported), state, []⟩
  | .persisted _ msgs =>
    .ofResult state (getRecipientKey slf state senderVk) fun _ =>
      ⟨.awaiting (.encrypted msgs), state, []⟩
  | .encrypted msgs => ⟨.done (.ok msgs), state, []⟩

def resume (senderVk : String) (awaiting : Awaiting) (world : TurnWorld) : Turn :=
  if world.succeeded then proceed crates protocol slf state senderVk world awaiting
  else ⟨.done (.err (failure awaiting)), state, []⟩

end AgentConnection

end IndySdk.Agency
