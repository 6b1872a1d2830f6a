import IndySdk.AssocMap
import IndySdk.Json

/-!
# Messages between agents

What the owner of an agent, the cloud agent and the agents of others say to each other, in two
versions of the protocol.
-/

namespace IndySdk.Agency

inductive ProtocolTypes where
  | V1
  | V2
  deriving DecidableEq

inductive MessageStatusCode where
  | created
  | sent
  | received
  | accepted
  | rejected
  | reviewed
  deriving DecidableEq

namespace MessageStatusCode

def message : MessageStatusCode → String
  | .created => "message created"
  | .sent => "message sent"
  | .received => "message received"
  | .accepted => "message accepted"
  | .rejected => "message rejected"
  | .reviewed => "message reviewed"

def validStatusCodes : List MessageStatusCode := [.accepted, .rejected]

def validNewMessageStatusCodesAllowedUpdateTo : List MessageStatusCode :=
  [.accepted, .rejected, .reviewed]

def validExistingMessageStatusesToUpdate : List MessageStatusCode := [.received]

end MessageStatusCode

inductive ConnectionStatus where
  | alreadyConnected
  | notConnected
  | deleted
  deriving DecidableEq

inductive RemoteMessageType where
  | connReq
  | connReqAnswer
  | credOffer
  | credReq
  | cred
  | proofReq
  | proof
  | other (name : String)
  deriving DecidableEq

structure KeyDlgProof where
  agentDid : String
  agentDelegatedKey : String
  signature : String

def KeyDlgProof.challenge (proof : KeyDlgProof) : String :=
  proof.agentDid ++ proof.agentDelegatedKey

structure ForwardAgentDetail where
  did : String
  verkey : String
  endpoint : String

structure AgentDetail where
  did : String
  verkey : String

structure SenderDetail where
  did : String
  verkey : String
  agentKeyDlgProof : KeyDlgProof
  name : Option String
  logoUrl : Option String
  publicDid : Option String

structure InviteDetail where
  connReqId : String
  targetName : Option String
  senderAgencyDetail : ForwardAgentDetail
  senderDetail : SenderDetail
  statusCode : MessageStatusCode
  statusMsg : String
  threadId : Option String

structure Thread where
  thid : Option String
  pthid : Option String
  senderOrder : ℕ
  receivedOrders : AssocMap String ℕ

def Thread.new : Thread := ⟨none, none, 0, ∅⟩

/-! ### Requests and answers -/

structure ForwardV1 where
  fwd : String
  msg : List UInt8

structure ForwardV2 where
  fwd : String
  msg : Json

structure Connect where
  fromDid : String
  fromDidVerkey : String

structure Connected where
  withPairwiseDid : String
  withPairwiseDidVerkey : String

structure AgentCreated where
  withPairwiseDid : String
  withPairwiseDidVerkey : String

structure CreateKey where
  forDid : String
  forDidVerkey : String

structure KeyCreated where
  withPairwiseDid : String
  withPairwiseDidVerkey : String

structure CreateMessage where
  mtype : RemoteMessageType
  sendMsg : Bool
  uid : Option String
  replyToMsgId : Option String

structure MessageCreated where
  uid : String

structure SendMessages where
  uids : List String

structure MessageSent where
  uids : List String

structure UpdateConnectionStatus where
  statusCode : ConnectionStatus

structure ConnectionStatusUpdated where
  statusCode : ConnectionStatus

structure UpdateMessageStatus where
  uids : List String
  statusCode : MessageStatusCode

structure MessageStatusUpdated where
  uids : List String
  statusCode : MessageStatusCode

structure GetMessages where
  excludePayload : Option String
  uids : List String
  statusCodes : List MessageStatusCode

structure GetMessagesByConnections where
  excludePayload : Option String
  uids : List String
  statusCodes : List MessageStatusCode
  pairwiseDids : List String

inductive MessageDetailPayload where
  | V1 (payload : List Int8)
  | V2 (payload : Json)

structure GetMessagesDetailResponse where
  uid : String
  statusCode : MessageStatusCode
  senderDid : String
  type : RemoteMessageType
  payload : Option MessageDetailPayload
  refMsgId : Option String

structure Messages where
  msgs : List GetMessagesDetailResponse

structure MessagesByConnection where
  did : String
  msgs : List GetMessagesDetailResponse

structure MessagesByConnections where
  msgs : List MessagesByConnection

structure UidByConnection where
  uids : List String
  pairwiseDid : String

structure UpdateMessageStatusByConnections where
  statusCode : MessageStatusCode
  uidsByConn : List UidByConnection

structure FailedMessageUpdateInfo where
  pairwiseDid : String
  statusCode : MessageStatusCode
  statusMsg : String

structure MessageStatusUpdatedByConnections where
  updatedUidsByConn : List UidByConnection
  failed : List FailedMessageUpdateInfo

structure ConfigOption where
  name : String
  value : String

structure UpdateConfigs where
  configs : List ConfigOption

structure GetConfigs where
  configs : List String

structure Configs where
  configs : List ConfigOption

structure RemoveConfigs where
  configs : List String

structure ComMethod where
  id : String
  eType : Int
  value : String

structure UpdateComMethod where
  comMethod : ComMethod

structure ComMethodUpdated where
  id : String

/-! ### Details of what is created -/

structure ConnectionRequestMessageDetail where
  keyDlgProof : KeyDlgProof
  targetName : Option String
  phoneNo : Option String
  usePublicDid : Option Bool
  threadId : Option String

structure ConnectionRequestMessageDetailResp where
  inviteDetail : InviteDetail
  urlToInviteDetail : String

structure ConnectionRequestAnswerMessageDetail where
  keyDlgProof : Option KeyDlgProof
  senderDetail : SenderDetail
  senderAgencyDetail : ForwardAgentDetail
  answerStatusCode : MessageStatusCode
  thread : Option Thread

structure GeneralMessageDetail where
  msg : List UInt8
  title : Option String
  detail : Option String

structure SendMessageDetail where
  msg : List UInt8
  title : Option String
  detail : Option String
  answerStatusCode : MessageStatusCode

inductive MessageDetail where
  | connectionRequestAnswer (detail : ConnectionRequestAnswerMessageDetail)
  | connectionRequest (detail : ConnectionRequestMessageDetail)
  | connectionRequestResp (detail : ConnectionRequestMessageDetailResp)
  | general (detail : GeneralMessageDetail)
  | send (detail : SendMessageDetail)

structure ConnectionRequest where
  sendMsg : Bool
  id : String
  replyToMsgId : Option String
  keyDlgProof : KeyDlgProof
  targetName : Option String
  phoneNo : Option String
  includePublicDid : Bool
  thread : Thread

def ConnectionRequest.toDetail (msg : ConnectionRequest) : ConnectionRequestMessageDetail where
  keyDlgProof := msg.keyDlgProof
  targetName := msg.targetName
  phoneNo := msg.phoneNo
  usePublicDid := some msg.includePublicDid
  threadId := some msg.id

structure ConnectionRequestResponse where
  id : String
  inviteDetail : InviteDetail
  urlToInviteDetail : String
  sent : Bool

structure ConnectionRequestAnswer where
  sendMsg : Bool
  id : String
  replyToMsgId : Option String
  keyDlgProof : Option KeyDlgProof
  senderDetail : SenderDetail
  senderAgencyDetail : ForwardAgentDetail
  answerStatusCode : MessageStatusCode
  thread : Thread

def ConnectionRequestAnswer.toDetail (msg : ConnectionRequestAnswer) :
    ConnectionRequestAnswerMessageDetail where
  keyDlgProof := msg.keyDlgProof
  senderDetail := msg.senderDetail
  senderAgencyDetail := msg.senderAgencyDetail
  answerStatusCode := msg.answerStatusCode
  thread := some msg.thread

structure ConnectionRequestAnswerResponse where
  id : String
  sent : Bool

structure SendRemoteMessage where
  mtype : RemoteMessageType
  id : String
  replyToMsgId : Option String
  sendMsg : Bool
  msg : Json
  title : Option String
  detail : Option String

structure SendRemoteMessageResponse where
  id : String
  sent : Bool

/-! ### Both versions -/

inductive A2AMessageV1 where
  | forward (msg : ForwardV1)
  | connect (msg : Connect)
  | connected (msg : Connected)
  | signUp
  | signedUp
  | createAgent
  | agentCreated (msg : AgentCreated)
  | createKey (msg : CreateKey)
  | keyCreated (msg : KeyCreated)
  | createMessage (msg : CreateMessage)
  | messageDetail (msg : MessageDetail)
  | messageCreated (msg : MessageCreated)
  | messageSent (msg : MessageSent)
  | updateConnectionStatus (msg : UpdateConnectionStatus)
  | connectionStatusUpdated (msg : ConnectionStatusUpdated)
  | sendMessages (msg : SendMessages)
  | updateMessageStatus (msg : UpdateMessageStatus)
  | messageStatusUpdated (msg : MessageStatusUpdated)
  | getMessages (msg : GetMessages)
  | messages (msg : Messages)
  | getMessagesByConnections (msg : GetMessagesByConnections)
  | messagesByConnections (msg : MessagesByConnections)
  | updateMessageStatusByConnections (msg : UpdateMessageStatusByConnections)
  | messageStatusUpdatedByConnections (msg : MessageStatusUpdatedByConnections)
  | updateConfigs (msg : UpdateConfigs)
  | configsUpdated
  | getConfigs (msg : GetConfigs)
  | configs (msg : Configs)
  | removeConfigs (msg : RemoveConfigs)
  | configsRemoved
  | updateComMethod (msg : UpdateComMethod)
  | comMethodUpdated (msg : ComMethodUpdated)

inductive A2AMessageV2 where
  | forward (msg : ForwardV2)
  | connect (msg : Connect)
  | connected (msg : Connected)
  | signUp
  | signedUp
  | createAgent
  | agentCreated (msg : AgentCreated)
  | createKey (msg : CreateKey)
  | keyCreated (msg : KeyCreated)
  | updateConnectionStatus (msg : UpdateConnectionStatus)
  | connectionStatusUpdated (msg : ConnectionStatusUpdated)
  | sendMessages (msg : SendMessages)
  | messageSent (msg : MessageSent)
  | updateMessageStatus (msg : UpdateMessageStatus)
  | messageStatusUpdated (msg : MessageStatusUpdated)
  | getMessages (msg : GetMessages)
  | messages (msg : Messages)
  | getMessagesByConnections (msg : GetMessagesByConnections)
  | messagesByConnections (msg : MessagesByConnections)
  | updateMessageStatusByConnections (msg : UpdateMessageStatusByConnections)
  | messageStatusUpdatedByConnections (msg : MessageStatusUpdatedByConnections)
  | updateConfigs (msg : UpdateConfigs)
  | configsUpdated
  | getConfigs (msg : GetConfigs)
  | configs (msg : Configs)
  | removeConfigs (msg : RemoveConfigs)
  | configsRemoved
  | updateComMethod (msg : UpdateComMethod)
  | comMethodUpdated (msg : ComMethodUpdated)
  | connectionRequest (msg : ConnectionRequest)
  | connectionRequestResponse (msg : ConnectionRequestResponse)
  | connectionRequestAnswer (msg : ConnectionRequestAnswer)
  | connectionRequestAnswerResponse (msg : ConnectionRequestAnswerResponse)
  | sendRemoteMessage (msg : SendRemoteMessage)
  | sendRemoteMessageResponse (msg : SendRemoteMessageResponse)

inductive A2AMessage where
  | version1 (msg : A2AMessageV1)
  | version2 (msg : A2AMessageV2)

/-- What an agent asks one of its connections, and is answered. -/
inductive A2ConnMessage where
  | getMessages (msg : GetMessages)
  | messagesByConnection (msg : MessagesByConnection)
  | updateMessages (msg : UpdateMessageStatus)
  | messageStatusUpdatedByConnection (msg : UidByConnection)

end IndySdk.Agency
