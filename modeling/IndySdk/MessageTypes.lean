import IndySdk.A2AMessages
import IndySdk.GreedyPattern

/-!
# Message types

The type of a message is a text with a DID, a family, a version and a name. The library of the owner
and the cloud agent each have their own builders, writer and reader of it.
-/

namespace IndySdk

namespace MessageType

/-- The word characters and digits; those beyond ASCII stand in the tables of Unicode. -/
def isWord (beyondAscii : Char → Bool) (c : Char) : Bool :=
  c.isAlphanum || c == '_' || (decide (128 ≤ c.toNat) && beyondAscii c)

def isAny (c : Char) : Bool := c != '\n'

def pattern (beyondAscii : Char → Bool) : List (GreedyPattern.Piece Char) :=
  [.run (fun c => isWord beyondAscii c || c == ':'), .one ';',
    .run isAny, .one '/',
    .run isAny, .one '/',
    .run isAny, .one '/',
    .run isAny]

/-- The DID, the family, the version and the name in a text. -/
def capture (beyondAscii : Char → Bool) (text : String) :
    Option (String × String × String × String) :=
  match GreedyPattern.captures (pattern beyondAscii) text.toList with
  | some [did, _, family, version, type] =>
    some (String.ofList did, String.ofList family, String.ofList version, String.ofList type)
  | _ => none

structure Parts (Family : Type) where
  did : String
  family : Family
  version : String
  type : String
  deriving DecidableEq

variable {Family : Type}

def write (familyName : Family → String) (m : Parts Family) : Json :=
  .str (m.did ++ ";spec/" ++ familyName m.family ++ "/" ++ m.version ++ "/" ++ m.type)

def read (parse : String → Except String (String × String × String × String))
    (ofName : String → Family) (value : Json) : Except String (Parts Family) :=
  match value.asStr with
  | some text => do
    let (did, family, version, type) ← parse text
    pure ⟨did, ofName family, version, type⟩
  | none => .error "Unexpected @type field structure."

end MessageType

/-! ### The library of the owner -/

namespace Vcx

inductive ProtocolTypes where
  | V1
  | V2
  deriving DecidableEq

inductive MessageFamilies where
  | routing | onboarding | pairwise | configs | credentialExchange
  | unknown (family : String)
  deriving DecidableEq

namespace MessageFamilies

def version : MessageFamilies → String
  | .routing => "1.0"
  | .onboarding => "1.0"
  | .pairwise => "1.0"
  | .configs => "1.0"
  | .credentialExchange => "1.0"
  | .unknown _ => "1.0"

def ofString (family : String) : MessageFamilies :=
  if family = "routing" then .routing
  else if family = "onboarding" then .onboarding
  else if family = "pairwise" then .pairwise
  else if family = "configs" then .configs
  else if family = "credential-exchange" then .credentialExchange
  else .unknown family

def toString : MessageFamilies → String
  | .routing => "routing"
  | .onboarding => "onboarding"
  | .pairwise => "pairwise"
  | .credentialExchange => "credential_exchange"
  | .configs => "configs"
  | .unknown family => family

end MessageFamilies

abbrev MessageTypeV2 := MessageType.Parts MessageFamilies

def parseMessageType (beyondAscii : Char → Bool) (messageType : String) :
    Except String (String × String × String × String) :=
  match MessageType.capture beyondAscii messageType with
  | some parts => .ok parts
  | none => .error "Cannot parse @type"

def MessageTypeV2.serialize (m : MessageTypeV2) : Json :=
  MessageType.write MessageFamilies.toString m

def MessageTypeV2.deserialize (beyondAscii : Char → Bool) (value : Json) :
    Except String MessageTypeV2 :=
  MessageType.read (parseMessageType beyondAscii) MessageFamilies.ofString value

def MessageTypes.did : String := "did:sov:123456789abcdefghi1234"

inductive A2AMessageKinds where
  | forward | connect | connected | signUp | signedUp | createAgent | agentCreated | createKey
  | keyCreated | createMessage | messageDetail | messageCreated | messageSent | getMessages
  | getMessagesByConnections | messages | updateMessageStatusByConnections
  | messageStatusUpdatedByConnections | updateConnectionStatus | updateConfigs | configsUpdated
  | updateComMethod | comMethodUpdated | connectionRequest | connectionRequestAnswer
  | sendRemoteMessage | sendRemoteMessageResponse
  deriving DecidableEq

namespace A2AMessageKinds

def family : A2AMessageKinds → MessageFamilies
  | .forward => .routing
  | .connect => .onboarding
  | .connected => .onboarding
  | .createAgent => .onboarding
  | .agentCreated => .onboarding
  | .signUp => .onboarding
  | .signedUp => .onboarding
  | .createKey => .pairwise
  | .keyCreated => .pairwise
  | .createMessage => .pairwise
  | .messageDetail => .pairwise
  | .messageCreated => .pairwise
  | .messageSent => .pairwise
  | .getMessages => .pairwise
  | .getMessagesByConnections => .pairwise
  | .messages => .pairwise
  | .updateConnectionStatus => .pairwise
  | .connectionRequest => .pairwise
  | .connectionRequestAnswer => .pairwise
  | .updateMessageStatusByConnections => .pairwise
  | .messageStatusUpdatedByConnections => .pairwise
  | .updateConfigs => .configs
  | .configsUpdated => .configs
  | .updateComMethod => .configs
  | .comMethodUpdated => .configs
  | .sendRemoteMessage => .routing
  | .sendRemoteMessageResponse => .routing

def name : A2AMessageKinds → String
  | .forward => "FWD"
  | .connect => "CONNECT"
  | .connected => "CONNECTED"
  | .createAgent => "CREATE_AGENT"
  | .agentCreated => "AGENT_CREATED"
  | .signUp => "SIGNUP"
  | .signedUp => "SIGNED_UP"
  | .createKey => "CREATE_KEY"
  | .keyCreated => "KEY_CREATED"
  | .createMessage => "CREATE_MSG"
  | .messageDetail => "MSG_DETAIL"
  | .messageCreated => "MSG_CREATED"
  | .messageSent => "MSGS_SENT"
  | .getMessages => "GET_MSGS"
  | .getMessagesByConnections => "GET_MSGS_BY_CONNS"
  | .updateMessageStatusByConnections => "UPDATE_MSG_STATUS_BY_CONNS"
  | .messageStatusUpdatedByConnections => "MSG_STATUS_UPDATED_BY_CONNS"
  | .messages => "MSGS"
  | .updateConnectionStatus => "UPDATE_CONN_STATUS"
  | .connectionRequest => "CONN_REQUEST"
  | .connectionRequestAnswer => "CONN_REQUEST_ANSWER"
  | .updateConfigs => "UPDATE_CONFIGS"
  | .configsUpdated => "CONFIGS_UPDATED"
  | .updateComMethod => "UPDATE_COM_METHOD"
  | .comMethodUpdated => "COM_METHOD_UPDATED"
  | .sendRemoteMessage => "SEND_REMOTE_MSG"
  | .sendRemoteMessageResponse => "REMOTE_MSG_SENT"

end A2AMessageKinds

def MessageTypes.buildV2 (kind : A2AMessageKinds) : MessageTypeV2 where
  did := MessageTypes.did
  family := kind.family
  version := kind.family.version
  type := kind.name

inductive PayloadKinds where
  | credOffer | credReq | cred | proof | proofRequest
  | other (name : String)
  deriving DecidableEq

namespace PayloadKinds

def family : PayloadKinds → MessageFamilies
  | .credOffer => .credentialExchange
  | .credReq => .credentialExchange
  | .cred => .credentialExchange
  | .proof => .credentialExchange
  | .proofRequest => .credentialExchange
  | .other family => .unknown family

def name (protocol : ProtocolTypes) : PayloadKinds → String
  | .credOffer => if protocol = .V1 then "CRED_OFFER" else "credential-offer"
  | .credReq => if protocol = .V1 then "CRED_REQ" else "credential-request"
  | .cred => if protocol = .V1 then "CRED" else "credential"
  | .proofRequest => if protocol = .V1 then "PROOF_REQUEST" else "presentation-request"
  | .proof => if protocol = .V1 then "PROOF" else "presentation"
  | .other kind => kind

end PayloadKinds

def PayloadTypes.buildV2 (protocol : ProtocolTypes) (kind : PayloadKinds) : MessageTypeV2 where
  did := MessageTypes.did
  family := kind.family
  version := kind.family.version
  type := kind.name protocol

end Vcx

/-! ### The cloud agent -/

namespace Agency

inductive MessageFamilies where
  | routing | onboarding | pairwise | configs | credentialExchange
  | other (family : String)
  deriving DecidableEq

namespace MessageFamilies

def version : MessageFamilies → String
  | .routing => "1.0"
  | .onboarding => "1.0"
  | .pairwise => "1.0"
  | .configs => "1.0"
  | .credentialExchange => "1.0"
  | .other _ => "1.0"

def ofString (family : String) : MessageFamilies :=
  if family = "routing" then .routing
  else if family = "onboarding" then .onboarding
  else if family = "pairwise" then .pairwise
  else if family = "configs" then .configs
  else if family = "credential-exchange" then .credentialExchange
  else .other family

def toString : MessageFamilies → String
  | .routing => "routing"
  | .onboarding => "onboarding"
  | .pairwise => "pairwise"
  | .credentialExchange => "credential_exchange"
  | .configs => "configs"
  | .other family => family

end MessageFamilies

abbrev MessageTypeV2 := MessageType.Parts MessageFamilies

def parseMessageType (beyondAscii : Char → Bool) (messageType : String) :
    Except String (String × String × String × String) :=
  match MessageType.capture beyondAscii messageType with
  | some parts => .ok parts
  | none => .error "Can not parse message @type"

def MessageTypeV2.serialize (m : MessageTypeV2) : Json :=
  MessageType.write MessageFamilies.toString m

def MessageTypeV2.deserialize (beyondAscii : Char → Bool) (value : Json) :
    Except String MessageTypeV2 :=
  MessageType.read (parseMessageType beyondAscii) MessageFamilies.ofString value

def MessageTypes.did : String := "did:sov:123456789abcdefghi1234"

inductive A2AMessageKinds where
  | forward | connect | connected | signUp | signedUp | createAgent | agentCreated | createKey
  | keyCreated | createMessage | messageDetail | messageCreated | messageSent | sendMessages
  | getMessages | getMessagesByConnections | messagesByConnections | messages
  | updateMessageStatus | messageStatusUpdated | updateMessageStatusByConnections
  | messageStatusUpdatedByConnections | updateConnectionStatus | connectionStatusUpdated
  | updateConfigs | configsUpdated | getConfigs | configs | removeConfigs | configsRemoved
  | connectionRequest | connectionRequestResponse | connectionRequestAnswer
  | connectionRequestAnswerResponse | sendRemoteMessage | sendRemoteMessageResponse
  | updateComMethod | comMethodUpdated
  deriving DecidableEq

namespace A2AMessageKinds

def family : A2AMessageKinds → MessageFamilies
  | .forward => .routing
  | .connect => .onboarding
  | .connected => .onboarding
  | .createAgent => .onboarding
  | .agentCreated => .onboarding
  | .signUp => .onboarding
  | .signedUp => .onboarding
  | .createKey => .pairwise
  | .keyCreated => .pairwise
  | .createMessage => .pairwise
  | .messageDetail => .pairwise
  | .messageCreated => .pairwise
  | .messageSent => .pairwise
  | .sendMessages => .pairwise
  | .getMessages => .pairwise
  | .getMessagesByConnections => .pairwise
  | .messagesByConnections => .pairwise
  | .messages => .pairwise
  | .updateConnectionStatus => .pairwise
  | .connectionStatusUpdated => .pairwise
  | .connectionRequest => .pairwise
  | .connectionRequestResponse => .pairwise
  | .connectionRequestAnswer => .pairwise
  | .connectionRequestAnswerResponse => .pairwise
  | .updateMessageStatus => .pairwise
  | .messageStatusUpdated => .pairwise
  | .updateMessageStatusByConnections => .pairwise
  | .messageStatusUpdatedByConnections => .pairwise
  | .updateConfigs => .configs
  | .configsUpdated => .configs
  | .getConfigs => .configs
  | .configs => .configs
  | .removeConfigs => .configs
  | .configsRemoved => .configs
  | .updateComMethod => .configs
  | .comMethodUpdated => .configs
  | .sendRemoteMessage => .routing
  | .sendRemoteMessageResponse => .routing

def name : A2AMessageKinds → String
  | .forward => "FWD"
  | .connect => "CONNECT"
  | .connected => "CONNECTED"
  | .createAgent => "CREATE_AGENT"
  | .agentCreated => "AGENT_CREATED"
  | .signUp => "SIGNUP"
  | .signedUp => "SIGNED_UP"
  | .createKey => "CREATE_KEY"
  | .keyCreated => "KEY_CREATED"
  | .createMessage => "CREATE_MSG"
  | .messageDetail => "MSG_DETAIL"
  | .messageCreated => "MSG_CREATED"
  | .messageSent => "MSGS_SENT"
  | .sendMessages => "SEND_MSGS"
  | .getMessages => "GET_MSGS"
  | .getMessagesByConnections => "GET_MSGS_BY_CONNS"
  | .messagesByConnections => "MSGS_BY_CONNS"
  | .updateMessageStatus => "UPDATE_MSG_STATUS"
  | .messageStatusUpdated => "MSG_STATUS_UPDATED"
  | .updateMessageStatusByConnections => "UPDATE_MSG_STATUS_BY_CONNS"
  | .messageStatusUpdatedByConnections => "MSG_STATUS_UPDATED_BY_CONNS"
  | .messages => "MSGS"
  | .updateConnectionStatus => "UPDATE_CONN_STATUS"
  | .connectionStatusUpdated => "CONN_STATUS_UPDATED"
  | .connectionRequest => "CONN_REQUEST"
  | .connectionRequestResponse => "CONN_REQUEST_RESP"
  | .connectionRequestAnswer => "CONN_REQUEST_ANSWER"
  | .connectionRequestAnswerResponse => "CONN_REQUEST_ANSWER_RESP"
  | .updateConfigs => "UPDATE_CONFIGS"
  | .configsUpdated => "CONFIGS_UPDATED"
  | .getConfigs => "GET_CONFIGS"
  | .configs => "CONFIGS"
  | .removeConfigs => "REMOVE_CONFIGS"
  | .configsRemoved => "CONFIGS_REMOVED"
  | .updateComMethod => "UPDATE_COM_METHOD"
  | .comMethodUpdated => "COM_METHOD_UPDATED"
  | .sendRemoteMessage => "SEND_REMOTE_MSG"
  | .sendRemoteMessageResponse => "REMOTE_MSG_SENT"

end A2AMessageKinds

def MessageTypes.buildV2 (kind : A2AMessageKinds) : MessageTypeV2 where
  did := MessageTypes.did
  family := kind.family
  version := kind.family.version
  type := kind.name

inductive PayloadKinds where
  | credOffer | credReq | cred | proof | proofRequest
  | other (name : String)
  deriving DecidableEq

namespace PayloadKinds

def family : PayloadKinds → MessageFamilies
  | .credOffer => .credentialExchange
  | .credReq => .credentialExchange
  | .cred => .credentialExchange
  | .proof => .credentialExchange
  | .proofRequest => .credentialExchange
  | .other family => .other family

def name (protocol : ProtocolTypes) : PayloadKinds → String
  | .credOffer => if protocol = .V1 then "CRED_OFFER" else "credential-offer"
  | .credReq => if protocol = .V1 then "CRED_REQ" else "credential-request"
  | .cred => if protocol = .V1 then "CRED" else "credential"
  | .proofRequest => if protocol = .V1 then "PROOF_REQUEST" else "presentation-request"
  | .proof => if protocol = .V1 then "PROOF" else "presentation"
  | .other kind => kind

end PayloadKinds

def PayloadTypes.buildV2 (protocol : ProtocolTypes) (kind : PayloadKinds) : MessageTypeV2 where
  did := MessageTypes.did
  family := kind.family
  version := kind.family.version
  type := kind.name protocol

end Agency

end IndySdk
