import IndySdk.CredentialExchange

/-!
# The connection object

Connecting creates keys on the agent, updates the agent's profile and sends or accepts an invite;
updating reads the answers to an invite; deleting tells the agency and releases the handle. Each
call changes the object in the map of all connections step by step. What configuration and agency
answer during one call is a world.
-/

namespace IndySdk.Vcx.Pairwise

def connectionError : VcxErrorKind := .other 1002

def invalidConnectionHandle : VcxErrorKind := .other 1003

def postMessageFailed : VcxErrorKind := .other 1010

def invalidHandle : VcxErrorKind := .other 1048

def deleteConnectionKind : VcxErrorKind := .other 1060

structure SenderDetail where
  name : Option String := none
  did : String
  logoUrl : Option String := none
  verkey : String
  publicDid : Option String := none
  deriving DecidableEq

structure SenderAgencyDetail where
  did : String
  verkey : String
  endpoint : String
  deriving DecidableEq

structure InviteDetail where
  statusCode : String
  connReqId : String
  senderDetail : SenderDetail
  senderAgencyDetail : SenderAgencyDetail
  targetName : String
  statusMsg : String
  threadId : Option String
  deriving DecidableEq

inductive MessageStatusCode where
  | created | sent | pending | accepted | rejected | reviewed
  deriving DecidableEq

inductive RemoteMessageType where
  | other (name : String)
  | connReq | connReqAnswer | credOffer | credReq | cred | proofReq | proof
  deriving DecidableEq

structure Message where
  statusCode : MessageStatusCode
  payload : Option String
  senderDid : String
  uid : String
  msgType : RemoteMessageType
  refMsgId : Option String
  deriving DecidableEq

structure ConnectionOptions where
  phone : Option String := none
  usePublicDid : Option Bool := none

structure Connection where
  sourceId : String
  pwDid : String
  pwVerkey : String
  state : VcxStateType
  uuid : String := ""
  endpoint : String := ""
  inviteDetail : Option InviteDetail := none
  inviteUrl : Option String := none
  agentDid : String := ""
  agentVk : String := ""
  theirPwDid : String := ""
  theirPwVerkey : String := ""
  publicDid : Option String := none
  theirPublicDid : Option String := none
  deriving DecidableEq

abbrev Connections := AssocMap ℕ Connection

structure World where
  institutionDid : Except VcxError String
  institutionName : Except VcxError String
  institutionLogoUrl : Except VcxError String
  createKeys : (forDid forVerkey : String) → Except VcxError (String × String)
  updateData : (toDid name logoUrl : String) → Option String → Except VcxError Unit
  sendInvite : (toDid toVk : String) → Option String → (agentDid agentVk : String) →
    Option String → Except VcxError (InviteDetail × String)
  acceptInvite : (toDid toVk agentDid agentVk : String) → SenderDetail → SenderAgencyDetail →
    String → Thread → Except VcxError Unit
  getMessages : (toDid toVk agentDid agentVk : String) → Except VcxError (List Message)
  deleteConnection : (toDid toVk agentDid agentVk : String) → Except VcxError Unit
  parseAcceptanceDetails : Message → Except VcxError SenderDetail

/-- An answer with the object as the call leaves it. -/
abbrev Changed := Except VcxError ℕ × Connection

/-- Go on from a step that succeeded. -/
def andThen (r : Changed) (next : Connection → Changed) : Changed :=
  match r.1 with
  | .ok _ => next r.2
  | .error e => (.error e, r.2)

def VcxError.extend (msg : String) (e : VcxError) : VcxError := { e with msg, args := [] }

namespace Connection

variable (world : World) (options : ConnectionOptions) (c : Connection)

def createAgentPairwise : Changed :=
  match world.createKeys c.pwDid c.pwVerkey with
  | .ok (forDid, forVerkey) => (.ok 0, { c with agentDid := forDid, agentVk := forVerkey })
  | .error e => (.error (VcxError.extend "Cannot create pairwise keys" e), c)

def takePublicDid : Changed :=
  if options.usePublicDid = some true then
    match world.institutionDid with
    | .ok did => (.ok 0, { c with publicDid := some did })
    | .error e => (.error e, c)
  else (.ok 0, c)

/-- The profile is only sent when the institution has a name. -/
def sendProfile : Changed :=
  match world.institutionName with
  | .ok name =>
    match world.institutionLogoUrl with
    | .ok logoUrl =>
      match world.updateData c.pwDid name logoUrl c.publicDid with
      | .ok () => (.ok 0, c)
      | .error e => (.error (VcxError.extend "Cannot update agent profile" e), c)
    | .error e => (.error e, c)
  | .error _ => (.ok 0, c)

def updateAgentProfile : Changed :=
  andThen (c.takePublicDid world options) fun c => c.sendProfile world

def connectSendInvite : Changed :=
  match world.sendInvite c.pwDid c.pwVerkey options.phone c.agentDid c.agentVk c.publicDid with
  | .ok (invite, url) =>
    (.ok 0, { c with state := .offerSent, inviteDetail := some invite, inviteUrl := some url })
  | .error e => (.error (VcxError.extend "Cannot send invite" e), c)

def buildThread (inviteDetail : InviteDetail) : Thread where
  thid := inviteDetail.threadId
  receivedOrders := AList.insert inviteDetail.senderDetail.did 0 ∅

def connectAcceptInvite : Changed :=
  match c.inviteDetail with
  | none => (.error ⟨connectionError, "Invite details not found for: _", [c.sourceId]⟩, c)
  | some details =>
    match world.acceptInvite c.pwDid c.pwVerkey c.agentDid c.agentVk details.senderDetail
        details.senderAgencyDetail details.connReqId (buildThread details) with
    | .ok () => (.ok 0, { c with state := .accepted })
    | .error e => (.error (VcxError.extend "Cannot accept invite" e), c)

def connect : Changed :=
  match c.state with
  | .initialized | .offerSent => c.connectSendInvite world options
  | .requestReceived => c.connectAcceptInvite world
  | state =>
    (.error ⟨connectionError, "Connection _ in state _ not ready to connect",
      [c.sourceId, toString state.code]⟩, c)

def deleteConnection : Changed :=
  match world.deleteConnection c.pwDid c.pwVerkey c.agentDid c.agentVk with
  | .ok () => (.ok 0, { c with state := .none })
  | .error e => (.error (VcxError.extend "Cannot delete connection" e), c)

end Connection

/-! ### Calls -/

/-- Objects are reached through their handles. -/
def getMut (connections : Connections) (handle : ℕ) (f : Connection → Changed) :
    Except VcxError ℕ × Connections :=
  match connections.lookup handle with
  | some c => ((f c).1, connections.insert handle (f c).2)
  | none => (.error ⟨invalidHandle, "Object not found for handle: _", [toString handle]⟩,
      connections)

def release (connections : Connections) (handle : ℕ) : Except VcxError Unit × Connections :=
  match connections.lookup handle with
  | some _ => (.ok (), connections.erase handle)
  | none => (.error ⟨invalidConnectionHandle, "", []⟩, connections)

section

variable (world : World) (connections : Connections) (handle : ℕ)

/-- `options` is the options text as it is read. -/
def connect (options : Except VcxError ConnectionOptions) : Except VcxError ℕ × Connections :=
  match options with
  | .error e => (.error e, connections)
  | .ok options =>
    getMut connections handle fun c =>
      andThen (c.createAgentPairwise world) fun c =>
        andThen (c.updateAgentProfile world options) fun c => c.connect world options

def Message.isAcceptance (message : Message) : Bool :=
  message.statusCode = .accepted ∧ message.msgType = .connReqAnswer

/-- The object after each answer that was applied. -/
def acceptAnswers : Connection → List Message → Except VcxError Unit × List Connection
  | _, [] => (.ok (), [])
  | c, message :: messages =>
    if message.isAcceptance then
      match world.parseAcceptanceDetails message with
      | .error e => (.error (VcxError.extend "Cannot parse acceptance details" e), [])
      | .ok details =>
        let next := { c with
          theirPwDid := details.did, theirPwVerkey := details.verkey, state := .accepted }
        let rest := acceptAnswers next messages
        (rest.1, next :: rest.2)
    else acceptAnswers c messages

/-- The answer, the object after each change, and the connections. -/
def updateState : Except VcxError ℕ × List Connection × Connections :=
  match connections.lookup handle with
  | none => (.error ⟨invalidConnectionHandle, "", []⟩, [], connections)
  | some c =>
    if c.state = .initialized ∨ c.state = .accepted then (.ok 0, [], connections)
    else
      match world.getMessages c.pwDid c.pwVerkey c.agentDid c.agentVk with
      | .error _ =>
        (.error ⟨postMessageFailed, "Could not update state for handle _", [toString handle]⟩, [],
          connections)
      | .ok messages =>
        if c.state = .offerSent then
          let (result, trail) := acceptAnswers world c messages
          (result.map (fun _ => 0), trail,
            connections.insert handle ((c :: trail).getLast (List.cons_ne_nil c trail)))
        else (.ok 0, [], connections)

/-- The handle is released whatever the agency answered. -/
def deleteConnection : Except VcxError ℕ × Connections :=
  let (deleted, connections) := getMut connections handle fun c => c.deleteConnection world
  let (released, connections) := release connections handle
  match deleted with
  | .error _ => (.error ⟨deleteConnectionKind, "", []⟩, connections)
  | .ok _ => (released.map (fun _ => 0), connections)

end

end IndySdk.Vcx.Pairwise
