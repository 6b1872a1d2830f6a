import IndySdk.AgentConnection
import IndySdk.Turns

/-!
# Establishing a connection

The turns of the messages that one connection handles interleave, and every call between them may
fail. What a connection has stored and established is recorded, and the turns of a run are
compared with what a connection promises: it is established once, by an accepted answer that was
asked for; a failure leaves no trace; an answered message keeps its status; and nobody chooses the
identifier of a message that exists.
-/

namespace IndySdk.Agency

/-- The state of a connection, and what it has stored and established so far. -/
structure Recorded where
  state : AgentConnectionState := {}
  journal : List Entry := []

/-- A decrypted message and its sender, or a message of the agent itself. -/
inductive Input where
  | a2a (senderVk : String) (msgs : List A2AMessage) (world : TurnWorld)
  | a2conn (msg : A2ConnMessage)

structure Task where
  senderVk : String
  awaiting : Awaiting

inductive Reply where
  | a2a (msgs : List A2AMessage)
  | a2conn (msg : A2ConnMessage)

def Recorded.after (s : Recorded) (turn : Turn) : Recorded :=
  ⟨turn.state, s.journal ++ turn.entries⟩

def Turn.next (turn : Turn) (senderVk : String) : Task ⊕ AgentResult Reply :=
  match turn.progress with
  | .awaiting awaiting => .inl ⟨senderVk, awaiting⟩
  | .done result => .inr (Reply.a2a <$> result)

section Definitions

variable (crates : ConnectionCrates) (protocol : ProtocolTypes) (slf : AgentConnectionConfig)

def connectionTurns : Turns Recorded Input Task TurnWorld (AgentResult Reply) where
  start
    | .a2a senderVk msgs world, s =>
      let turn := AgentConnection.handleA2aMsg crates protocol slf s.state senderVk msgs world
      (turn.next senderVk, s.after turn)
    | .a2conn msg, s =>
      let handled := AgentConnection.handleAgent2ConnMessage crates protocol slf s.state msg
      (.inr (Reply.a2conn <$> handled.1), { s with state := handled.2 })
  resume task world s :=
    let turn := AgentConnection.resume crates protocol slf s.state task.senderVk task.awaiting world
    (turn.next task.senderVk, s.after turn)
  fatal result := result matches .panic

end Definitions

/-! ### What is promised -/

def Entry.isEstablished : Entry → Bool
  | .established .. => true
  | _ => false

/-- The turns of a message changed nothing. -/
def LeftAlone (spans : List (Recorded × Recorded)) : Prop :=
  ∀ span ∈ spans, span.2.state = span.1.state

structure SafeStep (s s' : Recorded) : Prop where
  once : s'.journal.countP Entry.isEstablished ≤ 1
  established : ∀ role statusCode replyToMsgId,
    .established role statusCode replyToMsgId ∈ s'.journal →
      statusCode = .accepted ∧ (role = .owner ∨ .requested replyToMsgId ∈ s'.journal)
  detail : s'.state.remoteConnectionDetail ≠ s.state.remoteConnectionDetail →
    s.journal.countP Entry.isEstablished < s'.journal.countP Entry.isEstablished
  answered : ∀ uid message, s.state.messages.lookup uid = some message →
    message.statusCode ∈ MessageStatusCode.validStatusCodes →
      ∃ message', s'.state.messages.lookup uid = some message' ∧
        message'.statusCode = message.statusCode
  notReplaced : ∀ entries, s'.journal = s.journal ++ entries →
    ∀ uid, .stored uid true ∈ entries → s.state.messages.lookup uid = none

/-- A message that fails leaves the state alone. -/
def FailsCleanly (spans : List (Recorded × Recorded)) (result : AgentResult Reply) : Prop :=
  ∀ e, result = .err e → LeftAlone spans

/-! ### What is asked of the turns -/

section Conditions

variable (crates : ConnectionCrates) (protocol : ProtocolTypes) (slf : AgentConnectionConfig)

/-- A message that is created has a new identifier and, if it is to be sent, can be. -/
def GeneralPermitted (state : AgentConnectionState) (senderVk : String) (world : TurnWorld)
    (mtype : RemoteMessageType) (msgDetail : GeneralMessageDetail)
    (replyToMsgId uid : Option String) (sendMsg : Bool) : Prop :=
  state.validateGeneralMessage replyToMsgId = .ok () →
    state.messages.lookup (uid.getD world.drawn) = none ∧
      (sendMsg → ∀ e, AgentConnection.sendMessage crates protocol slf state world
        (AgentConnection.generalMessage slf state world.drawn mtype msgDetail uid senderVk)
        replyToMsgId ≠ .err e)

/-- The condition on a message that is delivered. -/
def DeliveryPermitted (state : AgentConnectionState) (senderVk : String) (world : TurnWorld) :
    List A2AMessage → Prop
  | .version1 (.createMessage msg) :: .version1 (.messageDetail (.general detail)) :: _ =>
    GeneralPermitted crates protocol slf state senderVk world msg.mtype detail msg.replyToMsgId
      msg.uid msg.sendMsg
  | .version2 (.sendRemoteMessage msg) :: _ =>
    GeneralPermitted crates protocol slf state senderVk world msg.mtype
      ⟨crates.toVec msg.msg, msg.title, msg.detail⟩ msg.replyToMsgId (some msg.id) msg.sendMsg
  | _ => True

/-- The condition on a turn after a call. Checked answers are accepted, establish the connection
for the first time, and are the owner's or reply to its request; identifiers are new; and once a
message has changed the state, nothing fails. -/
def ResumePermitted (s : Recorded) (spans : List (Recorded × Recorded)) (task : Task)
    (world : TurnWorld) : Prop :=
  match task.awaiting with
  | .requestProof .. => world.succeeded → s.state.messages.lookup world.drawn = none
  | .ownProof .. => True
  | .senderProof msgDetail replyToMsgId _ _ => world.succeeded →
    s.state.remoteConnectionDetail = none ∧ msgDetail.answerStatusCode = .accepted ∧
      s.state.messages.lookup replyToMsgId = none ∧
      s.state.messages.lookup world.drawn = none ∧ world.drawn ≠ replyToMsgId
  | .remoteProof msgDetail replyToMsgId msgUid _ => world.succeeded →
    s.state.remoteConnectionDetail = none ∧ msgDetail.answerStatusCode = .accepted ∧
      .requested replyToMsgId ∈ s.journal ∧
      s.state.messages.lookup (msgUid.getD world.drawn) = none
  | .senderDid .. => world.succeeded
  | .senderAgencyDid role _ uid delivery => world.succeeded ∧
    (role = .owner → delivery.sendMsg → world.prepareFailure uid = none)
  | .answerPayload uid delivery => world.succeeded ∧
    (delivery.sendMsg → world.prepareFailure uid = none)
  | .sent .. | .encrypted .. => world.succeeded ∨ LeftAlone spans
  | .persisted .. => LeftAlone spans ∨ world.succeeded ∧
    ∀ e, AgentConnection.getRecipientKey slf s.state task.senderVk ≠ .err e

def Permitted (s : Recorded) (spans : List (Recorded × Recorded)) :
    Input ⊕ Task × TurnWorld → Prop
  | .inl (.a2a senderVk msgs world) =>
    AgentConnection.checkMessageSender slf s.state msgs.head? senderVk = .ok () →
      DeliveryPermitted crates protocol slf s.state senderVk world msgs
  | .inl (.a2conn _) => True
  | .inr (task, world) => ResumePermitted slf s spans task world

end Conditions

/-! ### What a turn keeps -/

theorem AgentConnectionState.exists_changeMessage {s : AgentConnectionState} {uid : String}
    {message : InternalMessage} (hmessage : s.messages.lookup uid = some message)
    (change : InternalMessage → InternalMessage) :
    ∃ s', s.changeMessage uid change = some s' ∧
      s'.messages.lookup uid = some (change message) ∧
      (∀ uid', uid' ≠ uid → s'.messages.lookup uid' = s.messages.lookup uid') ∧
      s'.agentKeyDlgProof = s.agentKeyDlgProof ∧
      s'.remoteConnectionDetail = s.remoteConnectionDetail :=
  ⟨_, Option.map_eq_some_iff.mpr ⟨message, hmessage, rfl⟩, AList.lookup_insert _,
    fun _ hne => AList.lookup_insert_ne hne, rfl, rfl⟩

/-- Proof, detail and messages stay, and a message changes its status only while it is not
answered. -/
structure AgentConnectionState.Kept (s s' : AgentConnectionState) : Prop where
  proof : s.agentKeyDlgProof.isSome → s'.agentKeyDlgProof.isSome
  detail : s.remoteConnectionDetail.isSome → s'.remoteConnectionDetail.isSome
  messages : ∀ uid message, s.messages.lookup uid = some message →
    ∃ message', s'.messages.lookup uid = some message' ∧ message'.uid = message.uid ∧
      message'.type = message.type ∧ (message'.statusCode = message.statusCode ∨
        message.statusCode ∉ MessageStatusCode.validStatusCodes ∧
          (message'.statusCode = .accepted ∨ message.statusCode = .received))

namespace AgentConnectionState.Kept

variable {s s' s'' : AgentConnectionState}

theorem of_messages_eq (hproof : s.agentKeyDlgProof.isSome → s'.agentKeyDlgProof.isSome)
    (hdetail : s.remoteConnectionDetail.isSome → s'.remoteConnectionDetail.isSome)
    (hmessages : s'.messages = s.messages) : s.Kept s' :=
  ⟨hproof, hdetail, fun uid message h => ⟨message, by rw [hmessages, h], rfl, rfl, .inl rfl⟩⟩

theorem refl (s : AgentConnectionState) : s.Kept s := of_messages_eq id id rfl

theorem trans (h : s.Kept s') (h' : s'.Kept s'') : s.Kept s'' := by
  refine ⟨h'.proof ∘ h.proof, h'.detail ∘ h.detail, fun uid message hmessage => ?_⟩
  obtain ⟨message', hmessage', huid, htype, hstatus⟩ := h.messages uid message hmessage
  obtain ⟨message'', hmessage'', huid', htype', hstatus'⟩ := h'.messages uid message' hmessage'
  refine ⟨message'', hmessage'', huid'.trans huid, htype'.trans htype, ?_⟩
  rcases hstatus with hsame | ⟨hopen, hmove⟩
  · rw [hsame] at hstatus'
    exact hstatus'
  · rcases hmove with haccepted | hreceived
    · rcases hstatus' with hsame' | ⟨hopen', -⟩
      · exact .inr ⟨hopen, .inl (hsame'.trans haccepted)⟩
      · exact absurd (by rw [haccepted]; decide) hopen'
    · exact .inr ⟨hopen, .inr hreceived⟩

theorem store {msg : InternalMessage} (h : s.messages.lookup msg.uid = none) :
    s.Kept (s.createAndStoreInternalMessage msg) := by
  refine ⟨id, id, fun uid message hmessage => ⟨message, ?_, rfl, rfl, .inl rfl⟩⟩
  have hne : uid ≠ msg.uid := by
    rintro rfl
    rw [h] at hmessage
    cases hmessage
  exact (AList.lookup_insert_ne hne).trans hmessage

theorem change {uid : String} {change : InternalMessage → InternalMessage}
    (hstate : s.changeMessage uid change = some s')
    (hchange : ∀ message, s.messages.lookup uid = some message →
      (change message).uid = message.uid ∧ (change message).type = message.type ∧
        ((change message).statusCode = message.statusCode ∨
          message.statusCode ∉ MessageStatusCode.validStatusCodes ∧
            ((change message).statusCode = .accepted ∨ message.statusCode = .received))) :
    s.Kept s' := by
  obtain ⟨message, hmessage, rfl⟩ := Option.map_eq_some_iff.mp hstate
  refine ⟨id, id, fun uid' message' hmessage' => ?_⟩
  by_cases he : uid' = uid
  · subst he
    rw [hmessage] at hmessage'
    cases hmessage'
    obtain ⟨huid, htype, hstatus⟩ := hchange message hmessage
    exact ⟨change message, AList.lookup_insert _, huid, htype, hstatus⟩
  · exact ⟨message', (AList.lookup_insert_ne he).trans hmessage', rfl, rfl, .inl rfl⟩

end AgentConnectionState.Kept

/-- A connection that is not established has not been, and its own requests are stored and open
or accepted. -/
structure Recorded.Inv (s : Recorded) : Prop where
  unestablished : s.state.remoteConnectionDetail = none →
    s.journal.countP Entry.isEstablished = 0
  once : s.journal.countP Entry.isEstablished ≤ 1
  established : ∀ role statusCode replyToMsgId,
    .established role statusCode replyToMsgId ∈ s.journal →
      statusCode = .accepted ∧ (role = .owner ∨ .requested replyToMsgId ∈ s.journal)
  requested : ∀ uid, .requested uid ∈ s.journal → s.state.agentKeyDlgProof.isSome ∧
    ∃ message, s.state.messages.lookup uid = some message ∧
      (message.statusCode = .created ∨ message.statusCode = .accepted)

/-- What a turn may do to a connection. -/
structure Fits (s : Recorded) (turn : Turn) : Prop where
  kept : s.state.Kept turn.state
  fresh : ∀ uid, .stored uid true ∈ turn.entries → s.state.messages.lookup uid = none
  established : ∀ role statusCode replyToMsgId,
    .established role statusCode replyToMsgId ∈ turn.entries →
      statusCode = .accepted ∧ (role = .owner ∨ .requested replyToMsgId ∈ s.journal)
  once : turn.entries.countP Entry.isEstablished = 0 ∧
      turn.state.remoteConnectionDetail = s.state.remoteConnectionDetail ∨
    turn.entries.countP Entry.isEstablished = 1 ∧ s.state.remoteConnectionDetail = none ∧
      turn.state.remoteConnectionDetail.isSome
  requested : ∀ uid, .requested uid ∈ turn.entries → turn.state.agentKeyDlgProof.isSome ∧
    ∃ message, turn.state.messages.lookup uid = some message ∧ message.statusCode = .created

/-- What the turns of others have to leave to a waiting message. -/
structure AgentConnectionState.HasAnswer (state : AgentConnectionState) (uid : String) : Prop where
  proof : state.agentKeyDlgProof.isSome
  detail : state.remoteConnectionDetail.isSome
  message : ∃ message, state.messages.lookup uid = some message ∧ message.uid = uid ∧
    message.type = .connReqAnswer ∧ message.statusCode = .accepted

def Own (s : Recorded) (spans : List (Recorded × Recorded)) (task : Task) : Prop :=
  match task.awaiting with
  | .requestProof .. => LeftAlone spans
  | .ownProof _ replyToMsgId _ delivery | .senderProof _ replyToMsgId _ delivery
  | .remoteProof _ replyToMsgId _ delivery =>
    LeftAlone spans ∧ delivery.replyToMsgId = some replyToMsgId
  | .senderDid _ _ uid delivery | .senderAgencyDid _ _ uid delivery
  | .answerPayload uid delivery => s.state.HasAnswer uid ∧ delivery.replyToMsgId.isSome
  | .sent .. | .persisted .. | .encrypted .. => True

/-- The progress of a turn leaves its message what it relies on, or fails without a trace. -/
structure Settles (s : Recorded) (spans : List (Recorded × Recorded)) (senderVk : String)
    (turn : Turn) : Prop where
  own : ∀ awaiting, turn.progress = .awaiting awaiting →
    Own (s.after turn) (spans ++ [(s, s.after turn)]) ⟨senderVk, awaiting⟩
  failed : ∀ e, turn.progress = .done (.err e) → LeftAlone (spans ++ [(s, s.after turn)])

namespace Fits

variable {s : Recorded} {turn : Turn}

theorem of_same (hstate : turn.state = s.state) (hentries : turn.entries = []) : Fits s turn where
  kept := hstate ▸ AgentConnectionState.Kept.refl s.state
  fresh uid h := absurd (hentries ▸ h) List.not_mem_nil
  established _ _ _ h := absurd (hentries ▸ h) List.not_mem_nil
  once := Or.inl ⟨by rw [hentries]; rfl, by rw [hstate]⟩
  requested uid h := absurd (hentries ▸ h) List.not_mem_nil

theorem of_kept (hkept : s.state.Kept turn.state)
    (hdetail : turn.state.remoteConnectionDetail = s.state.remoteConnectionDetail)
    (hentries : ∀ entry ∈ turn.entries, ∃ uid supplied, entry = .stored uid supplied ∧
      s.state.messages.lookup uid = none) : Fits s turn where
  kept := hkept
  fresh uid h := by
    obtain ⟨uid', supplied, he, hfresh⟩ := hentries _ h
    cases he
    exact hfresh
  established _ _ _ h := by
    obtain ⟨_, _, he, -⟩ := hentries _ h
    cases he
  once := by
    refine .inl ⟨List.countP_eq_zero.mpr fun entry h => ?_, hdetail⟩
    obtain ⟨uid, supplied, rfl, -⟩ := hentries entry h
    exact Bool.false_ne_true
  requested uid h := by
    obtain ⟨_, _, he, -⟩ := hentries _ h
    cases he

theorem count (h : Fits s turn) (hs : s.Inv) :
    (s.after turn).journal.countP Entry.isEstablished ≤ 1 := by
  change (s.journal ++ turn.entries).countP Entry.isEstablished ≤ 1
  rw [List.countP_append]
  rcases h.once with ⟨hnone, -⟩ | ⟨hone, hdetail, -⟩
  · rw [hnone]
    exact hs.once
  · rw [hone, hs.unestablished hdetail]

theorem establishedAfter (h : Fits s turn) (hs : s.Inv) {role : MessageHandlerRole}
    {statusCode : MessageStatusCode} {replyToMsgId : String}
    (hentry : .established role statusCode replyToMsgId ∈ (s.after turn).journal) :
    statusCode = .accepted ∧
      (role = .owner ∨ .requested replyToMsgId ∈ (s.after turn).journal) := by
  have hasked : statusCode = .accepted ∧ (role = .owner ∨ .requested replyToMsgId ∈ s.journal) := by
    rcases List.mem_append.mp hentry with hold | hnew
    · exact hs.established _ _ _ hold
    · exact h.established _ _ _ hnew
  exact ⟨hasked.1, hasked.2.imp_right fun hrequested => List.mem_append_left _ hrequested⟩

theorem inv (h : Fits s turn) (hs : s.Inv) : (s.after turn).Inv where
  unestablished hnone := by
    change (s.journal ++ turn.entries).countP Entry.isEstablished = 0
    rw [List.countP_append]
    rcases h.once with ⟨hzero, hsame⟩ | ⟨-, -, hsome⟩
    · rw [hzero, hs.unestablished (hsame ▸ hnone)]
    · have hnone' : turn.state.remoteConnectionDetail = none := hnone
      rw [hnone'] at hsome
      cases hsome
  once := h.count hs
  established _ _ _ hentry := h.establishedAfter hs hentry
  requested uid huid := by
    rcases List.mem_append.mp huid with hold | hnew
    · obtain ⟨hproof, message, hmessage, hstatus⟩ := hs.requested uid hold
      obtain ⟨message', hmessage', -, -, hmove⟩ := h.kept.messages uid message hmessage
      refine ⟨h.kept.proof hproof, message', hmessage', ?_⟩
      rcases hmove with hsame | ⟨hopen, haccepted | hreceived⟩
      · rw [hsame]
        exact hstatus
      · exact .inr haccepted
      · rw [hreceived] at hstatus
        exact absurd hstatus (by decide)
    · obtain ⟨hproof, message, hmessage, hstatus⟩ := h.requested uid hnew
      exact ⟨hproof, message, hmessage, .inl hstatus⟩

theorem safe (h : Fits s turn) (hs : s.Inv) : SafeStep s (s.after turn) where
  once := h.count hs
  established _ _ _ hentry := h.establishedAfter hs hentry
  detail hne := by
    change s.journal.countP Entry.isEstablished <
      (s.journal ++ turn.entries).countP Entry.isEstablished
    rw [List.countP_append]
    rcases h.once with ⟨-, hsame⟩ | ⟨hone, -, -⟩
    · exact absurd hsame hne
    · rw [hone]
      exact Nat.lt_succ_self _
  answered uid message hmessage hanswered := by
    obtain ⟨message', hmessage', -, -, hstatus⟩ := h.kept.messages uid message hmessage
    refine ⟨message', hmessage', ?_⟩
    rcases hstatus with hsame | ⟨hopen, -⟩
    · exact hsame
    · exact absurd hanswered hopen
  notReplaced entries hentries uid huid := by
    have he : turn.entries = entries := List.append_cancel_left hentries
    exact h.fresh uid (he ▸ huid)

end Fits

theorem LeftAlone.append {spans : List (Recorded × Recorded)} {s s' : Recorded}
    (h : LeftAlone spans) (hsame : s'.state = s.state) : LeftAlone (spans ++ [(s, s')]) := by
  intro span hspan
  rcases List.mem_append.mp hspan with hspan | hspan
  · exact h span hspan
  · rw [List.mem_singleton.mp hspan]
    exact hsame

theorem AgentConnectionState.HasAnswer.kept {s s' : AgentConnectionState} {uid : String}
    (h : s.HasAnswer uid) (hkept : s.Kept s') : s'.HasAnswer uid := by
  obtain ⟨message, hmessage, huid, htype, hstatus⟩ := h.message
  obtain ⟨message', hmessage', huid', htype', hmove⟩ := hkept.messages uid message hmessage
  refine ⟨hkept.proof h.proof, hkept.detail h.detail, message', hmessage', huid'.trans huid,
    htype'.trans htype, ?_⟩
  rcases hmove with hsame | ⟨hopen, -⟩
  · exact hsame.trans hstatus
  · exact absurd (by rw [hstatus]; decide) hopen

theorem Own.kept {s s' : Recorded} {spans : List (Recorded × Recorded)} {task : Task}
    (hkept : s.state.Kept s'.state) (h : Own s spans task) : Own s' spans task := by
  obtain ⟨senderVk, awaiting⟩ := task
  cases awaiting with
  | requestProof | ownProof | senderProof | remoteProof | sent | persisted | encrypted => exact h
  | senderDid | senderAgencyDid | answerPayload => exact ⟨h.1.kept hkept, h.2⟩

end IndySdk.Agency
