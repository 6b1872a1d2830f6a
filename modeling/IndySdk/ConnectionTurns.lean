import IndySdk.ConnectionSafety

/-!
# The turns of a connection keep its promises

Each handler and each continuation of a connection, on its own: what it stores fits the
connection, and its message is settled, for the turns that are permitted. Then all runs.
-/

namespace IndySdk.Agency

open Outcome List AList AgentConnectionState

/-! ### Turns that send -/

/-- What no turn of others can disturb, and no failure. -/
def Progress.Late : Progress → Prop
  | .awaiting (.sent ..) | .awaiting (.persisted ..) | .awaiting (.encrypted ..) => True
  | .done (.ok _) | .done .panic => True
  | _ => False

/-- A turn fits the connection, and its message is settled. -/
def Disciplined (s : Recorded) (spans : List (Recorded × Recorded)) (senderVk : String)
    (turn : Turn) : Prop :=
  Fits s turn ∧ Settles s spans senderVk turn

section Turns

variable {s : Recorded} {spans : List (Recorded × Recorded)} {senderVk : String} {turn : Turn}

theorem Settles.of_late (h : turn.progress.Late) : Settles s spans senderVk turn := by
  constructor
  · intro awaiting hprogress
    rw [hprogress] at h
    cases awaiting with
    | sent | persisted | encrypted => trivial
    | requestProof | ownProof | senderProof | remoteProof | senderDid | senderAgencyDid
    | answerPayload => exact h.elim
  · intro e hprogress
    rw [hprogress] at h
    exact h.elim

theorem Disciplined.of_same (hstate : turn.state = s.state) (hentries : turn.entries = [])
    (hown : ∀ awaiting, turn.progress = .awaiting awaiting →
      Own s (spans ++ [(s, s.after turn)]) ⟨senderVk, awaiting⟩)
    (hfailed : ∀ e, turn.progress = .done (.err e) → LeftAlone spans) :
    Disciplined s spans senderVk turn := by
  have hkept : s.state.Kept (s.after turn).state :=
    AgentConnectionState.Kept.of_messages_eq (fun h => by rw [← hstate] at h; exact h)
      (fun h => by rw [← hstate] at h; exact h) (congrArg (·.messages) hstate)
  refine ⟨Fits.of_same hstate hentries, fun awaiting hprogress => ?_, fun e hprogress => ?_⟩
  · exact (hown awaiting hprogress).kept hkept
  · exact (hfailed e hprogress).append hstate

theorem Disciplined.ofResult {α : Type} {result : AgentResult α} {next : α → Turn}
    (hspans : LeftAlone spans)
    (hnext : ∀ a, result = .ok a → Disciplined s spans senderVk (next a)) :
    Disciplined s spans senderVk (.ofResult s.state result next) := by
  cases result with
  | ok a => exact hnext a rfl
  | err e => exact Disciplined.of_same rfl rfl (fun _ h => by cases h) (fun _ _ => hspans)
  | panic => exact Disciplined.of_same rfl rfl (fun _ h => by cases h) (fun _ _ => hspans)

theorem leftAlone_nil : LeftAlone [] := fun _ h => absurd h not_mem_nil

end Turns

namespace AgentConnection

variable {crates : ConnectionCrates} {protocol : ProtocolTypes} {slf : AgentConnectionConfig}
  {state : AgentConnectionState} {world : TurnWorld} {uid : String}

theorem sendAll_late {toSend : List (String × Option String)} {msgs : List A2AMessage}
    {reported : Bool} (h : ∀ e, sendMessages crates protocol slf state world toSend ≠ .err e) :
    (sendAll crates protocol slf state world toSend msgs reported).Late := by
  unfold sendAll
  cases hsends : sendMessages crates protocol slf state world toSend with
  | ok endpoints => cases endpoints <;> trivial
  | err e => exact absurd hsends (h e)
  | panic => trivial

theorem sendMessages_singleton_ne_err {replyTo : Option String}
    (h : ∀ message, state.messages.lookup uid = some message →
      ∀ e, sendMessage crates protocol slf state world message replyTo ≠ .err e) (e : String) :
    sendMessages crates protocol slf state world [(uid, replyTo)] ≠ .err e := by
  unfold sendMessages
  cases hlookup : state.messages.lookup uid with
  | none => exact fun h => by simp [hlookup] at h
  | some message =>
    have hmessage := h message hlookup
    cases hsend : sendMessage crates protocol slf state world message replyTo with
    | ok endpoint => exact fun h => by simp [hlookup, hsend] at h
    | err e' => exact absurd hsend (hmessage e')
    | panic => exact fun h => by simp [hlookup, hsend] at h

theorem sendMessageIfNeeded_late {delivery : Delivery} {msgs : List A2AMessage}
    (h : delivery.sendMsg → ∀ message, state.messages.lookup uid = some message →
      ∀ e, sendMessage crates protocol slf state world message delivery.replyToMsgId ≠ .err e) :
    (sendMessageIfNeeded crates protocol slf state world delivery uid msgs).Late := by
  unfold sendMessageIfNeeded
  split
  · exact sendAll_late (sendMessages_singleton_ne_err (h ‹_›))
  · trivial

theorem sendMessage_congr {state' : AgentConnectionState} (message : InternalMessage)
    (replyTo : Option String) (hproof : state'.agentKeyDlgProof = state.agentKeyDlgProof)
    (hdetail : state'.remoteConnectionDetail = state.remoteConnectionDetail) :
    sendMessage crates protocol slf state' world message replyTo =
      sendMessage crates protocol slf state world message replyTo := by
  unfold sendMessage sendInviteAnswerMessage sendGeneralMessage prepareRemoteMessage
  rw [hproof, hdetail]

theorem sendMessage_answer {replyTo : Option String} (h : state.HasAnswer uid)
    (hreply : replyTo.isSome) (hprepare : world.prepareFailure uid = none) :
    ∀ message, state.messages.lookup uid = some message →
      ∀ e, sendMessage crates protocol slf state world message replyTo ≠ .err e := by
  intro message hmessage e
  obtain ⟨message', hmessage', huid, htype, hstatus⟩ := h.message
  rw [hmessage] at hmessage'
  cases hmessage'
  obtain ⟨msgId, rfl⟩ := Option.isSome_iff_exists.mp hreply
  obtain ⟨proof, hproof⟩ := Option.isSome_iff_exists.mp h.proof
  obtain ⟨detail, hdetail⟩ := Option.isSome_iff_exists.mp h.detail
  unfold sendMessage sendInviteAnswerMessage prepareRemoteMessage
  simp [htype, hstatus, hproof, hdetail, huid, hprepare]

/-! ### The first turn of a message -/

section First

variable {s : Recorded} {senderVk : String} {delivery : Delivery}
  {spans : List (Recorded × Recorded)} {replyToMsgId : Option String} {uid : String}
  {msgDetail : ConnectionRequestAnswerMessageDetail}

theorem verify_disciplined {proof : KeyDlgProof} {next : Awaiting}
    (hown : Own s (spans ++ [(s, s)]) ⟨senderVk, next⟩) :
    Disciplined s spans senderVk (verifyAgentKeyDlgProof crates s.state proof next) := by
  have hsame : ∀ turn : Turn, turn.state = s.state → turn.entries = [] → s.after turn = s := by
    intro turn hstate hentries
    unfold Recorded.after
    rw [hstate, hentries, append_nil]
  unfold verifyAgentKeyDlgProof
  split
  · refine Disciplined.of_same rfl rfl (fun awaiting he => ?_) (fun e he => by cases he)
    cases he
    rw [hsame _ rfl rfl]
    exact hown
  · exact Disciplined.of_same rfl rfl (fun _ he => by cases he) (fun e he => by cases he)

theorem leftAlone_same : LeftAlone ([] ++ [(s, s)]) := leftAlone_nil.append rfl

theorem handleCreateConnectionRequest_disciplined (msgDetail : ConnectionRequestMessageDetail) :
    Disciplined s [] senderVk
      (handleCreateConnectionRequest crates slf s.state msgDetail senderVk delivery) :=
  Disciplined.ofResult leftAlone_nil fun _ _ => verify_disciplined leftAlone_same

theorem handleCreateConnectionRequestAnswer_disciplined
    (msgDetail : ConnectionRequestAnswerMessageDetail) (msgUid : Option String)
    (hdelivery : delivery.replyToMsgId = replyToMsgId) :
    Disciplined s [] senderVk (handleCreateConnectionRequestAnswer crates slf s.state msgDetail
      replyToMsgId msgUid senderVk delivery) := by
  refine Disciplined.ofResult leftAlone_nil fun a ha => ?_
  obtain ⟨replyTo, hreply, hchecked⟩ := bind_eq_ok_iff.mp ha
  rw [ofOption_eq_ok] at hreply
  obtain ⟨-, -, hrole⟩ := bind_eq_ok_iff.mp hchecked
  cases hrole' : getMessageHandlerRole slf senderVk with
  | owner =>
    rw [hrole'] at hrole
    obtain ⟨proof, -, he⟩ := bind_eq_ok_iff.mp hrole
    cases he
    exact verify_disciplined ⟨leftAlone_same, hdelivery.trans hreply⟩
  | remote =>
    rw [hrole'] at hrole
    cases hrole
    exact verify_disciplined ⟨leftAlone_same, hdelivery.trans hreply⟩

theorem answerIfReply_eq {replyToMsgId : Option String} {uid : String}
    {state' : AgentConnectionState} (h : answerIfReply state replyToMsgId uid = .ok state') :
    replyToMsgId = none ∧ state' = state ∨ ∃ msgId, replyToMsgId = some msgId ∧
      state.changeMessage msgId (fun message =>
        { message with statusCode := .accepted, refMsgId := some uid }) = some state' := by
  unfold answerIfReply at h
  cases replyToMsgId with
  | none =>
    cases h
    exact .inl ⟨rfl, rfl⟩
  | some msgId =>
    refine .inr ⟨msgId, rfl, ?_⟩
    dsimp only at h
    split at h
    next hanswer =>
      cases h
      exact ofOption_eq_ok.mp hanswer
    next => cases h

theorem answerIfReply_ne_err (replyToMsgId : Option String) (uid e : String) :
    answerIfReply state replyToMsgId uid ≠ .err e := by
  unfold answerIfReply
  cases replyToMsgId with
  | none => exact fun h => by cases h
  | some msgId =>
    dsimp only
    split
    · exact fun h => by cases h
    · exact fun h => by cases h

theorem checkNotAnswered_eq_ok {statusCode : MessageStatusCode}
    (h : checkIfMessageNotAlreadyAnswered statusCode = .ok ()) :
    statusCode ∉ MessageStatusCode.validStatusCodes := by
  intro hanswered
  rw [checkIfMessageNotAlreadyAnswered, if_pos hanswered] at h
  cases h

theorem validateGeneralMessage_some {msgId : String}
    (h : state.validateGeneralMessage (some msgId) = .ok ()) :
    ∃ message, state.messages.lookup msgId = some message ∧
      message.statusCode ∉ MessageStatusCode.validStatusCodes := by
  obtain ⟨message, hmessage, hopen⟩ := bind_eq_ok_iff.mp h
  exact ⟨message, ofOption_eq_ok.mp hmessage, checkNotAnswered_eq_ok hopen⟩

variable (slf state world senderVk) in
theorem generalMessage_uid (mtype : RemoteMessageType) (msgDetail : GeneralMessageDetail)
    (uid : Option String) :
    (generalMessage slf state world.drawn mtype msgDetail uid senderVk).uid =
      uid.getD world.drawn := by
  unfold generalMessage
  dsimp only
  split
  · rfl
  · rfl

theorem answerIfReply_kept {msg : InternalMessage} {state' : AgentConnectionState}
    (hvalid : state.validateGeneralMessage replyToMsgId = .ok ())
    (hfresh : state.messages.lookup msg.uid = none)
    (h : answerIfReply (state.createAndStoreInternalMessage msg) replyToMsgId msg.uid =
      .ok state') :
    state.Kept state' ∧ state'.agentKeyDlgProof = state.agentKeyDlgProof ∧
      state'.remoteConnectionDetail = state.remoteConnectionDetail ∧
      state'.messages.lookup msg.uid = some msg := by
  have hstored := AgentConnectionState.Kept.store hfresh
  have hlookup : (state.createAndStoreInternalMessage msg).messages.lookup msg.uid = some msg :=
    lookup_insert _
  rcases answerIfReply_eq h with ⟨-, rfl⟩ | ⟨msgId, rfl, hchange⟩
  · exact ⟨hstored, rfl, rfl, hlookup⟩
  · obtain ⟨message, hmessage, hopen⟩ := validateGeneralMessage_some hvalid
    have hne : msgId ≠ msg.uid := by
      rintro rfl
      rw [hmessage] at hfresh
      cases hfresh
    have hmessage' : (state.createAndStoreInternalMessage msg).messages.lookup msgId =
        some message := (lookup_insert_ne hne).trans hmessage
    have hkept := AgentConnectionState.Kept.change hchange (fun message' hmessage'' => by
      rw [hmessage'] at hmessage''
      cases hmessage''
      exact ⟨rfl, rfl, .inr ⟨hopen, .inl rfl⟩⟩)
    obtain ⟨_, _, rfl⟩ := Option.map_eq_some_iff.mp hchange
    exact ⟨hstored.trans hkept, rfl, rfl, (lookup_insert_ne hne.symm).trans hlookup⟩

theorem handleCreateGeneralMessage_disciplined {mtype : RemoteMessageType}
    {msgDetail : GeneralMessageDetail} {uid : Option String}
    (hdelivery : delivery.replyToMsgId = replyToMsgId)
    (h : GeneralPermitted crates protocol slf s.state senderVk world mtype msgDetail replyToMsgId
      uid delivery.sendMsg) :
    Disciplined s [] senderVk (handleCreateGeneralMessage crates protocol slf s.state mtype
      msgDetail replyToMsgId uid senderVk delivery world) := by
  refine Disciplined.ofResult leftAlone_nil fun _ hvalid => ?_
  obtain ⟨hfresh, hsend⟩ := h hvalid
  have huid := generalMessage_uid slf s.state world senderVk mtype msgDetail uid
  dsimp only
  generalize generalMessage slf s.state world.drawn mtype msgDetail uid senderVk = msg
    at huid hsend ⊢
  rw [← huid] at hfresh
  have hentries : ∀ entry ∈ [Entry.stored msg.uid uid.isSome], ∃ uid supplied,
      entry = .stored uid supplied ∧ s.state.messages.lookup uid = none := by
    intro entry hentry
    exact ⟨_, _, mem_singleton.mp hentry, hfresh⟩
  cases hanswer : answerIfReply (s.state.createAndStoreInternalMessage msg) replyToMsgId
      msg.uid with
  | err e => exact absurd hanswer (answerIfReply_ne_err _ _ e)
  | panic =>
    exact ⟨Fits.of_kept (AgentConnectionState.Kept.store hfresh) rfl hentries,
      Settles.of_late trivial⟩
  | ok state' =>
    obtain ⟨hkept, hproof, hdetail, hlookup⟩ := answerIfReply_kept hvalid hfresh hanswer
    refine ⟨Fits.of_kept hkept hdetail hentries, Settles.of_late ?_⟩
    refine sendMessageIfNeeded_late (fun hsendMsg message hmessage e => ?_)
    rw [hlookup] at hmessage
    cases hmessage
    rw [sendMessage_congr msg _ hproof hdetail, hdelivery]
    exact hsend hsendMsg e

/-! ### Reading and updating -/

theorem handleSendMessages_disciplined (msg : SendMessages) :
    Disciplined s [] senderVk (handleSendMessages crates protocol slf s.state msg world) := by
  refine Disciplined.of_same rfl rfl (fun awaiting he => ?_) (fun _ _ => leftAlone_nil)
  have hprogress : sendAll crates protocol slf s.state world (msg.uids.map fun uid => (uid, none))
      [] true = .awaiting awaiting := he
  unfold sendAll at hprogress
  dsimp only at hprogress
  split at hprogress
  · cases hprogress
    trivial
  · cases hprogress
    trivial
  · cases hprogress
  · cases hprogress

theorem handleGetMessages_disciplined (msg : GetMessages) :
    Disciplined s [] senderVk (handleGetMessages crates protocol s.state msg) := by
  refine Disciplined.ofResult leftAlone_nil fun _ _ => ?_
  exact Disciplined.of_same rfl rfl (fun _ he => by cases he; trivial) (fun _ _ => leftAlone_nil)

theorem handleUpdateConnectionStatus_disciplined (msg : UpdateConnectionStatus) :
    Disciplined s [] senderVk (handleUpdateConnectionStatus protocol s.state msg) := by
  unfold handleUpdateConnectionStatus
  split
  · exact Disciplined.of_same rfl rfl (fun _ he => by cases he) (fun _ _ => leftAlone_nil)
  · refine ⟨Fits.of_kept ?_ rfl (fun _ h => absurd h not_mem_nil), Settles.of_late trivial⟩
    exact AgentConnectionState.Kept.of_messages_eq id id rfl

theorem updateEach_spec (statusCode : MessageStatusCode) {uids : List String}
    {state : AgentConnectionState} (h : ∀ uid ∈ uids, ∃ message,
      state.messages.lookup uid = some message ∧
        (message.statusCode = .received ∨ message.statusCode = statusCode)) :
    (updateEach statusCode uids state).1 = .ok () ∧
      state.Kept (updateEach statusCode uids state).2 ∧
      (updateEach statusCode uids state).2.remoteConnectionDetail =
        state.remoteConnectionDetail := by
  induction uids generalizing state with
  | nil => exact ⟨rfl, AgentConnectionState.Kept.refl state, rfl⟩
  | cons uid uids ih =>
    obtain ⟨message, hmessage, hstatus⟩ := h uid mem_cons_self
    obtain ⟨state', hchange, hself, hothers, -, hsame⟩ :=
      exists_changeMessage hmessage
        (fun message => { message with statusCode := statusCode })
    have hkept := AgentConnectionState.Kept.change hchange (fun message' hmessage' => by
      rw [hmessage] at hmessage'
      cases hmessage'
      refine ⟨rfl, rfl, ?_⟩
      rcases hstatus with hreceived | hsame
      · exact .inr ⟨by rw [hreceived]; decide, .inr hreceived⟩
      · exact .inl hsame.symm)
    have hupdate : state.updateMessageStatus uid statusCode = .ok state' :=
      ofOption_eq_ok.mpr hchange
    rw [updateEach, hupdate]
    obtain ⟨hok, hrest, hdetail⟩ := @ih state' (fun uid' huid' => by
      by_cases he : uid' = uid
      · exact ⟨_, he ▸ hself, .inr rfl⟩
      · obtain ⟨message', hmessage', hstatus'⟩ := h uid' (mem_cons_of_mem _ huid')
        exact ⟨message', (hothers uid' he).trans hmessage', hstatus'⟩)
    exact ⟨hok, hkept.trans hrest, hdetail.trans hsame⟩

theorem checkCanBeUpdated_received {statusCode : MessageStatusCode}
    (h : state.checkIfMessageStatusCanBeUpdated uid statusCode = .ok ()) :
    ∃ message, state.messages.lookup uid = some message ∧ message.statusCode = .received := by
  obtain ⟨message, hmessage, hrest⟩ := bind_eq_ok_iff.mp h
  obtain ⟨-, -, hlast⟩ := bind_eq_ok_iff.mp hrest
  refine ⟨message, ofOption_eq_ok.mp hmessage, ?_⟩
  split at hlast
  · cases hlast
  · split at hlast
    · cases hlast
    · next hexisting => exact mem_singleton.mp (not_not.mp hexisting)

theorem updateMessagesStatus_cases (state : AgentConnectionState) (msg : UpdateMessageStatus) :
    state.updateMessagesStatus msg = (.err "Messages can't be updated.", state) ∨
      (state.updateMessagesStatus msg).1 = .ok (msg.uids, msg.statusCode) ∧
        state.Kept (state.updateMessagesStatus msg).2 ∧
        (state.updateMessagesStatus msg).2.remoteConnectionDetail =
          state.remoteConnectionDetail := by
  unfold updateMessagesStatus
  split
  next hall =>
    rw [all_eq_true] at hall
    obtain ⟨hok, hkept, hdetail⟩ := updateEach_spec msg.statusCode (fun uid huid => by
        have hcheck := hall uid huid
        cases hresult : state.checkIfMessageStatusCanBeUpdated uid msg.statusCode with
        | ok _ =>
          obtain ⟨message, hmessage, hreceived⟩ := checkCanBeUpdated_received hresult
          exact ⟨message, hmessage, .inl hreceived⟩
        | err e =>
          rw [hresult] at hcheck
          cases hcheck
        | panic =>
          rw [hresult] at hcheck
          cases hcheck)
    refine .inr ⟨?_, hkept, hdetail⟩
    dsimp only
    rw [hok]
    rfl
  next => exact .inl rfl

theorem handleUpdateMessageStatus_disciplined (msg : UpdateMessageStatus) :
    Disciplined s [] senderVk (handleUpdateMessageStatus protocol s.state msg) := by
  unfold handleUpdateMessageStatus
  rcases updateMessagesStatus_cases s.state msg with hrefused | ⟨hok, hkept, hdetail⟩
  · rw [hrefused]
    exact Disciplined.of_same rfl rfl (fun _ he => by cases he) (fun _ _ => leftAlone_nil)
  · generalize s.state.updateMessagesStatus msg = updated at hok hkept hdetail ⊢
    obtain ⟨result, state'⟩ := updated
    cases hok
    exact ⟨Fits.of_kept hkept hdetail (fun _ h => absurd h not_mem_nil),
      Settles.of_late trivial⟩

/-! ### A message is delivered -/

theorem handleCreateMessage_disciplined {msg : CreateMessage} {tail : List A2AMessage}
    (h : DeliveryPermitted crates protocol slf s.state senderVk world
      (.version1 (.createMessage msg) :: tail)) :
    Disciplined s [] senderVk
      (handleCreateMessage crates protocol slf s.state msg tail senderVk world) := by
  unfold handleCreateMessage
  dsimp only
  split
  · exact handleCreateConnectionRequest_disciplined _
  · exact handleCreateConnectionRequestAnswer_disciplined _ _ rfl
  · exact handleCreateGeneralMessage_disciplined rfl h
  · exact Disciplined.of_same rfl rfl (fun _ he => by cases he) (fun _ _ => leftAlone_nil)

theorem handleA2aMsg_disciplined {msgs : List A2AMessage}
    (h : checkMessageSender slf s.state msgs.head? senderVk = .ok () →
      DeliveryPermitted crates protocol slf s.state senderVk world msgs) :
    Disciplined s [] senderVk (handleA2aMsg crates protocol slf s.state senderVk msgs world) := by
  refine Disciplined.ofResult leftAlone_nil fun _ hsender => ?_
  have hpermitted := h hsender
  split
  · exact handleCreateMessage_disciplined hpermitted
  · exact handleCreateConnectionRequest_disciplined _
  · exact handleCreateConnectionRequestAnswer_disciplined _ _ rfl
  · exact handleCreateGeneralMessage_disciplined rfl hpermitted
  · exact handleSendMessages_disciplined _
  · exact handleSendMessages_disciplined _
  · exact handleGetMessages_disciplined _
  · exact handleGetMessages_disciplined _
  · exact handleUpdateConnectionStatus_disciplined _
  · exact handleUpdateConnectionStatus_disciplined _
  · exact handleUpdateMessageStatus_disciplined _
  · exact handleUpdateMessageStatus_disciplined _
  · exact Disciplined.of_same rfl rfl (fun _ he => by cases he) (fun _ _ => leftAlone_nil)

variable (crates protocol slf) in
theorem handleAgent2ConnMessage_cases (state : AgentConnectionState) (msg : A2ConnMessage) :
    state.Kept (handleAgent2ConnMessage crates protocol slf state msg).2 ∧
      (handleAgent2ConnMessage crates protocol slf state msg).2.remoteConnectionDetail =
        state.remoteConnectionDetail ∧
      ∀ e, (handleAgent2ConnMessage crates protocol slf state msg).1 = .err e →
        (handleAgent2ConnMessage crates protocol slf state msg).2 = state := by
  cases msg with
  | getMessages | messagesByConnection | messageStatusUpdatedByConnection =>
    exact ⟨AgentConnectionState.Kept.refl state, rfl, fun _ _ => rfl⟩
  | updateMessages msg =>
    unfold handleAgent2ConnMessage
    dsimp only
    rcases updateMessagesStatus_cases state msg with hrefused | ⟨hok, hkept, hdetail⟩
    · rw [hrefused]
      exact ⟨AgentConnectionState.Kept.refl state, rfl, fun _ _ => rfl⟩
    · rw [hok]
      exact ⟨hkept, hdetail, fun _ he => by cases he⟩

/-! ### A call has succeeded -/

theorem storeConnectionRequest_disciplined (msgDetail : ConnectionRequestMessageDetail)
    (hfresh : s.state.messages.lookup world.drawn = none) :
    Disciplined s spans senderVk
      (storeConnectionRequest crates protocol slf s.state msgDetail delivery world) := by
  have hfresh' : ({ s.state with agentKeyDlgProof := some msgDetail.keyDlgProof } :
      AgentConnectionState).messages.lookup (requestMessage slf world.drawn msgDetail).uid =
        none := hfresh
  have hproved : s.state.Kept { s.state with agentKeyDlgProof := some msgDetail.keyDlgProof } :=
    AgentConnectionState.Kept.of_messages_eq (fun _ => rfl) id rfl
  have hkept := hproved.trans (AgentConnectionState.Kept.store hfresh')
  have hlookup : (createAndStoreInternalMessage
      { s.state with agentKeyDlgProof := some msgDetail.keyDlgProof }
      (requestMessage slf world.drawn msgDetail)).messages.lookup world.drawn =
        some (requestMessage slf world.drawn msgDetail) := lookup_insert _
  refine ⟨⟨hkept, ?_, ?_, .inl ⟨rfl, rfl⟩, ?_⟩, Settles.of_late ?_⟩
  · intro uid huid
    simp [storeConnectionRequest] at huid
  · intro role statusCode replyToMsgId hentry
    simp [storeConnectionRequest] at hentry
  · intro uid huid
    have he : uid = world.drawn := by
      simp only [storeConnectionRequest, mem_cons, not_mem_nil, or_false, reduceCtorEq,
        Entry.requested.injEq] at huid
      exact huid
    rw [he]
    exact ⟨rfl, _, hlookup, rfl⟩
  · refine sendMessageIfNeeded_late (fun _ message hmessage e => ?_)
    have he : some (requestMessage slf world.drawn msgDetail) = some message :=
      hlookup.symm.trans hmessage
    cases he
    exact fun h => by cases h

/-- An answer is stored, the connection is established, and what is answered becomes accepted. -/
theorem answer_disciplined (role : MessageHandlerRole) (stored : List Entry) {replyToMsgId : String}
    {answer request : InternalMessage} {last : AgentConnectionState}
    (hdelivery : delivery.replyToMsgId = some replyToMsgId)
    (hdetail : s.state.remoteConnectionDetail = none)
    (haccepted : msgDetail.answerStatusCode = .accepted)
    (hasked : role = .owner ∨ .requested replyToMsgId ∈ s.journal)
    (hstored : ∀ entry ∈ stored, ∃ uid supplied, entry = .stored uid supplied ∧
      s.state.messages.lookup uid = none) (hset : s.state.Kept last)
    (hproof : last.agentKeyDlgProof.isSome) (hestablished : last.remoteConnectionDetail.isSome)
    (hanswer : last.messages.lookup answer.uid = some answer) (htype : answer.type = .connReqAnswer)
    (hstatus : answer.statusCode = .accepted)
    (hrequest : last.messages.lookup replyToMsgId = some request)
    (hopen : request.statusCode ∈ MessageStatusCode.validStatusCodes →
      request.statusCode = .accepted) (hne : answer.uid ≠ replyToMsgId) :
    Disciplined s spans senderVk
      (match last.answerMessage replyToMsgId answer.uid msgDetail.answerStatusCode with
      | .ok state => ⟨.awaiting (.senderDid role msgDetail answer.uid delivery), state,
          stored ++ [.established role msgDetail.answerStatusCode replyToMsgId]⟩
      | .err e => ⟨.done (.err e), last,
          stored ++ [.established role msgDetail.answerStatusCode replyToMsgId]⟩
      | .panic => ⟨.done .panic, last,
          stored ++ [.established role msgDetail.answerStatusCode replyToMsgId]⟩) := by
  obtain ⟨state', hchange, -, hothers, hproof', hdetail'⟩ :=
    exists_changeMessage hrequest (fun message =>
      { message with
        statusCode := msgDetail.answerStatusCode
        refMsgId := some answer.uid })
  have hanswered : last.answerMessage replyToMsgId answer.uid msgDetail.answerStatusCode =
      .ok state' := ofOption_eq_ok.mpr hchange
  have hkept := AgentConnectionState.Kept.change hchange (fun message hmessage => by
    rw [hrequest] at hmessage
    cases hmessage
    refine ⟨rfl, rfl, ?_⟩
    by_cases hclosed : request.statusCode ∈ MessageStatusCode.validStatusCodes
    · exact .inl (haccepted.trans (hopen hclosed).symm)
    · exact .inr ⟨hclosed, .inl haccepted⟩)
  rw [hanswered]
  refine ⟨⟨hset.trans hkept, ?_, ?_, .inr ⟨?_, hdetail, ?_⟩, ?_⟩, ⟨?_, fun e he => by cases he⟩⟩
  · intro uid huid
    rcases mem_append.mp huid with hmem | hmem
    · obtain ⟨uid', supplied, he, hfresh⟩ := hstored _ hmem
      cases he
      exact hfresh
    · simp at hmem
  · intro role' statusCode replyTo hentry
    rcases mem_append.mp hentry with hmem | hmem
    · obtain ⟨_, _, he, -⟩ := hstored _ hmem
      cases he
    · cases mem_singleton.mp hmem
      exact ⟨haccepted, hasked⟩
  · have hnone : stored.countP Entry.isEstablished = 0 := by
      refine countP_eq_zero.mpr fun entry hmem => ?_
      obtain ⟨_, _, rfl, -⟩ := hstored entry hmem
      exact Bool.false_ne_true
    rw [countP_append, hnone]
    rfl
  · rw [hdetail']
    exact hestablished
  · intro uid huid
    rcases mem_append.mp huid with hmem | hmem
    · obtain ⟨_, _, he, -⟩ := hstored _ hmem
      cases he
    · simp at hmem
  · intro awaiting he
    cases he
    refine ⟨⟨?_, ?_, answer, (hothers _ hne).trans hanswer, rfl, htype, hstatus⟩, ?_⟩
    · rw [← hproof'] at hproof
      exact hproof
    · rw [← hdetail'] at hestablished
      exact hestablished
    · rw [hdelivery]
      rfl

theorem storeOwnAnswer_disciplined {replyToMsgId : String} (keyDlgProof : KeyDlgProof)
    (hdelivery : delivery.replyToMsgId = some replyToMsgId)
    (hdetail : s.state.remoteConnectionDetail = none)
    (haccepted : msgDetail.answerStatusCode = .accepted)
    (hfresh : s.state.messages.lookup replyToMsgId = none)
    (hdrawn : s.state.messages.lookup world.drawn = none) (hne : world.drawn ≠ replyToMsgId) :
    Disciplined s spans senderVk
      (storeOwnAnswer slf s.state msgDetail replyToMsgId keyDlgProof delivery world) := by
  have hrequested : s.state.Kept
      (s.state.createAndStoreInternalMessage (receivedRequest msgDetail replyToMsgId)) :=
    AgentConnectionState.Kept.store hfresh
  have hdrawn' : (s.state.createAndStoreInternalMessage
      (receivedRequest msgDetail replyToMsgId)).messages.lookup
        (ownAnswer slf world.drawn msgDetail replyToMsgId).uid = none :=
    (lookup_insert_ne hne).trans hdrawn
  refine answer_disciplined .owner [.stored replyToMsgId true, .stored world.drawn false]
    hdelivery hdetail haccepted (.inl rfl) ?_
    ((hrequested.trans (AgentConnectionState.Kept.store hdrawn')).trans
      (AgentConnectionState.Kept.of_messages_eq (fun _ => rfl) (fun _ => rfl) rfl)) rfl rfl
    (lookup_insert _) rfl haccepted
    ((lookup_insert_ne hne.symm).trans (lookup_insert _)) ?_ hne
  · intro entry hentry
    rcases mem_cons.mp hentry with rfl | hentry
    · exact ⟨_, _, rfl, hfresh⟩
    · exact ⟨_, _, mem_singleton.mp hentry, hdrawn⟩
  · intro hclosed
    have hreceived : MessageStatusCode.received ∈ MessageStatusCode.validStatusCodes := hclosed
    exact absurd hreceived (by decide)

theorem storeRemoteAnswer_disciplined {replyToMsgId : String} {msgUid : Option String} (hs : s.Inv)
    (hdelivery : delivery.replyToMsgId = some replyToMsgId)
    (hdetail : s.state.remoteConnectionDetail = none)
    (haccepted : msgDetail.answerStatusCode = .accepted)
    (hrequested : .requested replyToMsgId ∈ s.journal)
    (hfresh : s.state.messages.lookup (msgUid.getD world.drawn) = none) :
    Disciplined s spans senderVk
      (storeRemoteAnswer s.state msgDetail replyToMsgId msgUid delivery world) := by
  obtain ⟨hproof, request, hrequest, hstatus⟩ := hs.requested replyToMsgId hrequested
  have hne : msgUid.getD world.drawn ≠ replyToMsgId := by
    intro he
    rw [he, hrequest] at hfresh
    cases hfresh
  have hstored : s.state.Kept (s.state.createAndStoreInternalMessage
      (remoteAnswer world.drawn msgDetail msgUid)) := AgentConnectionState.Kept.store hfresh
  refine answer_disciplined .remote [.stored (msgUid.getD world.drawn) msgUid.isSome]
    hdelivery hdetail haccepted (.inr hrequested) ?_
    (hstored.trans (AgentConnectionState.Kept.of_messages_eq id (fun _ => rfl) rfl)) hproof rfl
    (lookup_insert _) rfl haccepted ((lookup_insert_ne hne.symm).trans hrequest) ?_ hne
  · intro entry hentry
    exact ⟨_, _, mem_singleton.mp hentry, hfresh⟩
  · intro hclosed
    rcases hstatus with hcreated | haccepted'
    · rw [hcreated] at hclosed
      exact absurd hclosed (by decide)
    · exact haccepted'

theorem storePayload_disciplined (hanswer : s.state.HasAnswer uid)
    (hreply : delivery.replyToMsgId.isSome)
    (hprepare : delivery.sendMsg → world.prepareFailure uid = none) :
    Disciplined s spans senderVk
      (storePayload crates protocol slf s.state uid delivery world) := by
  obtain ⟨message, hmessage, -⟩ := hanswer.message
  obtain ⟨state', hchange, -, -, -, hdetail⟩ := exists_changeMessage hmessage
    (fun message => { message with payload := some world.packed })
  have hkept := AgentConnectionState.Kept.change hchange (fun _ _ => ⟨rfl, rfl, .inl rfl⟩)
  unfold storePayload
  rw [hchange]
  refine ⟨Fits.of_kept hkept hdetail (fun _ h => absurd h not_mem_nil),
    Settles.of_late (sendMessageIfNeeded_late fun hsend => ?_)⟩
  exact sendMessage_answer (hanswer.kept hkept) hreply (hprepare hsend)

theorem finishAnswer_disciplined {role : MessageHandlerRole} (hanswer : s.state.HasAnswer uid)
    (hreply : delivery.replyToMsgId.isSome)
    (hprepare : role = .owner → delivery.sendMsg → world.prepareFailure uid = none) :
    Disciplined s spans senderVk
      ⟨finishAnswer crates protocol slf s.state role uid delivery world, s.state, []⟩ := by
  refine ⟨Fits.of_same rfl rfl, ?_⟩
  cases role with
  | owner =>
    refine Settles.of_late (sendMessageIfNeeded_late fun hsend => ?_)
    exact sendMessage_answer hanswer hreply (hprepare rfl hsend)
  | remote =>
    obtain ⟨message, hmessage, -⟩ := hanswer.message
    have hprogress : finishAnswer crates protocol slf s.state .remote uid delivery world =
        .awaiting (.answerPayload uid delivery) := by
      unfold finishAnswer
      dsimp only
      rw [hmessage]
      rfl
    rw [hprogress]
    exact ⟨fun _ he => by cases he; exact ⟨hanswer, hreply⟩, fun _ he => by cases he⟩

/-! ### Every turn -/

theorem failed_leftAlone {task : Task} (hown : Own s spans task)
    (h : ResumePermitted slf s spans task world) (hfailed : world.succeeded = false) :
    LeftAlone spans := by
  obtain ⟨senderVk, awaiting⟩ := task
  have hnot : ¬ world.succeeded = true := by
    rw [hfailed]
    exact Bool.false_ne_true
  cases awaiting with
  | requestProof => exact hown
  | ownProof | senderProof | remoteProof => exact hown.1
  | senderDid => exact absurd h hnot
  | senderAgencyDid | answerPayload => exact absurd h.1 hnot
  | sent | encrypted => exact h.resolve_left hnot
  | persisted => exact h.resolve_right fun hsucceeded => hnot hsucceeded.1

theorem proceed_disciplined {task : Task} (hs : s.Inv) (hown : Own s spans task)
    (h : ResumePermitted slf s spans task world) (hsucceeded : world.succeeded) :
    Disciplined s spans task.senderVk
      (proceed crates protocol slf s.state task.senderVk world task.awaiting) := by
  obtain ⟨senderVk, awaiting⟩ := task
  cases awaiting with
  | requestProof msgDetail delivery => exact storeConnectionRequest_disciplined _ (h hsucceeded)
  | ownProof msgDetail replyToMsgId keyDlgProof delivery =>
    exact verify_disciplined ⟨hown.1.append rfl, hown.2⟩
  | senderProof msgDetail replyToMsgId keyDlgProof delivery =>
    obtain ⟨hdetail, haccepted, hfresh, hdrawn, hne⟩ := h hsucceeded
    exact storeOwnAnswer_disciplined keyDlgProof hown.2 hdetail haccepted hfresh hdrawn hne
  | remoteProof msgDetail replyToMsgId msgUid delivery =>
    obtain ⟨hdetail, haccepted, hrequested, hfresh⟩ := h hsucceeded
    exact storeRemoteAnswer_disciplined hs hown.2 hdetail haccepted hrequested hfresh
  | senderDid role msgDetail uid delivery =>
    exact Disciplined.of_same rfl rfl (fun _ he => by cases he; exact hown)
      (fun _ he => by cases he)
  | senderAgencyDid role msgDetail uid delivery =>
    exact finishAnswer_disciplined hown.1 hown.2 h.2
  | answerPayload uid delivery => exact storePayload_disciplined hown.1 hown.2 h.2
  | sent endpoints uids msgs reported => exact ⟨Fits.of_same rfl rfl, Settles.of_late trivial⟩
  | encrypted msgs => exact ⟨Fits.of_same rfl rfl, Settles.of_late trivial⟩
  | persisted metadata msgs =>
    cases hkey : getRecipientKey slf s.state senderVk with
    | ok key =>
      refine ⟨?_, Settles.of_late ?_⟩
      all_goals unfold proceed; rw [hkey]
      · exact Fits.of_same rfl rfl
      · trivial
    | panic =>
      refine ⟨?_, Settles.of_late ?_⟩
      all_goals unfold proceed; rw [hkey]
      · exact Fits.of_same rfl rfl
      · trivial
    | err e =>
      have halone : LeftAlone spans := h.resolve_right fun hsent => hsent.2 e hkey
      unfold proceed
      rw [hkey]
      exact Disciplined.of_same rfl rfl (fun _ he => by cases he) (fun _ _ => halone)

theorem resume_disciplined {task : Task} (hs : s.Inv) (hown : Own s spans task)
    (h : ResumePermitted slf s spans task world) :
    Disciplined s spans task.senderVk
      (resume crates protocol slf s.state task.senderVk task.awaiting world) := by
  unfold resume
  split
  next hsucceeded => exact proceed_disciplined hs hown h hsucceeded
  next hfailed =>
    have halone := failed_leftAlone hown h (Bool.eq_false_iff.mpr hfailed)
    exact Disciplined.of_same rfl rfl (fun _ he => by cases he) (fun _ _ => halone)

end First

end AgentConnection

/-! ### Runs -/

section Runs

variable {s : Recorded} {spans : List (Recorded × Recorded)}

/-- A step that is safe, and disturbs no message that waits. -/
def GuaranteedStep (s s' : Recorded) : Prop := SafeStep s s' ∧ s.state.Kept s'.state

theorem Disciplined.keeps {senderVk : String} {turn : Turn} (hs : s.Inv)
    (h : Disciplined s spans senderVk turn) :
    Turns.Keeps Recorded.Inv Own GuaranteedStep FailsCleanly s spans
      (turn.next senderVk, s.after turn) where
  inv := h.1.inv hs
  step := ⟨h.1.safe hs, h.1.kept⟩
  own task he := by
    unfold Turn.next at he
    cases hprogress : turn.progress with
    | awaiting awaiting =>
      rw [hprogress] at he
      cases he
      exact h.2.own awaiting hprogress
    | done result =>
      rw [hprogress] at he
      cases he
  report result he e hresult := by
    subst hresult
    unfold Turn.next at he
    cases hprogress : turn.progress with
    | awaiting awaiting =>
      rw [hprogress] at he
      cases he
    | done result =>
      rw [hprogress] at he
      cases result with
      | err e' => exact h.2.failed e' hprogress
      | ok msgs => cases he
      | panic => cases he

variable (crates : ConnectionCrates) (protocol : ProtocolTypes) (slf : AgentConnectionConfig)

theorem a2conn_keeps (hs : s.Inv) (msg : A2ConnMessage) :
    Turns.Keeps Recorded.Inv Own GuaranteedStep FailsCleanly s []
      ((connectionTurns crates protocol slf).start (.a2conn msg) s) := by
  obtain ⟨hkept, hdetail, hfailed⟩ :=
    AgentConnection.handleAgent2ConnMessage_cases crates protocol slf s.state msg
  have hfits : Fits s ⟨.done .panic,
      (AgentConnection.handleAgent2ConnMessage crates protocol slf s.state msg).2, []⟩ :=
    Fits.of_kept hkept hdetail (fun _ h => absurd h not_mem_nil)
  have hafter : s.after ⟨.done .panic,
      (AgentConnection.handleAgent2ConnMessage crates protocol slf s.state msg).2, []⟩ =
        ((connectionTurns crates protocol slf).start (.a2conn msg) s).2 := by
    unfold Recorded.after
    rw [append_nil]
    rfl
  refine ⟨hafter ▸ hfits.inv hs, hafter ▸ ⟨hfits.safe hs, hkept⟩, ?_, ?_⟩
  · intro waiting he
    cases he
  intro result he e hresult
  have hresult' : Reply.a2conn <$> (AgentConnection.handleAgent2ConnMessage crates protocol slf
      s.state msg).1 = .err e := (Sum.inr.inj he).trans hresult
  refine leftAlone_nil.append (hfailed e ?_)
  cases hhandled : (AgentConnection.handleAgent2ConnMessage crates protocol slf s.state msg).1 with
  | err e' =>
    rw [hhandled] at hresult'
    cases hresult'
    rfl
  | ok reply =>
    rw [hhandled] at hresult'
    cases hresult'
  | panic =>
    rw [hhandled] at hresult'
    cases hresult'

theorem connectionTurns_relies : Turns.Relies (connectionTurns crates protocol slf)
    (Permitted crates protocol slf) Recorded.Inv Own GuaranteedStep FailsCleanly where
  start {s input} hs h := by
    cases input with
    | a2a senderVk msgs world =>
      exact (AgentConnection.handleA2aMsg_disciplined h).keeps hs
    | a2conn msg => exact a2conn_keeps crates protocol slf hs msg
  resume hs hown h := (AgentConnection.resume_disciplined hs hown h).keeps hs
  stable hstep hown := hown.kept hstep.2

theorem newConnection_inv : Recorded.Inv {} where
  unestablished _ := rfl
  once := Nat.zero_le 1
  established _ _ _ h := absurd h not_mem_nil
  requested _ h := absurd h not_mem_nil

/-- Whatever the messages of a new connection are, however their turns interleave and whichever of
its calls fail: while the turns are permitted, the connection keeps its promises. -/
theorem establishment_runs_safe (events : List (Turns.Event Input TurnWorld))
    (h : (connectionTurns crates protocol slf).machine.Along
      (Turns.Allows (Permitted crates protocol slf)) ⟨{}, [], false⟩ events) :
    (connectionTurns crates protocol slf).machine.Along
      ((connectionTurns crates protocol slf).Meets SafeStep FailsCleanly)
      ⟨{}, [], false⟩ events := by
  have hmeets := (connectionTurns_relies crates protocol slf).along
    ⟨newConnection_inv, fun _ hmem => absurd hmem not_mem_nil⟩ h
  refine Machine.along_mono (fun s event hmeets spans next state hturn => ?_) hmeets
  exact ⟨(hmeets spans next state hturn).1.1, (hmeets spans next state hturn).2⟩

end Runs

/-! ### A connection with two sides -/

def exampleCrates : ConnectionCrates where
  base64Decode text := if text = "" then some [] else none
  fromSlice _ := none
  toVec _ := []
  order := IterationOrder.inserted

def exampleDetail : ForwardAgentDetail := ⟨"agency", "agencyKey", "http://agency"⟩

def exampleConnection : AgentConnectionConfig where
  ownerDid := "owner"
  ownerVerkey := "ownerKey"
  userPairwiseDid := "user"
  userPairwiseVerkey := "userKey"
  agentPairwiseDid := "agent"
  agentPairwiseVerkey := "agentKey"
  agentConfigs := ∅
  forwardAgentDetail := exampleDetail

def exampleRequest : List A2AMessage :=
  [.version1 (.createMessage ⟨.connReq, false, none, none⟩),
    .version1 (.messageDetail (.connectionRequest ⟨⟨"agent", "agentKey", ""⟩, none, none, none,
      none⟩))]

/-- An accepted answer of the other side to a message. -/
def exampleAnswer (replyToMsgId : String) : List A2AMessage :=
  [.version1 (.createMessage ⟨.connReqAnswer, false, some "answer", some replyToMsgId⟩),
    .version1 (.messageDetail (.connectionRequestAnswer ⟨none,
      ⟨"other", "otherKey", ⟨"otherAgent", "otherAgentKey", ""⟩, none, none, none⟩, exampleDetail,
      .accepted, none⟩))]

def answeredRequest : List (Turns.Event Input TurnWorld) :=
  [.start (.a2a "userKey" exampleRequest {}), .resume 0 { drawn := "request" }, .resume 0 {},
    .resume 0 {}, .start (.a2a "otherAgentKey" (exampleAnswer "request") {}), .resume 0 {},
    .resume 0 {}, .resume 0 {}, .resume 0 {}, .resume 0 {}, .resume 0 {}]

theorem establishment_answeredRequest :
    (connectionTurns exampleCrates .V1 exampleConnection).machine.Along
      ((connectionTurns exampleCrates .V1 exampleConnection).Meets SafeStep FailsCleanly)
      ⟨{}, [], false⟩ answeredRequest := by
  refine establishment_runs_safe _ _ _ _
    ⟨fun _ => trivial, ?_, ?_, ?_, fun _ => trivial, ?_, ?_, ?_,
    ?_, ?_, ?_, trivial⟩
  · rintro _ ⟨⟩ -
    decide +kernel
  · rintro _ ⟨⟩
    exact .inr ⟨rfl, fun e he =>
      err_ne_ok e "ownerKey" (he.symm.trans (by decide +kernel))⟩
  · rintro _ ⟨⟩
    exact .inl rfl
  · rintro _ ⟨⟩ -
    decide +kernel
  · rintro _ ⟨⟩
    rfl
  · rintro _ ⟨⟩
    exact ⟨rfl, fun h => by cases h⟩
  · rintro _ ⟨⟩
    exact ⟨rfl, fun _ => rfl⟩
  · rintro _ ⟨⟩
    exact .inr ⟨rfl, fun e he =>
      err_ne_ok e "otherAgentKey" (he.symm.trans (by decide +kernel))⟩
  · rintro _ ⟨⟩
    exact .inl rfl

/-- Somebody answers a request that was never made: the answer fails, and has established the
connection. -/
theorem unasked_answer_establishes :
    ¬ (connectionTurns exampleCrates .V1 exampleConnection).machine.Along
      ((connectionTurns exampleCrates .V1 exampleConnection).Meets SafeStep FailsCleanly)
      ⟨{}, [], false⟩
      [.start (.a2a "otherAgentKey" (exampleAnswer "request") {}), .resume 0 {}] := by
  rintro ⟨-, hanswer, -⟩
  have halone := (hanswer _ _ _ rfl).2 _ rfl "Message mot found." rfl
  have hsame := congrArg (fun state => state.remoteConnectionDetail.isSome)
    (halone _ (mem_append_right _ mem_cons_self))
  exact absurd hsame (by decide +kernel)

end IndySdk.Agency
