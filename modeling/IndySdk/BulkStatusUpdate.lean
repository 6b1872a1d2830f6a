import IndySdk.LinkedConnections

/-!
# Updating the statuses of messages of many connections

A request names messages by the DID of a connection and their identifiers. The agent passes what the
first entry of each DID says on to its connection and joins the answers. It never reports a failure:
what it does not know, or reads a second time, is left out, and when one connection refuses, the
call fails although others have made their updates.
-/

namespace IndySdk.Agency

open Outcome List

def UpdateMessageStatusByConnections.Requests (msg : UpdateMessageStatusByConnections)
    (did uid : String) : Prop :=
  ∃ entry ∈ msg.uidsByConn, entry.pairwiseDid = did ∧ uid ∈ entry.uids

/-- The entry that is passed on to a connection. -/
def UpdateMessageStatusByConnections.entry (msg : UpdateMessageStatusByConnections)
    (did : String) : Option UidByConnection :=
  msg.uidsByConn.find? (·.pairwiseDid = did)

namespace MessageStatusUpdatedByConnections

variable (reply : MessageStatusUpdatedByConnections) (did uid : String)

def updated : List (String × String) :=
  reply.updatedUidsByConn.flatMap fun entry => entry.uids.map fun uid => (entry.pairwiseDid, uid)

def ReportsFailure : Prop := ∃ info ∈ reply.failed, info.pairwiseDid = did

/-- How often a message is reported; a failure is reported for the whole connection. -/
def reports : ℕ :=
  reply.updated.count (did, uid) + reply.failed.countP (·.pairwiseDid = did)

end MessageStatusUpdatedByConnections

namespace CloudAgent

variable (s : CloudAgent)

def connectionOf (did : String) : Option Connection :=
  (s.wallet.pairwise.lookup did).bind fun record => s.connections.lookup record.myDid

def messageAt (did uid : String) : Option InternalMessage :=
  (s.connectionOf did).bind fun connection => connection.state.messages.lookup uid

def isRouted (did : String) : Bool :=
  (s.wallet.pairwise.lookup did).any fun record =>
    (s.router.pairwiseRoutes record.myDid).isSome

/-- A message that was received and not yet answered can be answered or reviewed. -/
def isUpdatable (statusCode : MessageStatusCode) (did uid : String) : Bool :=
  (s.messageAt did uid).any fun message => message.statusCode = .received ∧
    statusCode ∈ MessageStatusCode.validNewMessageStatusCodesAllowedUpdateTo

/-- A connection takes all the updates of an entry or none of them. -/
def takes (statusCode : MessageStatusCode) (did : String) (uids : List String) : Bool :=
  s.isRouted did && uids.all (s.isUpdatable statusCode did)

def StatusChanged (s s' : CloudAgent) (did uid : String) : Prop :=
  (s'.messageAt did uid).map InternalMessage.statusCode ≠
    (s.messageAt did uid).map InternalMessage.statusCode

/-- What a request is to be answered: each requested message is reported once, as updated or as
failed, the messages of a connection are all updated or none of them, and an error comes with no
change. -/
def BulkReported (s : CloudAgent) (msg : UpdateMessageStatusByConnections)
    (answer : AgentResult MessageStatusUpdatedByConnections) (s' : CloudAgent) : Prop :=
  match answer with
  | .ok reply =>
    (∀ did uid, msg.Requests did uid → reply.reports did uid = 1 ∧
      ((did, uid) ∈ reply.updated ↔ s.StatusChanged s' did uid) ∧
      (reply.ReportsFailure did ↔ ¬ s.StatusChanged s' did uid)) ∧
    ∀ did, (∀ uid, msg.Requests did uid → s.StatusChanged s' did uid) ∨
      ∀ uid, msg.Requests did uid → ¬ s.StatusChanged s' did uid
  | .err _ => ∀ did uid, s'.messageAt did uid = s.messageAt did uid
  | .panic => False

/-- The wallet cannot be listed; or every connection takes its updates, and each requested message
is named once in the first entry of a DID that is known; or a connection refuses, and the others
have nothing to update. -/
def Uniform (world : AgentWorld) (msg : UpdateMessageStatusByConnections) : Prop :=
  (world.succeeds .listPairwise = false ∨
    ∃ did record, s.wallet.pairwise.lookup did = some record ∧ record.metadata = none) ∨
  ((∀ did entry, (s.wallet.pairwise.lookup did).isSome → msg.entry did = some entry →
      s.takes msg.statusCode did entry.uids = true) ∧
    ∀ did uid, msg.Requests did uid → (s.wallet.pairwise.lookup did).isSome ∧
      ∃ entry, msg.entry did = some entry ∧ entry.uids.count uid = 1) ∨
  ((∃ did entry, (s.wallet.pairwise.lookup did).isSome ∧ msg.entry did = some entry ∧
      s.takes msg.statusCode did entry.uids = false) ∧
    ∀ did entry, (s.wallet.pairwise.lookup did).isSome → msg.entry did = some entry →
      s.takes msg.statusCode did entry.uids = true → entry.uids = [])

end CloudAgent

/-! ### One connection -/

namespace AgentConnectionState

variable {state : AgentConnectionState} {statusCode : MessageStatusCode}

theorem checkIfMessageStatusCanBeUpdated_eq_ok_iff {uid : String} :
    state.checkIfMessageStatusCanBeUpdated uid statusCode = .ok () ↔
      ∃ message, state.messages.lookup uid = some message ∧ message.statusCode = .received ∧
        statusCode ∈ MessageStatusCode.validNewMessageStatusCodesAllowedUpdateTo := by
  unfold checkIfMessageStatusCanBeUpdated
  cases hlookup : state.messages.lookup uid with
  | none =>
    refine iff_of_false (fun h => by cases h) ?_
    rintro ⟨message, hmessage, -⟩
    cases hmessage
  | some message =>
    rw [ofOption_some, ok_bind, checkIfMessageNotAlreadyAnswered]
    constructor
    · intro h
      refine ⟨message, rfl, ?_⟩
      split at h
      · cases h
      · rw [ok_bind] at h
        split at h
        · cases h
        · rename_i hcode
          split at h
          · cases h
          · rename_i hreceived
            refine ⟨?_, not_not.mp hcode⟩
            exact mem_singleton.mp (not_not.mp hreceived)
    · rintro ⟨message', hmessage, hreceived, hcode⟩
      cases hmessage
      rw [hreceived, if_neg (by decide), ok_bind, if_neg (not_not.mpr hcode),
        if_neg (by decide)]

/-- Updates of messages that are there change their statuses and nothing else. -/
theorem updateEach_eq_ok {uids : List String}
    (h : ∀ uid ∈ uids, (state.messages.lookup uid).isSome) :
    ∃ state', updateEach statusCode uids state = (.ok (), state') ∧
      ∀ uid, state'.messages.lookup uid = if uid ∈ uids then
        (state.messages.lookup uid).map fun message => { message with statusCode := statusCode }
        else state.messages.lookup uid := by
  induction uids generalizing state with
  | nil => exact ⟨state, rfl, fun uid => (if_neg not_mem_nil).symm⟩
  | cons first uids ih =>
    obtain ⟨message, hmessage⟩ := Option.isSome_iff_exists.mp (h first mem_cons_self)
    let next : AgentConnectionState := { state with
      messages := state.messages.insert first { message with statusCode := statusCode } }
    have hstep : state.updateMessageStatus first statusCode = .ok next := by
      rw [updateMessageStatus, changeMessage, hmessage]
      rfl
    have hnext : ∀ uid, next.messages.lookup uid = if uid = first then
        (state.messages.lookup uid).map fun message => { message with statusCode := statusCode }
        else state.messages.lookup uid := by
      intro uid
      by_cases huid : uid = first
      · rw [if_pos huid, huid, hmessage]
        exact AList.lookup_insert _
      · rw [if_neg huid]
        exact AList.lookup_insert_ne huid
    obtain ⟨state', hupdated, hlookup⟩ := @ih next (by
      intro uid huid
      rw [hnext]
      have hsome := h uid (mem_cons_of_mem _ huid)
      split
      · rw [Option.isSome_map]
        exact hsome
      · exact hsome)
    refine ⟨state', ?_, ?_⟩
    · rw [updateEach, hstep]
      exact hupdated
    · intro uid
      rw [hlookup, hnext]
      by_cases hfirst : uid = first
      · have hmem : uid ∈ first :: uids := by
          rw [hfirst]
          exact mem_cons_self
        rw [if_pos hfirst, if_pos hmem]
        split
        · rw [Option.map_map]
          rfl
        · rfl
      · rw [if_neg hfirst]
        exact if_congr (by rw [mem_cons, or_iff_right hfirst]) rfl rfl

/-- All of the messages are updated, or none is because one of them cannot be. -/
theorem updateMessagesStatus_cases (state : AgentConnectionState) (msg : UpdateMessageStatus) :
    ((∀ uid ∈ msg.uids, state.checkIfMessageStatusCanBeUpdated uid msg.statusCode = .ok ()) ∧
      ∃ state', state.updateMessagesStatus msg = (.ok (msg.uids, msg.statusCode), state') ∧
        ∀ uid, state'.messages.lookup uid = if uid ∈ msg.uids then
          (state.messages.lookup uid).map fun message =>
            { message with statusCode := msg.statusCode }
          else state.messages.lookup uid) ∨
    (¬ ∀ uid ∈ msg.uids, state.checkIfMessageStatusCanBeUpdated uid msg.statusCode = .ok ()) ∧
      state.updateMessagesStatus msg = (.err "Messages can't be updated.", state) := by
  unfold updateMessagesStatus
  split
  · rename_i hchecked
    rw [all_eq_true] at hchecked
    have hall : ∀ uid ∈ msg.uids,
        state.checkIfMessageStatusCanBeUpdated uid msg.statusCode = .ok () := by
      intro uid huid
      have hok := hchecked uid huid
      cases h : state.checkIfMessageStatusCanBeUpdated uid msg.statusCode with
      | ok => rfl
      | err e =>
        rw [h] at hok
        cases hok
      | panic =>
        rw [h] at hok
        cases hok
    obtain ⟨state', hupdated, hlookup⟩ := @updateEach_eq_ok state msg.statusCode msg.uids
      (fun uid huid => by
        obtain ⟨message, hmessage, -⟩ :=
          checkIfMessageStatusCanBeUpdated_eq_ok_iff.mp (hall uid huid)
        rw [hmessage]
        rfl)
    refine .inl ⟨hall, state', ?_, hlookup⟩
    rw [hupdated]
    rfl
  · rename_i hrefused
    refine .inr ⟨fun hall => hrefused ?_, rfl⟩
    rw [all_eq_true]
    intro uid huid
    rw [hall uid huid]

end AgentConnectionState

/-! ### The request on its way -/

namespace CloudAgent

variable {crates : ConnectionCrates} {protocol : ProtocolTypes} {s s' : CloudAgent}
  {world : AgentWorld} {statusCode : MessageStatusCode} {did : String}

theorem connectionOf_setConnectionState (h : s.Linked) {record : Pairwise}
    (hrecord : s.wallet.pairwise.lookup did = some record) {connection : Connection}
    (hconnection : s.connections.lookup record.myDid = some connection)
    (state : AgentConnectionState) (d : String) :
    (s.setConnectionState record.myDid connection state).connectionOf d =
      if d = did then some { connection with state := state } else s.connectionOf d := by
  have hpairwise : (s.setConnectionState record.myDid connection state).wallet.pairwise =
      s.wallet.pairwise := rfl
  unfold connectionOf
  rw [hpairwise]
  by_cases hd : d = did
  · rw [if_pos hd, hd, hrecord]
    change (s.connections.replace record.myDid _).lookup record.myDid = _
    rw [AssocMap.lookup_replace, if_pos rfl, hconnection]
    rfl
  · rw [if_neg hd]
    cases hother : s.wallet.pairwise.lookup d with
    | none => rfl
    | some other =>
      have hne : other.myDid ≠ record.myDid :=
        fun hsame => hd (h.eq_of_myDid hother hrecord hsame)
      change (s.connections.replace record.myDid _).lookup other.myDid = _
      rw [AssocMap.lookup_replace, if_neg hne]
      rfl

theorem handleAgent2ConnMessage_update (slf : AgentConnectionConfig)
    (state : AgentConnectionState) (msg : UpdateMessageStatus) :
    AgentConnection.handleAgent2ConnMessage crates protocol slf state (.updateMessages msg) =
      ((state.updateMessagesStatus msg).1.bind fun answer =>
        .ok (.messageStatusUpdatedByConnection ⟨answer.1, slf.userPairwiseDid⟩),
        (state.updateMessagesStatus msg).2) := rfl

/-- What a message of the agent to update statuses does: everything that it names or nothing. -/
theorem routeA2connMsg_update (h : s.Linked) {did : String} {record : Pairwise}
    (hrecord : s.wallet.pairwise.lookup did = some record) (uids : List String) :
    (s.takes statusCode did uids = true ∧
      (s.routeA2connMsg crates protocol record.myDid (.updateMessages ⟨uids, statusCode⟩)).1 =
        .ok (.messageStatusUpdatedByConnection ⟨uids, did⟩) ∧
      ∀ d uid, (s.routeA2connMsg crates protocol record.myDid
          (.updateMessages ⟨uids, statusCode⟩)).2.messageAt d uid =
        if d = did ∧ uid ∈ uids then
          (s.messageAt d uid).map fun message => { message with statusCode := statusCode }
        else s.messageAt d uid) ∨
    (s.takes statusCode did uids = false ∧
      (∃ e, (s.routeA2connMsg crates protocol record.myDid
        (.updateMessages ⟨uids, statusCode⟩)).1 = .err e) ∧
      ∀ d uid, (s.routeA2connMsg crates protocol record.myDid
          (.updateMessages ⟨uids, statusCode⟩)).2.messageAt d uid = s.messageAt d uid) := by
  obtain ⟨-, hroutes, connection, hconnection, huser⟩ := h did record hrecord
  have hrouted : s.isRouted did = (s.router.pairwiseRoutes record.myDid).isSome := by
    rw [isRouted, hrecord]
    rfl
  have hmessages : ∀ uid, s.messageAt did uid = connection.state.messages.lookup uid := by
    intro uid
    rw [messageAt, connectionOf, hrecord, Option.bind_some, hconnection]
    rfl
  have hchecks : uids.all (s.isUpdatable statusCode did) = true ↔ ∀ uid ∈ uids,
      connection.state.checkIfMessageStatusCanBeUpdated uid statusCode = .ok () := by
    rw [all_eq_true]
    refine forall₂_congr fun uid _ => ?_
    rw [AgentConnectionState.checkIfMessageStatusCanBeUpdated_eq_ok_iff, isUpdatable, hmessages,
      Option.any_eq_true]
    simp only [decide_eq_true_eq]
  unfold routeA2connMsg
  rw [takes, hrouted]
  cases hroute : s.router.pairwiseRoutes record.myDid with
  | none => exact .inr ⟨rfl, ⟨_, rfl⟩, fun _ _ => rfl⟩
  | some actor =>
    obtain rfl := hroutes actor hroute
    dsimp only
    rw [hconnection]
    dsimp only
    obtain ⟨hall, state', hupdated, hlookup⟩ | ⟨hnot, hupdated⟩ :=
      connection.state.updateMessagesStatus_cases ⟨uids, statusCode⟩
    · refine .inl ⟨?_, ?_, ?_⟩
      · rw [Option.isSome_some, Bool.true_and]
        exact hchecks.mpr hall
      · rw [handleAgent2ConnMessage_update, hupdated, huser]
        rfl
      · intro d uid
        rw [handleAgent2ConnMessage_update, hupdated]
        dsimp only
        rw [messageAt, connectionOf_setConnectionState h hrecord hconnection]
        by_cases hd : d = did
        · rw [if_pos hd, Option.bind_some, hlookup, hd, hmessages]
          exact if_congr (by rw [and_iff_right rfl]) rfl rfl
        · rw [if_neg hd, if_neg (fun hboth => hd hboth.1)]
          rfl
    · refine .inr ⟨?_, ?_, ?_⟩
      · rw [Option.isSome_some, Bool.true_and, Bool.eq_false_iff]
        exact fun hall => hnot (hchecks.mp hall)
      · rw [handleAgent2ConnMessage_update, hupdated]
        exact ⟨_, rfl⟩
      · intro d uid
        rw [handleAgent2ConnMessage_update, hupdated]
        dsimp only
        rw [setConnectionState_self hconnection]

theorem routeA2connMsg_frame (s : CloudAgent) (did : String) (msg : A2ConnMessage) :
    (s.routeA2connMsg crates protocol did msg).2.wallet = s.wallet ∧
      (s.routeA2connMsg crates protocol did msg).2.router = s.router := by
  unfold routeA2connMsg
  split
  · split
    · exact ⟨rfl, rfl⟩
    · exact ⟨rfl, rfl⟩
  · exact ⟨rfl, rfl⟩

theorem takes_congr (hwallet : s'.wallet = s.wallet) (hrouter : s'.router = s.router)
    (hmessages : ∀ uid, s'.messageAt did uid = s.messageAt did uid) (uids : List String) :
    s'.takes statusCode did uids = s.takes statusCode did uids := by
  have hupdatable : s'.isUpdatable statusCode did = s.isUpdatable statusCode did := by
    funext uid
    rw [isUpdatable, isUpdatable, hmessages]
  rw [takes, takes, isRouted, isRouted, hwallet, hrouter, hupdatable]

/-! ### All connections -/

/-- The messages to the connections of some records, each with the DID of the other side. -/
def updateTargets (msg : UpdateMessageStatusByConnections) (pairs : List (String × String)) :
    List (String × A2ConnMessage) :=
  pairs.filterMap fun pair => (msg.entry pair.1).map fun entry =>
    (pair.2, .updateMessages ⟨entry.uids, msg.statusCode⟩)

/-- The message is named in the entry of a connection that takes it. -/
def Updates (s : CloudAgent) (msg : UpdateMessageStatusByConnections) (did uid : String) : Prop :=
  ∃ entry, msg.entry did = some entry ∧ s.takes msg.statusCode did entry.uids = true ∧
    uid ∈ entry.uids

/-- What comes of the messages to some connections: all answer, or one refuses; and each has updated
what it takes. -/
structure Distributed (s : CloudAgent) (msg : UpdateMessageStatusByConnections)
    (pairs : List (String × String)) (answers : List (AgentResult A2ConnMessage))
    (s' : CloudAgent) : Prop where
  taken : (∀ pair ∈ pairs, ∀ entry, msg.entry pair.1 = some entry →
      s.takes msg.statusCode pair.1 entry.uids = true) →
    answers = (pairs.filterMap fun pair => (msg.entry pair.1).map fun entry =>
      (⟨entry.uids, pair.1⟩ : UidByConnection)).map
        fun entry => .ok (.messageStatusUpdatedByConnection entry)
  refused : (∃ pair ∈ pairs, ∃ entry, msg.entry pair.1 = some entry ∧
    s.takes msg.statusCode pair.1 entry.uids = false) → ∃ e, .err e ∈ answers
  noPanic : .panic ∉ answers
  others : ∀ did uid, did ∉ pairs.map Prod.fst → s'.messageAt did uid = s.messageAt did uid
  updated : ∀ did uid, did ∈ pairs.map Prod.fst → s.Updates msg did uid →
    s'.messageAt did uid = (s.messageAt did uid).map fun message =>
      { message with statusCode := msg.statusCode }
  kept : ∀ did uid, did ∈ pairs.map Prod.fst → ¬ s.Updates msg did uid →
    s'.messageAt did uid = s.messageAt did uid

variable {pair : String × String}

theorem updateTargets_none {msg : UpdateMessageStatusByConnections}
    (hentry : msg.entry pair.1 = none) (pairs : List (String × String)) :
    updateTargets msg (pair :: pairs) = updateTargets msg pairs := by
  rw [updateTargets, filterMap_cons, hentry]
  rfl

theorem updateTargets_some {msg : UpdateMessageStatusByConnections} {entry : UidByConnection}
    (hentry : msg.entry pair.1 = some entry) (pairs : List (String × String)) :
    updateTargets msg (pair :: pairs) =
      (pair.2, .updateMessages ⟨entry.uids, msg.statusCode⟩) :: updateTargets msg pairs := by
  rw [updateTargets, filterMap_cons, hentry]
  rfl

theorem Distributed.skip {msg : UpdateMessageStatusByConnections} {pairs : List (String × String)}
    {answers : List (AgentResult A2ConnMessage)} (hentry : msg.entry pair.1 = none)
    (hnotMem : pair.1 ∉ pairs.map Prod.fst) (h : s.Distributed msg pairs answers s') :
    s.Distributed msg (pair :: pairs) answers s' := by
  refine ⟨?_, ?_, h.noPanic, ?_, ?_, ?_⟩
  · intro htaken
    rw [filterMap_cons, hentry]
    exact h.taken fun other hother => htaken other (mem_cons_of_mem _ hother)
  · rintro ⟨other, hother, entry, hof, hrefused⟩
    obtain rfl | hother := mem_cons.mp hother
    · rw [hentry] at hof
      cases hof
    · exact h.refused ⟨other, hother, entry, hof, hrefused⟩
  · intro did uid hdid
    exact h.others did uid fun hmem => hdid (mem_cons_of_mem _ hmem)
  · intro did uid hdid hupdates
    obtain rfl | hdid := mem_cons.mp hdid
    · obtain ⟨entry, hof, -⟩ := hupdates
      rw [hentry] at hof
      cases hof
    · exact h.updated did uid hdid hupdates
  · intro did uid hdid hnot
    obtain rfl | hdid := mem_cons.mp hdid
    · exact h.others _ uid hnotMem
    · exact h.kept did uid hdid hnot

/-- The connection of one more record, before the others, whose states it leaves alone. -/
theorem Distributed.cons (hlinked : s.Linked) {msg : UpdateMessageStatusByConnections}
    {pair : String × String} {pairs : List (String × String)} {entry : UidByConnection}
    {record : Pairwise} (hrecord : s.wallet.pairwise.lookup pair.1 = some record)
    (hmine : record.myDid = pair.2) (hentry : msg.entry pair.1 = some entry)
    (hnotMem : pair.1 ∉ pairs.map Prod.fst) {answers : List (AgentResult A2ConnMessage)}
    (h : (s.routeA2connMsg crates protocol pair.2
      (.updateMessages ⟨entry.uids, msg.statusCode⟩)).2.Distributed msg pairs answers s') :
    s.Distributed msg (pair :: pairs) ((s.routeA2connMsg crates protocol pair.2
      (.updateMessages ⟨entry.uids, msg.statusCode⟩)).1 :: answers) s' := by
  obtain ⟨hwallet, hrouter⟩ := @routeA2connMsg_frame crates protocol s pair.2
    (.updateMessages ⟨entry.uids, msg.statusCode⟩)
  have hroute := @routeA2connMsg_update crates protocol _ msg.statusCode hlinked _ _ hrecord
    entry.uids
  rw [hmine] at hroute
  generalize s.routeA2connMsg crates protocol pair.2
    (.updateMessages ⟨entry.uids, msg.statusCode⟩) = routed at *
  have hothers : ∀ did, did ≠ pair.1 → ∀ uid, routed.2.messageAt did uid = s.messageAt did uid := by
    intro did hne uid
    obtain ⟨-, -, hmessages⟩ | ⟨-, -, hmessages⟩ := hroute
    · rw [hmessages, if_neg (fun hboth => hne hboth.1)]
    · exact hmessages did uid
  have htakes : ∀ did, did ≠ pair.1 → ∀ uids,
      routed.2.takes msg.statusCode did uids = s.takes msg.statusCode did uids :=
    fun did hne uids => takes_congr hwallet hrouter (hothers did hne) uids
  have hne : ∀ did ∈ pairs.map Prod.fst, did ≠ pair.1 := by
    rintro did hdid rfl
    exact hnotMem hdid
  have hupdates : ∀ did ∈ pairs.map Prod.fst, ∀ uid,
      routed.2.Updates msg did uid ↔ s.Updates msg did uid := by
    intro did hdid uid
    refine exists_congr fun other => and_congr_right fun _ => ?_
    rw [htakes did (hne did hdid)]
  have hself : ∀ uid, s.Updates msg pair.1 uid ↔
      s.takes msg.statusCode pair.1 entry.uids = true ∧ uid ∈ entry.uids := by
    intro uid
    constructor
    · rintro ⟨other, hother, hboth⟩
      rw [hentry] at hother
      cases hother
      exact hboth
    · intro hboth
      exact ⟨entry, hentry, hboth⟩
  refine ⟨?_, ?_, ?_, ?_, ?_, ?_⟩
  · intro htaken
    have hfirst := htaken pair mem_cons_self entry hentry
    obtain ⟨-, hanswer, -⟩ | ⟨hrefused, -, -⟩ := hroute
    · rw [filterMap_cons, hentry, hanswer]
      dsimp only [Option.map_some]
      rw [map_cons]
      refine congrArg _ (h.taken ?_)
      intro other hother entry' hentry'
      rw [htakes _ (hne _ (mem_map_of_mem hother))]
      exact htaken other (mem_cons_of_mem _ hother) entry' hentry'
    · rw [hfirst] at hrefused
      cases hrefused
  · rintro ⟨other, hother, entry', hentry', hrefused⟩
    obtain rfl | hother := mem_cons.mp hother
    · rw [hentry] at hentry'
      cases hentry'
      obtain ⟨htaken, -, -⟩ | ⟨-, ⟨e, he⟩, -⟩ := hroute
      · rw [htaken] at hrefused
        cases hrefused
      · exact ⟨e, by rw [he]; exact mem_cons_self⟩
    · obtain ⟨e, he⟩ := h.refused ⟨other, hother, entry', hentry', by
        rw [htakes _ (hne _ (mem_map_of_mem hother))]
        exact hrefused⟩
      exact ⟨e, mem_cons_of_mem _ he⟩
  · intro hpanic
    obtain hpanic | hpanic := mem_cons.mp hpanic
    · obtain ⟨-, hanswer, -⟩ | ⟨-, ⟨e, he⟩, -⟩ := hroute
      · rw [hanswer] at hpanic
        cases hpanic
      · rw [he] at hpanic
        cases hpanic
    · exact h.noPanic hpanic
  · intro did uid hdid
    have hfirst : did ≠ pair.1 := fun heq => hdid (by rw [heq]; exact mem_cons_self)
    rw [h.others did uid (fun hmem => hdid (mem_cons_of_mem _ hmem)), hothers did hfirst]
  · intro did uid hdid hupdated
    obtain rfl | hdid := mem_cons.mp hdid
    · obtain ⟨htaken, hmem⟩ := (hself uid).mp hupdated
      rw [h.others _ uid hnotMem]
      obtain ⟨-, -, hmessages⟩ | ⟨hrefused, -, -⟩ := hroute
      · rw [hmessages, if_pos ⟨rfl, hmem⟩]
      · rw [htaken] at hrefused
        cases hrefused
    · rw [h.updated did uid hdid ((hupdates did hdid uid).mpr hupdated),
        hothers did (hne did hdid)]
  · intro did uid hdid hnot
    obtain rfl | hdid := mem_cons.mp hdid
    · rw [h.others _ uid hnotMem]
      obtain ⟨htaken, -, hmessages⟩ | ⟨-, -, hmessages⟩ := hroute
      · rw [hmessages, if_neg]
        rintro ⟨-, hmem⟩
        exact hnot ((hself uid).mpr ⟨htaken, hmem⟩)
      · exact hmessages _ uid
    · rw [h.kept did uid hdid (fun hupdated => hnot ((hupdates did hdid uid).mp hupdated)),
        hothers did (hne did hdid)]

theorem routeAll_distributed {msg : UpdateMessageStatusByConnections}
    {pairs : List (String × String)} (h : s.Linked) (hnodup : (pairs.map Prod.fst).Nodup)
    (hrecords : ∀ pair ∈ pairs, ∃ record, s.wallet.pairwise.lookup pair.1 = some record ∧
      record.myDid = pair.2) :
    s.Distributed msg pairs (routeAll crates protocol (updateTargets msg pairs) s).1
      (routeAll crates protocol (updateTargets msg pairs) s).2 := by
  induction pairs generalizing s with
  | nil =>
    refine ⟨fun _ => rfl, ?_, not_mem_nil, fun _ _ _ => rfl, ?_, fun _ _ _ _ => rfl⟩
    · rintro ⟨pair, hpair, -⟩
      cases hpair
    · intro did uid hdid
      cases hdid
  | cons pair pairs ih =>
    rw [map_cons, nodup_cons] at hnodup
    obtain ⟨hnotMem, hnodup⟩ := hnodup
    obtain ⟨⟨record, hrecord, hmine⟩, hrecords⟩ := forall_mem_cons.mp hrecords
    cases hentry : msg.entry pair.1 with
    | none =>
      rw [updateTargets_none hentry]
      exact (ih h hnodup hrecords).skip hentry hnotMem
    | some entry =>
      rw [updateTargets_some hentry]
      refine Distributed.cons h hrecord hmine hentry hnotMem ?_
      refine ih (h.of_extends (routeA2connMsg_extends s _ _)) hnodup ?_
      intro other hother
      rw [(routeA2connMsg_frame s _ _).1]
      exact hrecords other hother

/-! ### The answer -/

/-- The wallet cannot be listed, or it is listed with each record once. -/
theorem getPairwiseList_cases (s : CloudAgent) (world : AgentWorld) :
    ((world.succeeds .listPairwise = false ∨
        ∃ did record, s.wallet.pairwise.lookup did = some record ∧ record.metadata = none) ∧
      ∃ e, s.getPairwiseList crates world = .err e) ∨
    (¬ (world.succeeds .listPairwise = false ∨
        ∃ did record, s.wallet.pairwise.lookup did = some record ∧ record.metadata = none) ∧
      ∃ pairs, s.getPairwiseList crates world = .ok pairs ∧ (pairs.map Prod.fst).Nodup ∧
        (∀ pair ∈ pairs, ∃ record, s.wallet.pairwise.lookup pair.1 = some record ∧
          record.myDid = pair.2) ∧
        ∀ did, (s.wallet.pairwise.lookup did).isSome → did ∈ pairs.map Prod.fst) := by
  have hmem : ∀ did record, (did, record) ∈ crates.order.order s.wallet.pairwise.toPairs ↔
      s.wallet.pairwise.lookup did = some record := by
    intro did record
    rw [crates.order.mem_order, AssocMap.mem_toPairs]
  unfold getPairwiseList
  cases hcall : world.succeeds .listPairwise with
  | false =>
    rw [attempt_of_fails hcall]
    exact .inl ⟨.inl rfl, _, rfl⟩
  | true =>
    rw [attempt_of_succeeds hcall, ok_bind]
    dsimp only
    by_cases hall : ((crates.order.order s.wallet.pairwise.toPairs).all fun record =>
        record.2.metadata.isSome) = true
    · rw [if_pos hall]
      rw [all_eq_true] at hall
      refine .inr ⟨?_, _, rfl, ?_, ?_, ?_⟩
      · rintro (hfailed | ⟨did, record, hrecord, hnone⟩)
        · cases hfailed
        · have hsome := hall _ ((hmem did record).mpr hrecord)
          dsimp only at hsome
          rw [hnone] at hsome
          cases hsome
      · rw [map_map]
        have hkeys : (s.wallet.pairwise.toPairs.map Prod.fst).Nodup := by
          have hnodup := s.wallet.pairwise.nodupKeys
          rw [AssocMap.toPairs, map_map]
          exact hnodup
        exact ((crates.order.perm _).map _).nodup_iff.mpr hkeys
      · intro pair hpair
        obtain ⟨⟨did, record⟩, hrecord, rfl⟩ := mem_map.mp hpair
        exact ⟨record, (hmem did record).mp hrecord, rfl⟩
      · intro did hsome
        obtain ⟨record, hrecord⟩ := Option.isSome_iff_exists.mp hsome
        rw [map_map]
        exact mem_map.mpr ⟨(did, record), (hmem did record).mpr hrecord, rfl⟩
    · rw [if_neg hall]
      refine .inl ⟨.inr ?_, _, rfl⟩
      rw [all_eq_true] at hall
      push Not at hall
      obtain ⟨⟨did, record⟩, hrecord, hnone⟩ := hall
      exact ⟨did, record, (hmem did record).mp hrecord, Option.not_isSome_iff_eq_none.mp hnone⟩

theorem count_updated {msg : UpdateMessageStatusByConnections} {pairs : List (String × String)}
    (hnodup : (pairs.map Prod.fst).Nodup) (did uid : String) :
    (MessageStatusUpdatedByConnections.updated ⟨pairs.filterMap fun pair =>
      (msg.entry pair.1).map fun entry => ⟨entry.uids, pair.1⟩, []⟩).count (did, uid) =
      if did ∈ pairs.map Prod.fst then
        ((msg.entry did).map fun entry => entry.uids.count uid).getD 0
      else 0 := by
  unfold MessageStatusUpdatedByConnections.updated
  dsimp only
  induction pairs with
  | nil => rfl
  | cons pair pairs ih =>
    rw [map_cons, nodup_cons] at hnodup
    have hrest := ih hnodup.2
    by_cases hdid : did = pair.1
    · rw [if_neg (by rw [hdid]; exact hnodup.1)] at hrest
      rw [if_pos (by rw [hdid]; exact mem_cons_self), filterMap_cons, ← hdid]
      cases msg.entry did with
      | none => exact hrest
      | some entry =>
        dsimp only [Option.map_some]
        rw [flatMap_cons, count_append, hrest,
          count_map_of_injective _ _ (fun _ _ h => (Prod.mk.inj h).2)]
        rfl
    · have hmem : did ∈ (pair :: pairs).map Prod.fst ↔ did ∈ pairs.map Prod.fst := by
        rw [map_cons, mem_cons, or_iff_right hdid]
      rw [if_congr hmem rfl rfl, ← hrest, filterMap_cons]
      cases msg.entry pair.1 with
      | none => rfl
      | some entry =>
        dsimp only [Option.map_some]
        rw [flatMap_cons, count_append, count_eq_zero_of_not_mem, Nat.zero_add]
        intro hcontained
        obtain ⟨_, _, heq⟩ := mem_map.mp hcontained
        exact hdid (Prod.mk.inj heq).1.symm

theorem Updates.statusChanged {msg : UpdateMessageStatusByConnections} {uid : String}
    (h : s.Updates msg did uid)
    (hupdated : s'.messageAt did uid = (s.messageAt did uid).map fun message =>
      { message with statusCode := msg.statusCode }) : s.StatusChanged s' did uid := by
  obtain ⟨entry, -, htakes, hmem⟩ := h
  rw [takes, Bool.and_eq_true, all_eq_true] at htakes
  have hupdatable := htakes.2 uid hmem
  rw [isUpdatable, Option.any_eq_true] at hupdatable
  obtain ⟨message, hmessage, hboth⟩ := hupdatable
  obtain ⟨hreceived, hcode⟩ := of_decide_eq_true hboth
  rw [StatusChanged, hupdated, hmessage]
  dsimp only [Option.map_some]
  rw [hreceived]
  intro hsame
  rw [Option.some.inj hsame] at hcode
  revert hcode
  decide

theorem joinAll_of_err {answers : List (AgentResult A2ConnMessage)} {e : String}
    (herr : .err e ∈ answers) (hpanic : .panic ∉ answers) : ∃ e, joinAll answers = .err e := by
  unfold joinAll
  cases hanswers : answers.mapM id with
  | ok results =>
    rw [mapM_eq_ok_iff, map_id] at hanswers
    rw [hanswers] at herr
    obtain ⟨_, _, heq⟩ := mem_map.mp herr
    cases heq
  | err e => exact ⟨_, rfl⟩
  | panic =>
    obtain ⟨before, x, after, rfl, -, hx⟩ := mapM_eq_panic_iff.mp hanswers
    have hx' : x = .panic := hx
    rw [hx'] at hpanic
    exact absurd (mem_append_right _ mem_cons_self) hpanic

theorem joinAll_of_ok {entries : List UidByConnection} :
    messageStatusUpdatedByConnections (joinAll (entries.map fun entry =>
      .ok (.messageStatusUpdatedByConnection entry))) = .ok ⟨entries, []⟩ := by
  have hanswers : (entries.map fun entry =>
      (.ok (.messageStatusUpdatedByConnection entry) : AgentResult A2ConnMessage)).mapM id =
        .ok (entries.map .messageStatusUpdatedByConnection) := by
    rw [mapM_eq_ok_iff, map_id, map_map]
    rfl
  have huids : (entries.map A2ConnMessage.messageStatusUpdatedByConnection).mapM
      uidByConnection = .ok entries := by
    rw [mapM_eq_ok_iff, map_map]
    rfl
  rw [joinAll, hanswers]
  dsimp only
  rw [messageStatusUpdatedByConnections, ok_bind, huids]
  rfl

variable {msg : UpdateMessageStatusByConnections} {pairs : List (String × String)}
  {answers : List (AgentResult A2ConnMessage)}

/-- All connections take their updates: what is reported is right, and it is to be complete. -/
theorem Distributed.reported_iff (h : s.Distributed msg pairs answers s')
    (hnodup : (pairs.map Prod.fst).Nodup)
    (hknown : ∀ did, did ∈ pairs.map Prod.fst ↔ (s.wallet.pairwise.lookup did).isSome)
    (htaken : ∀ pair ∈ pairs, ∀ entry, msg.entry pair.1 = some entry →
      s.takes msg.statusCode pair.1 entry.uids = true) :
    s.BulkReported msg (messageStatusUpdatedByConnections (joinAll answers)) s' ↔
      ∀ did uid, msg.Requests did uid → (s.wallet.pairwise.lookup did).isSome ∧
        ∃ entry, msg.entry did = some entry ∧ entry.uids.count uid = 1 := by
  rw [h.taken htaken, joinAll_of_ok, BulkReported]
  have hreports : ∀ did uid, MessageStatusUpdatedByConnections.reports ⟨pairs.filterMap fun pair =>
      (msg.entry pair.1).map fun entry => ⟨entry.uids, pair.1⟩, []⟩ did uid = 1 ↔
        (s.wallet.pairwise.lookup did).isSome ∧
          ∃ entry, msg.entry did = some entry ∧ entry.uids.count uid = 1 := by
    intro did uid
    unfold MessageStatusUpdatedByConnections.reports
    rw [count_updated hnodup, countP_nil, Nat.add_zero, ← hknown]
    by_cases hdid : did ∈ pairs.map Prod.fst
    · rw [if_pos hdid, and_iff_right hdid]
      cases msg.entry did with
      | none =>
        refine iff_of_false Nat.zero_ne_one ?_
        rintro ⟨entry, hentry, -⟩
        cases hentry
      | some entry =>
        constructor
        · intro hcount
          exact ⟨entry, rfl, hcount⟩
        · rintro ⟨other, hother, hcount⟩
          cases hother
          exact hcount
    · rw [if_neg hdid]
      exact iff_of_false Nat.zero_ne_one fun hboth => hdid hboth.1
  constructor
  · rintro ⟨hall, -⟩ did uid hrequested
    exact (hreports did uid).mp (hall did uid hrequested).1
  · intro hcomplete
    have hchanged : ∀ did uid, msg.Requests did uid → s.StatusChanged s' did uid := by
      intro did uid hrequested
      obtain ⟨hsome, entry, hentry, hcount⟩ := hcomplete did uid hrequested
      have hdid := (hknown did).mpr hsome
      obtain ⟨pair, hpair, rfl⟩ := mem_map.mp hdid
      have hupdates : s.Updates msg pair.1 uid := by
        refine ⟨entry, hentry, htaken pair hpair entry hentry, ?_⟩
        rw [← count_pos_iff, hcount]
        exact Nat.one_pos
      exact hupdates.statusChanged (h.updated _ uid hdid hupdates)
    refine ⟨?_, fun did => .inl (hchanged did)⟩
    intro did uid hrequested
    have hone := (hreports did uid).mpr (hcomplete did uid hrequested)
    refine ⟨hone, ?_, ?_⟩
    · refine iff_of_true ?_ (hchanged did uid hrequested)
      rw [MessageStatusUpdatedByConnections.reports, countP_nil, Nat.add_zero] at hone
      rw [← count_pos_iff, hone]
      exact Nat.one_pos
    · refine iff_of_false ?_ (not_not.mpr (hchanged did uid hrequested))
      rintro ⟨info, hinfo, -⟩
      cases hinfo

theorem Distributed.unchanged_iff (h : s.Distributed msg pairs answers s')
    (hknown : ∀ did, did ∈ pairs.map Prod.fst ↔ (s.wallet.pairwise.lookup did).isSome) :
    (∀ did uid, s'.messageAt did uid = s.messageAt did uid) ↔
      ∀ did entry, (s.wallet.pairwise.lookup did).isSome → msg.entry did = some entry →
        s.takes msg.statusCode did entry.uids = true → entry.uids = [] := by
  constructor
  · intro hsame did entry hsome hentry htakes
    rw [eq_nil_iff_forall_not_mem]
    intro uid hmem
    have hupdates : s.Updates msg did uid := ⟨entry, hentry, htakes, hmem⟩
    refine hupdates.statusChanged (h.updated did uid ((hknown did).mpr hsome) hupdates) ?_
    rw [hsame]
  · intro hempty did uid
    by_cases hdid : did ∈ pairs.map Prod.fst
    · refine h.kept did uid hdid ?_
      rintro ⟨entry, hentry, htakes, hmem⟩
      rw [hempty did entry ((hknown did).mp hdid) hentry htakes] at hmem
      cases hmem
    · exact h.others did uid hdid

theorem bulkReported_iff (h : s.Linked) (world : AgentWorld)
    (msg : UpdateMessageStatusByConnections) :
    s.BulkReported msg (messageStatusUpdatedByConnections
        (s.handleUpdateMessagesByConnections crates protocol world msg).1)
      (s.handleUpdateMessagesByConnections crates protocol world msg).2 ↔ s.Uniform world msg := by
  unfold handleUpdateMessagesByConnections Uniform
  obtain ⟨hunlisted, e, hlist⟩ | ⟨hlisted, pairs, hlist, hnodup, hrecords, hcomplete⟩ :=
    @getPairwiseList_cases crates s world
  · rw [hlist]
    exact iff_of_true (fun _ _ => rfl) (.inl hunlisted)
  · rw [hlist]
    have hknown : ∀ did, did ∈ pairs.map Prod.fst ↔ (s.wallet.pairwise.lookup did).isSome := by
      intro did
      refine ⟨?_, hcomplete did⟩
      intro hdid
      obtain ⟨pair, hpair, rfl⟩ := mem_map.mp hdid
      obtain ⟨record, hrecord, -⟩ := hrecords pair hpair
      rw [hrecord]
      rfl
    have hsent : s.Distributed msg pairs (routeAll crates protocol (updateTargets msg pairs) s).1
      (routeAll crates protocol (updateTargets msg pairs) s).2 := routeAll_distributed h hnodup
        hrecords
    change s.BulkReported msg (messageStatusUpdatedByConnections
      (joinAll (routeAll crates protocol (updateTargets msg pairs) s).1))
        (routeAll crates protocol (updateTargets msg pairs) s).2 ↔ _
    rw [or_iff_right hlisted]
    by_cases hall : ∀ did entry, (s.wallet.pairwise.lookup did).isSome →
        msg.entry did = some entry → s.takes msg.statusCode did entry.uids = true
    · have htaken : ∀ pair ∈ pairs, ∀ entry, msg.entry pair.1 = some entry →
          s.takes msg.statusCode pair.1 entry.uids = true := by
        intro pair hpair entry hentry
        exact hall pair.1 entry ((hknown pair.1).mp (mem_map_of_mem hpair)) hentry
      rw [hsent.reported_iff hnodup hknown htaken]
      constructor
      · intro hreported
        exact .inl ⟨hall, hreported⟩
      · rintro (⟨-, hreported⟩ | ⟨⟨did, entry, hsome, hentry, hrefused⟩, -⟩)
        · exact hreported
        · rw [hall did entry hsome hentry] at hrefused
          cases hrefused
    · push Not at hall
      obtain ⟨did, entry, hsome, hentry, hnot⟩ := hall
      have hrefused := Bool.eq_false_iff.mpr hnot
      obtain ⟨pair, hpair, rfl⟩ := mem_map.mp ((hknown did).mpr hsome)
      obtain ⟨e, herr⟩ := hsent.refused ⟨pair, hpair, entry, hentry, hrefused⟩
      obtain ⟨e', hjoined⟩ := joinAll_of_err herr hsent.noPanic
      rw [hjoined]
      refine (hsent.unchanged_iff hknown).trans ?_
      constructor
      · intro hempty
        exact .inr ⟨⟨pair.1, entry, hsome, hentry, hrefused⟩, hempty⟩
      · rintro (⟨htaken, -⟩ | ⟨-, hempty⟩)
        · exact absurd (htaken pair.1 entry hsome hentry) hnot
        · exact hempty

/-- In every run a request is answered as it should be exactly when it asks for something that the
connections agree on, once for each message. -/
theorem bulkStatusUpdate_iff (crates : ConnectionCrates) (protocol : ProtocolTypes)
    (theirDid theirVerkey myDid myVerkey : String) (forwardAgentDetail : ForwardAgentDetail)
    (events : List CloudEvent) (world : AgentWorld) (msg : UpdateMessageStatusByConnections) :
    ((restartableAgent crates protocol).run events
      (connected theirDid theirVerkey myDid myVerkey forwardAgentDetail)).BulkReported msg
        (messageStatusUpdatedByConnections (((restartableAgent crates protocol).run events
          (connected theirDid theirVerkey myDid myVerkey
            forwardAgentDetail)).handleUpdateMessagesByConnections crates protocol world msg).1)
        (((restartableAgent crates protocol).run events
          (connected theirDid theirVerkey myDid myVerkey
            forwardAgentDetail)).handleUpdateMessagesByConnections crates protocol world msg).2 ↔
      ((restartableAgent crates protocol).run events
        (connected theirDid theirVerkey myDid myVerkey forwardAgentDetail)).Uniform world msg :=
  bulkReported_iff (run_linked crates protocol events (linked_of_no_records rfl)) world msg

def unknownUpdate : UpdateMessageStatusByConnections := ⟨.reviewed, [⟨["uid"], "unknown"⟩]⟩

/-- A message of a DID that is not known is not reported at all. -/
theorem unknownDid_unreported :
    ¬ exampleOwner.BulkReported unknownUpdate
      (messageStatusUpdatedByConnections
        (exampleOwner.handleUpdateMessagesByConnections exampleCrates .V1 {} unknownUpdate).1)
      (exampleOwner.handleUpdateMessagesByConnections exampleCrates .V1 {} unknownUpdate).2 := by
  rintro ⟨hall, -⟩
  obtain ⟨hone, -⟩ := hall "unknown" "uid" ⟨_, mem_cons_self, rfl, mem_cons_self⟩
  cases hone

end CloudAgent

end IndySdk.Agency
