import IndySdk.Lockstep
import IndySdk.RequestMachine

/-!
# What a step of a request can do

One lemma for the single and one for the consensus state says what a step acknowledges and which
votes it leaves, by the event it is given. Runs are runs of `requestMachine`.
-/

namespace IndySdk.Pool

/-- The request machine fed with events; after a panic there is no machine. -/
def requestMachine (crates : Crates) :
    Machine (Option RequestSM) (World × RequestEvent) (Option Output) where
  step input
    | none => (none, none)
    | some sm =>
      match sm.handleEvent crates input.1 input.2 with
      | .ok (sm, output) => (some output, some sm)
      | _ => (none, none)

/-- The kinds of messages that are votes on a result. -/
inductive OpType where
  | reply
  | reqNACK
  | reject
  deriving DecidableEq, Repr

/-- The vote that an event carries: its kind, its raw message and the node that sent it. -/
def RequestEvent.vote : RequestEvent → Option (OpType × String × String)
  | .reply _ rawMsg nodeAlias _ => some (.reply, rawMsg, nodeAlias)
  | .reqNACK _ rawMsg nodeAlias _ => some (.reqNACK, rawMsg, nodeAlias)
  | .reject _ rawMsg nodeAlias _ => some (.reject, rawMsg, nodeAlias)
  | _ => none

/-- The result of a message without what differs from node to node. -/
def resultOf (crates : Crates) (rawMsg : String) : Option Json :=
  match getMsgResultWithoutStateProof crates rawMsg with
  | .ok (_, resultWithoutProof) => some resultWithoutProof
  | _ => none

/-- A command is acknowledged as successful with the message. -/
def Output.Delivers (output : Output) (msg : String) : Prop :=
  ∃ id, Command.submitAck id (.ok msg) ∈ output.commands

/-- No command is acknowledged as successful. -/
def Output.Silent (output : Output) : Prop := ∀ msg, ¬ output.Delivers msg

variable {crates : Crates} {world : World} {sm : RequestSM} {event : RequestEvent} {output : Output}
  {cmdIds : List ℤ}

theorem handleEvent_ok {world : World} {sm sm' : RequestSM}
    (h : sm.handleEvent crates world event = .ok (sm', output)) :
    ∃ state, sm.stateStep crates world event = .ok (state, output) ∧
      sm' = { sm with state := state } := by
  obtain ⟨⟨state, out⟩, hstep, h⟩ := Outcome.bind_eq_ok_iff.mp h
  cases h
  exact ⟨state, hstep, rfl⟩

theorem requestMachine_step_some {s : Option RequestSM} {input : World × RequestEvent}
    (h : ((requestMachine crates).step input s).1 = some output) :
    ∃ sm state, s = some sm ∧ sm.stateStep crates input.1 input.2 = .ok (state, output) ∧
      ((requestMachine crates).step input s).2 = some { sm with state := state } := by
  cases s with
  | none => cases h
  | some sm =>
    simp only [requestMachine] at h ⊢
    cases hs : sm.handleEvent crates input.1 input.2 with
    | ok result =>
      obtain ⟨sm', out⟩ := result
      rw [hs] at h
      cases h
      obtain ⟨state, hstep, rfl⟩ := handleEvent_ok hs
      exact ⟨sm, state, rfl, hstep, rfl⟩
    | err e => cases e
    | panic =>
      rw [hs] at h
      cases h

theorem requestMachine_step_cases (s : Option RequestSM) (input : World × RequestEvent) :
    (∃ output, ((requestMachine crates).step input s).1 = some output) ∨
      (requestMachine crates).step input s = (none, none) := by
  cases s with
  | none => exact .inr rfl
  | some sm =>
    simp only [requestMachine]
    cases hs : sm.handleEvent crates input.1 input.2 with
    | ok result => exact .inl ⟨result.2, rfl⟩
    | err e => cases e
    | panic => exact .inr rfl

theorem silent_of_error {e : IndyError} (h : output.commands = sendReplies cmdIds (.error e)) :
    output.Silent := by
  rintro msg ⟨id, hmem⟩
  rw [h, sendReplies, List.mem_map] at hmem
  obtain ⟨id', -, he⟩ := hmem
  cases he

theorem silent_of_nil (h : output.commands = []) : output.Silent := by
  rintro msg ⟨id, hmem⟩
  rw [h] at hmem
  exact absurd hmem List.not_mem_nil

theorem eq_of_delivers {msg msg' : String} (h : output.commands = sendOkReplies cmdIds msg)
    (hd : output.Delivers msg') : msg' = msg := by
  obtain ⟨id, hmem⟩ := hd
  rw [h, sendOkReplies, sendReplies, List.mem_map] at hmem
  obtain ⟨id', -, he⟩ := hmem
  cases he
  rfl

/-- The votes for a result after one more of them. -/
def ConsensusState.votesWith (state : ConsensusState) (result : Json) (nodeAlias : String) :
    Finset String :=
  insert nodeAlias ((state.replies.lookup result).getD ∅)

/-- A vote is counted: it completes agreement and is delivered, or is one vote more. -/
def ConsensusVoted (crates : Crates) (sm : RequestSM) (state : ConsensusState)
    (rawMsg nodeAlias : String) (next : RequestState) (output : Output) : Prop :=
  ∃ result, resultOf crates rawMsg = some result ∧
    ((sm.f < (state.votesWith result nodeAlias).card ∧ next = .finish ∧
        output.commands = sendOkReplies sm.cmdIds rawMsg) ∨
      (output.Silent ∧ (next = .finish ∨ ∃ state', next = .consensus state' ∧
        state'.replies = state.replies.insert result (state.votesWith result nodeAlias))))

/-- The votes stay, and nothing is delivered. -/
def ConsensusKept (state : ConsensusState) (next : RequestState) (output : Output) : Prop :=
  output.Silent ∧ (next = .finish ∨ ∃ state', next = .consensus state' ∧
    state'.replies = state.replies)

variable {nodeAlias reqId : String} {next : RequestState}

theorem consensusReply_ok {state : ConsensusState} {rawMsg : String}
    (h : sm.consensusReply crates world state rawMsg nodeAlias reqId = .ok (next, output)) :
    ConsensusVoted crates sm state rawMsg nodeAlias next output ∨
      ConsensusKept state next output := by
  rw [RequestSM.consensusReply] at h
  cases hr : getMsgResultWithoutStateProof crates rawMsg with
  | ok results =>
    obtain ⟨msgResult, result⟩ := results
    have hresult : resultOf crates rawMsg = some result := by rw [resultOf, hr]
    rw [hr] at h
    simp only at h
    refine .inl ⟨result, hresult, ?_⟩
    by_cases hf : sm.f < (state.votesWith result nodeAlias).card
    · rw [ConsensusState.votesWith] at hf
      rw [if_pos hf] at h
      cases h
      exact .inl ⟨hf, rfl, rfl⟩
    · right
      rw [ConsensusState.votesWith] at hf
      rw [if_neg hf] at h
      obtain ⟨reachable, -, h⟩ := Outcome.bind_eq_ok_iff.mp h
      cases reachable with
      | true =>
        cases h
        exact ⟨silent_of_nil rfl, .inr ⟨_, rfl, rfl⟩⟩
      | false =>
        cases h
        exact ⟨silent_of_error rfl, .inl rfl⟩
  | err e =>
    rw [hr] at h
    simp only at h
    right
    split_ifs at h with hall
    · cases h
      exact ⟨silent_of_error rfl, .inl rfl⟩
    · cases h
      exact ⟨silent_of_nil rfl, .inr ⟨_, rfl, rfl⟩⟩
  | panic =>
    rw [hr] at h
    cases h

theorem consensusStep_ok {state : ConsensusState}
    (h : sm.consensusStep crates world state event = .ok (next, output)) :
    (∃ op rawMsg nodeAlias, event.vote = some (op, rawMsg, nodeAlias) ∧
      ConsensusVoted crates sm state rawMsg nodeAlias next output) ∨
      ConsensusKept state next output := by
  cases event with
  | reply rep rawMsg nodeAlias reqId =>
    exact (consensusReply_ok h).imp_left (fun hv => ⟨.reply, rawMsg, nodeAlias, rfl, hv⟩)
  | reqNACK rep rawMsg nodeAlias reqId =>
    exact (consensusReply_ok h).imp_left (fun hv => ⟨.reqNACK, rawMsg, nodeAlias, rfl, hv⟩)
  | reject rep rawMsg nodeAlias reqId =>
    exact (consensusReply_ok h).imp_left (fun hv => ⟨.reject, rawMsg, nodeAlias, rfl, hv⟩)
  | timeout reqId nodeAlias =>
    obtain ⟨reachable, -, h⟩ := Outcome.bind_eq_ok_iff.mp h
    right
    cases reachable with
    | true =>
      cases h
      exact ⟨silent_of_nil rfl, .inr ⟨_, rfl, rfl⟩⟩
    | false =>
      cases h
      exact ⟨silent_of_error rfl, .inl rfl⟩
  | terminate =>
    cases h
    exact .inr ⟨silent_of_error rfl, .inl rfl⟩
  | _ =>
    cases h
    exact .inr ⟨silent_of_nil rfl, .inr ⟨state, rfl, rfl⟩⟩

/-- The responses with a result after one more of them. -/
def SingleState.responsesWith (state : SingleState) (result : Json) (resp : NodeResponse) :
    NodeResponses :=
  NodeResponses.insertNew ((state.replies.lookup result).getD ∅) resp

/-- What a response leads to: agreement, acceptance for its own proof, or one response more. -/
inductive SingleAnswered (crates : Crates) (world : World) (sm : RequestSM) (state : SingleState)
    (rawMsg nodeAlias : String) (next : RequestState) (output : Output) : Prop where
  | agreed (msgResult result : Json) (signedTime : Option ℕ)
    (hresult : getMsgResultWithoutStateProof crates rawMsg = .ok (msgResult, result))
    (htime : getLastSignedTime crates rawMsg = .ok signedTime)
    (hcount : sm.f < (state.responsesWith result
      ⟨rawMsg, nodeAlias, signedTime.getD 0⟩).keys.length)
    (hcommands : output.commands = sendOkReplies sm.cmdIds (RequestSM.soonest world
      (state.responsesWith result ⟨rawMsg, nodeAlias, signedTime.getD 0⟩) rawMsg))
    (hnext : next = .finish)
  | alone (msgResult result : Json) (signedTime : Option ℕ)
    (hresult : getMsgResultWithoutStateProof crates rawMsg = .ok (msgResult, result))
    (htime : getLastSignedTime crates rawMsg = .ok signedTime)
    (hcount : (state.responsesWith result
      ⟨rawMsg, nodeAlias, signedTime.getD 0⟩).keys.length ≤ sm.f)
    (haccepted : sm.acceptedAlone crates world msgResult (signedTime.getD 0) rawMsg = .ok true)
    (hcommands : output.commands = sendOkReplies sm.cmdIds rawMsg)
    (hnext : next = .finish)
  | kept (msgResult result : Json) (signedTime : Option ℕ)
    (hresult : getMsgResultWithoutStateProof crates rawMsg = .ok (msgResult, result))
    (hsilent : output.Silent)
    (hnext : next = .finish ∨ ∃ state', next = .single state' ∧ state'.replies =
      state.replies.insert result
        (state.responsesWith result ⟨rawMsg, nodeAlias, signedTime.getD 0⟩))

/-- The responses stay, and nothing is delivered. -/
def SingleKept (state : SingleState) (next : RequestState) (output : Output) : Prop :=
  output.Silent ∧ (next = .finish ∨ ∃ state', next = .single state' ∧
    state'.replies = state.replies)

variable {state : SingleState}

theorem tryToContinue_kept {nodesCnt : ℕ} {timeout : ℤ}
    (h : state.tryToContinue reqId nodeAlias cmdIds nodesCnt timeout = (next, output)) :
    SingleKept state next output := by
  rw [SingleState.tryToContinue] at h
  split_ifs at h with hreachable
  · cases h
    exact ⟨silent_of_nil rfl, .inr ⟨state, rfl, rfl⟩⟩
  · cases h
    exact ⟨silent_of_error rfl, .inl rfl⟩

theorem singleReply_ok {rawMsg : String}
    (h : sm.singleReply crates world state rawMsg nodeAlias reqId = .ok (next, output)) :
    SingleAnswered crates world sm state rawMsg nodeAlias next output ∨
      SingleKept state next output := by
  rw [RequestSM.singleReply] at h
  cases hr : getMsgResultWithoutStateProof crates rawMsg with
  | ok results =>
    obtain ⟨msgResult, result⟩ := results
    rw [hr] at h
    simp only at h
    obtain ⟨signedTime, htime, h⟩ := Outcome.bind_eq_ok_iff.mp h
    left
    by_cases hf : sm.f <
        (state.responsesWith result ⟨rawMsg, nodeAlias, signedTime.getD 0⟩).keys.length
    · have hf' := hf
      rw [SingleState.responsesWith] at hf'
      rw [if_pos hf'] at h
      cases h
      exact .agreed msgResult result signedTime hr htime hf rfl rfl
    · have hf' := hf
      rw [SingleState.responsesWith] at hf'
      rw [if_neg hf'] at h
      obtain ⟨accepted, haccepted, h⟩ := Outcome.bind_eq_ok_iff.mp h
      cases accepted with
      | true =>
        cases h
        exact .alone msgResult result signedTime hr htime (not_lt.mp hf) haccepted rfl rfl
      | false =>
        obtain ⟨hsilent, hnext⟩ := tryToContinue_kept (Outcome.ok.inj h)
        exact .kept msgResult result signedTime hr hsilent hnext
  | err e =>
    rw [hr] at h
    obtain ⟨hsilent, hnext⟩ := tryToContinue_kept (Outcome.ok.inj h)
    exact .inr ⟨hsilent, hnext⟩
  | panic =>
    rw [hr] at h
    cases h

theorem singleStep_ok (h : sm.singleStep crates world state event = .ok (next, output)) :
    (∃ op rawMsg nodeAlias, event.vote = some (op, rawMsg, nodeAlias) ∧
      SingleAnswered crates world sm state rawMsg nodeAlias next output) ∨
      SingleKept state next output := by
  cases event with
  | reply rep rawMsg nodeAlias reqId =>
    exact (singleReply_ok h).imp_left (fun ha => ⟨.reply, rawMsg, nodeAlias, rfl, ha⟩)
  | reqNACK rep rawMsg nodeAlias reqId =>
    exact (singleReply_ok h).imp_left (fun ha => ⟨.reqNACK, rawMsg, nodeAlias, rfl, ha⟩)
  | reject rep rawMsg nodeAlias reqId =>
    exact (singleReply_ok h).imp_left (fun ha => ⟨.reject, rawMsg, nodeAlias, rfl, ha⟩)
  | timeout reqId nodeAlias =>
    obtain ⟨hsilent, hnext⟩ := tryToContinue_kept (Outcome.ok.inj h)
    exact .inr ⟨hsilent, hnext⟩
  | terminate =>
    cases h
    exact .inr ⟨silent_of_error rfl, .inl rfl⟩
  | _ =>
    cases h
    exact .inr ⟨silent_of_nil rfl, .inr ⟨state, rfl, rfl⟩⟩

end IndySdk.Pool
