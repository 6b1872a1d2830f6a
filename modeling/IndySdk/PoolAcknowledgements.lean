import IndySdk.PoolMachine
import Mathlib.Algebra.BigOperators.Group.Multiset.Basic

/-!
# Acknowledgements of a pool

Every command of a pool is to be acknowledged once. An active pool owes an acknowledgement for each
unfinished request, a pool that catches up owes one for the command that made it. A request settles
what it owes when it finishes, and a catch-up settles nothing itself.
-/

namespace IndySdk.Pool

open RequestSM Outcome
open Ledger (MerkleTree)

inductive AckKind where
  | openPool
  | refresh
  | submit
  | close
  deriving DecidableEq

/-- A command by its kind and its id. -/
abbrev Ack := AckKind × ℤ

def PoolEvent.due : PoolEvent → Multiset Ack
  | .checkCache cmdId => {(.openPool, cmdId)}
  | .refresh cmdId => {(.refresh, cmdId)}
  | .sendRequest cmdId _ _ _ => {(.submit, cmdId)}
  | .close cmdId => {(.close, cmdId)}
  | _ => 0

def Command.ack : Command → Ack
  | .submitAck cmdId _ => (.submit, cmdId)
  | .openAck cmdId _ _ => (.openPool, cmdId)
  | .refreshAck cmdId _ => (.refresh, cmdId)
  | .closeAck cmdId _ => (.close, cmdId)

def acks (commands : List Command) : Multiset Ack := (commands.map Command.ack : List Ack)

@[simp] theorem acks_nil : acks [] = 0 := rfl

@[simp] theorem acks_cons (command : Command) (commands : List Command) :
    acks (command :: commands) = {command.ack} + acks commands := by
  rw [acks, List.map_cons, ← Multiset.cons_coe, ← Multiset.singleton_add]
  rfl

@[simp] theorem acks_append (first second : List Command) :
    acks (first ++ second) = acks first + acks second := by
  rw [acks, acks, acks, List.map_append, ← Multiset.coe_add]

/-- What a request still has to acknowledge. -/
def RequestSM.owed (sm : RequestSM) : Multiset Ack :=
  if sm.isTerminal then 0 else (sm.cmdIds.map (fun cmdId => (AckKind.submit, cmdId)) : List Ack)

def PoolState.owed : PoolState → Multiset Ack
  | .gettingCatchupTarget _ cmdId refresh => {(if refresh then .refresh else .openPool, cmdId)}
  | .syncCatchup _ cmdId refresh => {(if refresh then .refresh else .openPool, cmdId)}
  | .active requestHandlers _ => (requestHandlers.values.map RequestSM.owed).sum
  | _ => 0

variable {crates : Crates} {world : World} {sm sm' : RequestSM} {event : RequestEvent}
  {output : Output}

theorem acks_sendReplies (cmdIds : List ℤ) (msg : Except IndyError String) :
    acks (sendReplies cmdIds msg) =
      (cmdIds.map (fun cmdId => (AckKind.submit, cmdId)) : List Ack) := by
  rw [acks, sendReplies, List.map_map]
  rfl

/-! ### Requests -/

/-- The states of a request that a command waits for. -/
def RequestState.Asked : RequestState → Prop
  | .single _ => True
  | .consensus _ => True
  | .full _ => True
  | .finish => True
  | _ => False

/-- A request goes on without an answer, or answers all of its commands and is finished. -/
def Answers (cmdIds : List ℤ) (result : RequestState × Output) : Prop :=
  (result.1.Asked ∧ result.1 ≠ .finish ∧ result.2.commands = []) ∨
    (result.1 = .finish ∧ ∃ msg, result.2.commands = sendReplies cmdIds msg)

variable {nodeAlias reqId : String} {result : RequestState × Output}

theorem answers_consensusReply {state : ConsensusState} {rawMsg : String}
    (h : sm.consensusReply crates world state rawMsg nodeAlias reqId = .ok result) :
    Answers sm.cmdIds result := by
  rw [consensusReply] at h
  cases hr : getMsgResultWithoutStateProof crates rawMsg with
  | ok results =>
    rw [hr] at h
    simp only at h
    split_ifs at h
    · cases h
      exact .inr ⟨rfl, _, rfl⟩
    · obtain ⟨reachable, -, h⟩ := bind_eq_ok_iff.mp h
      cases reachable with
      | true =>
        cases h
        exact .inl ⟨trivial, by simp, rfl⟩
      | false =>
        cases h
        exact .inr ⟨rfl, _, rfl⟩
  | err e =>
    rw [hr] at h
    simp only at h
    split_ifs at h
    · cases h
      exact .inr ⟨rfl, _, rfl⟩
    · cases h
      exact .inl ⟨trivial, by simp, rfl⟩
  | panic =>
    rw [hr] at h
    cases h

theorem answers_consensusStep {state : ConsensusState}
    (h : sm.consensusStep crates world state event = .ok result) : Answers sm.cmdIds result := by
  cases event with
  | reply rep rawMsg nodeAlias reqId => exact answers_consensusReply h
  | reqNACK rep rawMsg nodeAlias reqId => exact answers_consensusReply h
  | reject rep rawMsg nodeAlias reqId => exact answers_consensusReply h
  | timeout reqId nodeAlias =>
    obtain ⟨reachable, -, h⟩ := bind_eq_ok_iff.mp h
    cases reachable with
    | true =>
      cases h
      exact .inl ⟨trivial, by simp, rfl⟩
    | false =>
      cases h
      exact .inr ⟨rfl, _, rfl⟩
  | terminate =>
    cases h
    exact .inr ⟨rfl, _, rfl⟩
  | _ =>
    cases h
    exact .inl ⟨trivial, by simp, rfl⟩

theorem answers_tryToContinue (state : SingleState) (reqId nodeAlias : String) (cmdIds : List ℤ)
    (nodesCnt : ℕ) (timeout : ℤ) :
    Answers cmdIds (state.tryToContinue reqId nodeAlias cmdIds nodesCnt timeout) := by
  rw [SingleState.tryToContinue]
  split_ifs
  · exact .inl ⟨trivial, by simp, rfl⟩
  · exact .inr ⟨rfl, _, rfl⟩

theorem answers_singleReply {state : SingleState} {rawMsg : String}
    (h : sm.singleReply crates world state rawMsg nodeAlias reqId = .ok result) :
    Answers sm.cmdIds result := by
  rw [singleReply] at h
  cases hr : getMsgResultWithoutStateProof crates rawMsg with
  | ok results =>
    rw [hr] at h
    simp only at h
    obtain ⟨signedTime, -, h⟩ := bind_eq_ok_iff.mp h
    split_ifs at h
    · cases h
      exact .inr ⟨rfl, _, rfl⟩
    · obtain ⟨accepted, -, h⟩ := bind_eq_ok_iff.mp h
      cases accepted with
      | true =>
        cases h
        exact .inr ⟨rfl, _, rfl⟩
      | false =>
        rw [← Outcome.ok.inj h]
        exact answers_tryToContinue _ _ _ _ _ _
  | err e =>
    rw [hr] at h
    rw [← Outcome.ok.inj h]
    exact answers_tryToContinue _ _ _ _ _ _
  | panic =>
    rw [hr] at h
    cases h

theorem answers_singleStep {state : SingleState}
    (h : sm.singleStep crates world state event = .ok result) : Answers sm.cmdIds result := by
  cases event with
  | reply rep rawMsg nodeAlias reqId => exact answers_singleReply h
  | reqNACK rep rawMsg nodeAlias reqId => exact answers_singleReply h
  | reject rep rawMsg nodeAlias reqId => exact answers_singleReply h
  | timeout reqId nodeAlias =>
    rw [← Outcome.ok.inj h]
    exact answers_tryToContinue _ _ _ _ _ _
  | terminate =>
    cases h
    exact .inr ⟨rfl, _, rfl⟩
  | _ =>
    cases h
    exact .inl ⟨trivial, by simp, rfl⟩

theorem answers_fullReply {state : FullState} {nodeResult : String}
    (h : sm.fullRequestHandleConsensusState crates state reqId nodeAlias nodeResult = .ok result) :
    Answers sm.cmdIds result := by
  obtain ⟨members, -, h⟩ := bind_eq_ok_iff.mp h
  split_ifs at h
  · cases h
    exact .inr ⟨rfl, _, rfl⟩
  · cases h
    exact .inl ⟨trivial, by simp, rfl⟩

theorem answers_fullStep {state : FullState} (h : sm.fullStep crates state event = .ok result) :
    Answers sm.cmdIds result := by
  cases event with
  | reply rep rawMsg nodeAlias reqId => exact answers_fullReply h
  | reqNACK rep rawMsg nodeAlias reqId => exact answers_fullReply h
  | reject rep rawMsg nodeAlias reqId => exact answers_fullReply h
  | timeout reqId nodeAlias => exact answers_fullReply h
  | terminate =>
    cases h
    exact .inr ⟨rfl, _, rfl⟩
  | _ =>
    cases h
    exact .inl ⟨trivial, by simp, rfl⟩

theorem answers_startFull (sm : RequestSM) (msg reqId : String) (localTimeout : Option ℤ)
    (nodesToSend : Option String) :
    Answers sm.cmdIds (sm.startFull crates msg reqId localTimeout nodesToSend) := by
  unfold startFull
  split
  · exact .inl ⟨trivial, by simp, rfl⟩
  · split
    · split_ifs
      · exact .inl ⟨trivial, by simp, rfl⟩
      · exact .inr ⟨rfl, _, rfl⟩
    · exact .inr ⟨rfl, _, rfl⟩

/-- The requests that a command asks for. -/
def RequestEvent.IsRequest : RequestEvent → Prop
  | .customSingleRequest _ _ => True
  | .customConsensusRequest _ _ => True
  | .customFullRequest _ _ _ _ => True
  | _ => False

theorem answers_startStep (hevent : event.IsRequest)
    (h : sm.startStep crates world event = .ok result) : Answers sm.cmdIds result := by
  cases event with
  | customSingleRequest msg reqId =>
    cases h
    exact .inl ⟨trivial, by simp, rfl⟩
  | customConsensusRequest msg reqId =>
    cases h
    exact .inl ⟨trivial, by simp, rfl⟩
  | customFullRequest msg reqId localTimeout nodesToSend =>
    rw [← Outcome.ok.inj h]
    exact answers_startFull sm msg reqId localTimeout nodesToSend
  | _ => exact hevent.elim

theorem owed_of_answers {state : RequestState} (hlive : sm.state ≠ .finish)
    (h : Answers sm.cmdIds (state, output)) :
    state.Asked ∧ sm.owed = acks output.commands + RequestSM.owed { sm with state := state } := by
  have howed : sm.owed = (sm.cmdIds.map (fun cmdId => (AckKind.submit, cmdId)) : List Ack) := by
    rw [RequestSM.owed, if_neg]
    intro hterminal
    apply hlive
    rw [isTerminal] at hterminal
    split at hterminal
    · assumption
    · cases hterminal
  obtain ⟨hasked, hstate, hcommands⟩ | ⟨hstate, msg, hcommands⟩ := h
  · dsimp only at hasked hstate hcommands
    refine ⟨hasked, ?_⟩
    have hnext : RequestSM.owed { sm with state := state } = sm.owed := by
      rw [howed, RequestSM.owed, if_neg]
      cases state with
      | finish => exact absurd rfl hstate
      | _ => simp [isTerminal]
    rw [hcommands, acks_nil, zero_add, hnext]
  · dsimp only at hstate hcommands
    subst hstate
    refine ⟨trivial, ?_⟩
    have hnext : RequestSM.owed { sm with state := .finish } = 0 := if_pos rfl
    rw [hcommands, acks_sendReplies, howed, hnext, add_zero]

theorem asked_step (hasked : sm.state.Asked)
    (h : sm.handleEvent crates world event = .ok (sm', output)) :
    sm'.state.Asked ∧ sm.owed = acks output.commands + sm'.owed := by
  obtain ⟨state, hstep, rfl⟩ := handleEvent_ok h
  rw [stateStep] at hstep
  cases hstate : sm.state with
  | single s =>
    rw [hstate] at hstep
    exact owed_of_answers (by simp [hstate]) (answers_singleStep hstep)
  | consensus s =>
    rw [hstate] at hstep
    exact owed_of_answers (by simp [hstate]) (answers_consensusStep hstep)
  | full s =>
    rw [hstate] at hstep
    exact owed_of_answers (by simp [hstate]) (answers_fullStep hstep)
  | finish =>
    rw [hstate] at hstep
    cases hstep
    refine ⟨trivial, ?_⟩
    simp [RequestSM.owed, isTerminal, hstate]
  | _ =>
    rw [hstate] at hasked
    exact hasked.elim

theorem asked_terminate (hasked : sm.state.Asked)
    (h : sm.handleEvent crates world .terminate = .ok (sm', output)) :
    sm.owed = acks output.commands := by
  have hfinish : sm'.state = .finish := by
    obtain ⟨state, hstep, rfl⟩ := handleEvent_ok h
    rw [stateStep] at hstep
    cases hstate : sm.state with
    | start =>
      rw [hstate] at hasked
      exact hasked.elim
    | _ =>
      rw [hstate] at hstep
      cases hstep
      rfl
  rw [(asked_step hasked h).2]
  simp [RequestSM.owed, isTerminal, hfinish]

/-! ### Catching up -/

/-- A handler that no command waits for: it catches up, or is done with it. -/
structure CatchingUp (sm : RequestSM) : Prop where
  unasked : sm.cmdIds = []
  state : (∃ s, sm.state = .catchupConsensus s) ∨ (∃ s, sm.state = .catchupSingle s) ∨
    sm.state = .finish

/-- Such a handler acknowledges nothing and raises no command. -/
def Quiet (result : RequestState × Output) : Prop :=
  ((∃ s, result.1 = .catchupConsensus s) ∨ (∃ s, result.1 = .catchupSingle s) ∨
    result.1 = .finish) ∧ result.2.commands = [] ∧
    ∀ pe, result.2.poolEvent = some pe → pe.due = 0

theorem quiet_terminate (h : sm.cmdIds = []) : Quiet sm.terminateRequest := by
  refine ⟨.inr (.inr rfl), ?_, by simp [terminateRequest]⟩
  rw [terminateRequest, h]
  rfl

theorem quiet_catchupTarget {state : CatchupConsensusState} {mtRoot : String} {sz : ℕ}
    {consProof : Option (List String)}
    (h : sm.catchupTargetHandleConsensusState crates world state mtRoot sz consProof nodeAlias
      reqId = .ok result) : Quiet result := by
  obtain ⟨⟨finished, raised, state'⟩, hprocess, h⟩ := bind_eq_ok_iff.mp h
  have hraised : ∀ pe, raised = some pe → pe.due = 0 := by
    rw [processCatchupTarget] at hprocess
    dsimp only at hprocess
    intro pe hpe
    subst hpe
    split at hprocess <;> cases hprocess <;> rfl
  dsimp only at h
  split_ifs at h
  · cases h
    exact ⟨.inr (.inr rfl), rfl, hraised⟩
  · split at h
    · cases h
      exact ⟨.inl ⟨_, rfl⟩, rfl, hraised⟩
    · cases h
      exact ⟨.inl ⟨_, rfl⟩, rfl, hraised⟩

theorem quiet_catchupConsensusStep {state : CatchupConsensusState} (hunasked : sm.cmdIds = [])
    (h : sm.catchupConsensusStep crates world state event = .ok result) : Quiet result := by
  unfold catchupConsensusStep at h
  split at h
  · exact quiet_catchupTarget h
  · exact quiet_catchupTarget h
  · exact quiet_catchupTarget h
  · rw [← Outcome.ok.inj h]
    exact quiet_terminate hunasked
  · cases h
    exact ⟨.inl ⟨_, rfl⟩, rfl, by simp⟩

theorem quiet_catchupSingleStep {state : CatchupSingleState} (hunasked : sm.cmdIds = [])
    (h : sm.catchupSingleStep crates world state event = .ok result) : Quiet result := by
  unfold catchupSingleStep at h
  split at h
  · split at h
    · cases h
      refine ⟨.inr (.inr rfl), rfl, ?_⟩
      intro pe hpe
      cases hpe
      rfl
    · cases h
      exact ⟨.inr (.inl ⟨_, rfl⟩), rfl, by simp⟩
    · cases h
  · cases h
    exact ⟨.inr (.inl ⟨_, rfl⟩), rfl, by simp⟩
  · rw [← Outcome.ok.inj h]
    exact quiet_terminate hunasked
  · cases h
    exact ⟨.inr (.inl ⟨_, rfl⟩), rfl, by simp⟩

theorem catchingUp_step (hcatching : CatchingUp sm)
    (h : sm.handleEvent crates world event = .ok (sm', output)) :
    CatchingUp sm' ∧ output.commands = [] ∧ ∀ pe, output.poolEvent = some pe → pe.due = 0 := by
  obtain ⟨state, hstep, rfl⟩ := handleEvent_ok h
  have hquiet : Quiet (state, output) := by
    rw [stateStep] at hstep
    obtain ⟨s, hs⟩ | ⟨s, hs⟩ | hs := hcatching.state
    · rw [hs] at hstep
      exact quiet_catchupConsensusStep hcatching.unasked hstep
    · rw [hs] at hstep
      exact quiet_catchupSingleStep hcatching.unasked hstep
    · rw [hs] at hstep
      cases hstep
      exact ⟨.inr (.inr rfl), rfl, by simp⟩
  exact ⟨⟨hcatching.unasked, hquiet.1⟩, hquiet.2⟩

end IndySdk.Pool
