import IndySdk.Obligations
import IndySdk.PoolAcknowledgements

/-!
# Runs of a pool

A pool keeps or settles what it owes in every step that loses no acknowledgement. The state tells
which events do: most commands while the pool is not active, and for an active pool what ends it or
replaces a request while requests are unfinished.
-/

namespace IndySdk.Pool

open Outcome AssocMap RequestSM Option Machine
open Ledger (MerkleTree)

variable {crates : Crates} {world : World} {event : RequestEvent} {output : Output}

/-! ### Steps -/

def owedBy (requestHandlers : AssocMap String RequestSM) : Multiset Ack :=
  (requestHandlers.values.map owed).sum

def PoolState.Inv : PoolState → Prop
  | .gettingCatchupTarget requestHandler _ _ => CatchingUp requestHandler
  | .syncCatchup requestHandler _ _ => CatchingUp requestHandler
  | .active requestHandlers _ => ∀ handler ∈ requestHandlers.values, handler.state.Asked
  | _ => True

def failed {α : Type} : IndyResult α → Bool
  | .err _ => true
  | _ => false

/-- A ledger whose nodes can be read. -/
def Readable (world : World) (merkle : MerkleTree) : Prop :=
  ¬ failed (world.getNodesAndRemotes merkle)

/-- What a pool that looks for the target of its catch-up must not raise. -/
def TargetKept (world : World) (refresh : Bool) : PoolEvent → Prop
  | .catchupTargetNotFound _ => refresh = false
  | .catchupRestart merkle => Readable world merkle
  | .catchupTargetFound _ _ merkle => Readable world merkle
  | .synced merkle => Readable world merkle
  | _ => True

/-- What a pool that catches up must not raise. -/
def SyncKept (world : World) : PoolEvent → Prop
  | .nodesBlacklisted => False
  | .synced merkle => Readable world merkle
  | _ => True

/-- A refresh can begin. -/
def Refreshable (crates : Crates) (world : World) (pool : PoolSM) : Prop :=
  ¬ failed (pool.getRequestHandlerWithLedgerStatusSent crates world)

def RequestsDone (requestHandlers : AssocMap String RequestSM) : Prop :=
  ∀ handler ∈ requestHandlers.values, handler.isTerminal

/-- No unfinished request stands under the id of a new one. -/
def IdFree (requestHandlers : AssocMap String RequestSM) : MayPanic (Option RequestEvent) → Prop
  | .ok (some event) => ∀ handler ∈ requestHandlers.lookup event.getReqId, handler.isTerminal
  | _ => True

/-- What is raised for an event meets a condition. -/
def Raises (P : PoolEvent → Prop) : MayPanic (RequestSM × Output × PoolEvent) → Prop
  | .ok (_, _, raised) => P raised
  | _ => True

/-- The events that an active pool loses no acknowledgement by. -/
def ActiveKept (crates : Crates) (world : World) (pool : PoolSM)
    (requestHandlers : AssocMap String RequestSM) : PoolEvent → Prop
  | .checkCache _ => False
  | .poolOutdated => RequestsDone requestHandlers
  | .refresh _ => RequestsDone requestHandlers ∧ Refreshable crates world pool
  | .sendRequest cmdId msg localTimeout nodes =>
    IdFree requestHandlers
      (PoolEvent.toRequestEvent crates world (.sendRequest cmdId msg localTimeout nodes))
  | _ => True

def PoolEvent.isSendRequest : PoolEvent → Bool
  | .sendRequest _ _ _ _ => true
  | _ => false

def PoolEvent.isCheckCache : PoolEvent → Bool
  | .checkCache _ => true
  | _ => false

def PoolEvent.isRefresh : PoolEvent → Bool
  | .refresh _ => true
  | _ => false

/-- The events that a pool in a state loses no acknowledgement by. -/
def StateKept (crates : Crates) (world : World) (pool : PoolSM) (pe : PoolEvent) :
    PoolState → Prop
  | .initialization => ¬ pe.isSendRequest ∧ ¬ pe.isRefresh
  | .gettingCatchupTarget handler _ refresh =>
    pe.due = 0 ∧
      Raises (TargetKept world refresh) (PoolSM.raisedEvent crates world handler pe)
  | .syncCatchup handler _ _ =>
    pe.due = 0 ∧ Raises (SyncKept world) (PoolSM.raisedEvent crates world handler pe)
  | .active requestHandlers _ => ActiveKept crates world pool requestHandlers pe
  | .terminated =>
    ¬ pe.isSendRequest ∧ ¬ pe.isCheckCache ∧ (pe.isRefresh → Refreshable crates world pool)
  | .closed => pe.due = 0

def AcksKept (crates : Crates) (world : World) (pool : PoolSM) (pe : PoolEvent) : Prop :=
  StateKept crates world pool pe pool.state

/-- A step that settles or keeps what the pool owes. -/
def Settles (owed due : Multiset Ack) (result : PoolState × Output) : Prop :=
  result.1.Inv ∧ owed + due = acks result.2.commands + result.1.owed

variable {pool : PoolSM} {pe : PoolEvent} {requestHandlers : AssocMap String RequestSM}
  {nodes : Nodes} {result : PoolState × Output} {handler : RequestSM} {cmdId : ℤ} {refresh : Bool}
  {id : String}

theorem catchupHandler_ok {remotes : List RemoteNode}
    (hevent : (∃ ls merkle, event = .ledgerStatus ls none (some merkle)) ∨
      ∃ merkle size root, event = .catchupReq merkle size root)
    (h : pool.catchupHandler crates world nodes remotes event = .ok (handler, output)) :
    CatchingUp handler ∧ output.commands = [] := by
  obtain ⟨start, hnew, h⟩ := bind_eq_ok_iff.mp h
  obtain ⟨fallback, -, hnew⟩ := bind_eq_ok_iff.mp hnew
  cases hnew
  obtain ⟨⟨handler', first⟩, hevented, h⟩ := bind_eq_ok_iff.mp h
  cases h
  obtain ⟨state, hstep, rfl⟩ := handleEvent_ok hevented
  obtain ⟨ls, merkle, rfl⟩ | ⟨merkle, size, root, rfl⟩ := hevent
  · cases hstep
    exact ⟨⟨rfl, .inl ⟨_, rfl⟩⟩, rfl⟩
  · simp only [stateStep, startStep] at hstep
    split at hstep
    · cases hstep
      exact ⟨⟨rfl, .inr (.inl ⟨_, rfl⟩)⟩, rfl⟩
    · cases hstep
      exact ⟨⟨rfl, .inr (.inr rfl)⟩, rfl⟩
    · cases hstep
      exact ⟨⟨rfl, .inr (.inr rfl)⟩, rfl⟩
    · cases hstep

theorem getRequestHandler_ok
    (h : pool.getRequestHandlerWithLedgerStatusSent crates world = .ok (handler, output)) :
    CatchingUp handler ∧ output.commands = [] := by
  obtain ⟨⟨merkle, nodes, remotes⟩, -, h⟩ := bind_eq_ok_iff.mp h
  dsimp only at h
  cases hhandler : pool.catchupHandler crates world nodes remotes
      (.ledgerStatus (ledgerStatusOf crates world merkle) none (some merkle)) with
  | ok made =>
    rw [hhandler] at h
    cases h
    exact catchupHandler_ok (.inl ⟨_, _, rfl⟩) hhandler
  | err e => exact e.elim
  | panic =>
    rw [hhandler] at h
    cases h

theorem initializationStep_settles (hkept : ¬ pe.isSendRequest ∧ ¬ pe.isRefresh)
    (h : pool.initializationStep crates world pe = .ok result) : Settles 0 pe.due result := by
  cases pe with
  | checkCache cmdId =>
    simp only [PoolSM.initializationStep] at h
    split at h
    · rename_i handler output hmade
      cases h
      obtain ⟨hcatching, hcommands⟩ := getRequestHandler_ok hmade
      refine ⟨hcatching, ?_⟩
      rw [hcommands]
      rfl
    · cases h
      exact ⟨trivial, by simp [PoolEvent.due, Command.ack, PoolState.owed]⟩
    · cases h
  | close cmdId =>
    cases h
    exact ⟨trivial, by simp [PoolEvent.due, closePoolAck, Command.ack, PoolState.owed]⟩
  | sendRequest cmdId msg localTimeout nodes => exact absurd rfl hkept.1
  | refresh cmdId => exact absurd rfl hkept.2
  | _ =>
    cases h
    exact ⟨trivial, rfl⟩

theorem refreshStep_settles (hrefresh : Refreshable crates world pool)
    (h : pool.refreshStep crates world cmdId = .ok result) :
    Settles 0 (PoolEvent.due (.refresh cmdId)) result := by
  rw [PoolSM.refreshStep] at h
  split at h
  · rename_i handler output hmade
    cases h
    obtain ⟨hcatching, hcommands⟩ := getRequestHandler_ok hmade
    refine ⟨hcatching, ?_⟩
    rw [hcommands]
    rfl
  · rename_i err hfailed
    rw [Refreshable, hfailed] at hrefresh
    exact absurd rfl hrefresh
  · cases h

theorem terminatedStep_settles (hkept : ¬ pe.isSendRequest ∧ ¬ pe.isCheckCache ∧
      (pe.isRefresh → Refreshable crates world pool))
    (h : pool.terminatedStep crates world pe = .ok result) : Settles 0 pe.due result := by
  cases pe with
  | checkCache cmdId => exact absurd rfl hkept.2.1
  | close cmdId =>
    cases h
    exact ⟨trivial, by simp [PoolEvent.due, closePoolAck, Command.ack, PoolState.owed]⟩
  | sendRequest cmdId msg localTimeout nodes => exact absurd rfl hkept.1
  | refresh cmdId => exact refreshStep_settles (hkept.2.2 rfl) h
  | timeout reqId nodeAlias =>
    cases h
    refine ⟨trivial, ?_⟩
    rw [PoolSM.timeoutOutput]
    split_ifs <;> rfl
  | _ =>
    cases h
    exact ⟨trivial, rfl⟩

theorem syncedStep_settles {merkle : MerkleTree} (hread : Readable world merkle)
    (h : pool.syncedStep world merkle cmdId refresh = .ok result) :
    Settles {(if refresh then AckKind.refresh else .openPool, cmdId)} 0 result := by
  rw [PoolSM.syncedStep] at h
  split at h
  · cases h
    refine ⟨?_, ?_⟩
    · intro handler hmem
      cases hmem
    · cases refresh with
      | true => simp [openRefreshAck, Command.ack, PoolState.owed]
      | false => simp [openRefreshAck, Command.ack, PoolState.owed]
  · rename_i err hfailed
    rw [Readable, hfailed] at hread
    exact absurd rfl hread
  · cases h

theorem gettingCatchupTargetEvent_settles (hcatching : CatchingUp handler) (hdue : pe.due = 0)
    (hkept : TargetKept world refresh pe)
    (h : pool.gettingCatchupTargetEvent crates world handler cmdId refresh pe = .ok result) :
    Settles {(if refresh then AckKind.refresh else .openPool, cmdId)} 0 result := by
  cases pe with
  | close closeId => simp [PoolEvent.due] at hdue
  | catchupTargetNotFound err =>
    cases h
    rw [hkept]
    exact ⟨trivial, by simp [Command.ack, PoolState.owed]⟩
  | catchupRestart merkle =>
    simp only [PoolSM.gettingCatchupTargetEvent] at h
    split at h
    · obtain ⟨⟨handler', output⟩, hmade, h⟩ := bind_eq_ok_iff.mp h
      cases h
      obtain ⟨hcatching, hcommands⟩ := catchupHandler_ok (.inl ⟨_, _, rfl⟩) hmade
      refine ⟨hcatching, ?_⟩
      rw [hcommands, acks_nil, zero_add, add_zero]
      rfl
    · rename_i err hfailed
      rw [TargetKept, Readable, hfailed] at hkept
      exact absurd rfl hkept
    · cases h
  | catchupTargetFound targetMtRoot targetMtSize merkle =>
    simp only [PoolSM.gettingCatchupTargetEvent] at h
    split at h
    · obtain ⟨⟨handler', output⟩, hmade, h⟩ := bind_eq_ok_iff.mp h
      cases h
      obtain ⟨hcatching, hcommands⟩ := catchupHandler_ok (.inr ⟨_, _, _, rfl⟩) hmade
      refine ⟨hcatching, ?_⟩
      rw [hcommands, acks_nil, zero_add, add_zero]
      rfl
    · rename_i err hfailed
      rw [TargetKept, Readable, hfailed] at hkept
      exact absurd rfl hkept
    · cases h
  | synced merkle => exact syncedStep_settles hkept h
  | _ =>
    cases h
    exact ⟨hcatching, by simp [PoolState.owed]⟩

theorem syncCatchupEvent_settles (hcatching : CatchingUp handler) (hdue : pe.due = 0)
    (hkept : SyncKept world pe)
    (h : pool.syncCatchupEvent crates world handler cmdId refresh pe = .ok result) :
    Settles {(if refresh then AckKind.refresh else .openPool, cmdId)} 0 result := by
  cases pe with
  | close closeId => simp [PoolEvent.due] at hdue
  | nodesBlacklisted => exact hkept.elim
  | synced merkle => exact syncedStep_settles hkept h
  | _ =>
    cases h
    exact ⟨hcatching, by simp [PoolState.owed]⟩

theorem raisedEvent_ok {handler' : RequestSM} {raised : PoolEvent} (hcatching : CatchingUp handler)
    (hdue : pe.due = 0)
    (h : PoolSM.raisedEvent crates world handler pe = .ok (handler', output, raised)) :
    CatchingUp handler' ∧ output.commands = [] ∧ raised.due = 0 := by
  obtain ⟨re, -, h⟩ := bind_eq_ok_iff.mp h
  obtain ⟨⟨next, out⟩, hstep, h⟩ := bind_eq_ok_iff.mp h
  cases h
  cases re with
  | none =>
    cases hstep
    exact ⟨hcatching, rfl, hdue⟩
  | some event =>
    obtain ⟨hnext, hcommands, hraised⟩ := catchingUp_step hcatching hstep
    refine ⟨hnext, hcommands, ?_⟩
    cases hevent : output.poolEvent with
    | none => exact hdue
    | some pe' => exact hraised pe' hevent

theorem settles_append {owed : Multiset Ack} {state : PoolState} {after : Output}
    (hcommands : output.commands = []) (h : Settles owed 0 (state, after)) :
    Settles owed 0 (state, output.append after) := by
  refine ⟨h.1, ?_⟩
  rw [h.2, Output.append, hcommands, List.nil_append]

/-! ### Active pools -/

theorem owedBy_insert (id : String) (handler : RequestSM) :
    owedBy (requestHandlers.insert id handler) =
      handler.owed + owedBy (requestHandlers.erase id) := by
  rw [owedBy, values_insert, List.map_cons, List.sum_cons]
  rfl

theorem owedBy_erase (h : requestHandlers.lookup id = some handler) :
    owedBy requestHandlers = handler.owed + owedBy (requestHandlers.erase id) := by
  rw [owedBy, ((values_perm_erase h).map owed).sum_eq, List.map_cons,
    List.sum_cons]
  rfl

theorem owedBy_erase_of_done
    (h : ∀ handler, requestHandlers.lookup id = some handler → handler.isTerminal) :
    owedBy (requestHandlers.erase id) = owedBy requestHandlers := by
  cases hlookup : requestHandlers.lookup id with
  | none => rw [owedBy, owedBy, values_erase_of_lookup hlookup]
  | some handler =>
    rw [owedBy_erase hlookup, owed, if_pos (h handler hlookup), zero_add]

theorem mem_values_erase (h : handler ∈ values (requestHandlers.erase id)) :
    handler ∈ requestHandlers.values := by
  obtain ⟨key, hkey⟩ := mem_values.mp h
  by_cases he : key = id
  · rw [he, AList.lookup_erase] at hkey
    cases hkey
  · rw [AList.lookup_erase_ne he] at hkey
    exact mem_values.mpr ⟨key, hkey⟩

theorem asked_insert (hasked : handler.state.Asked)
    (hall : ∀ other ∈ requestHandlers.values, other.state.Asked) :
    ∀ other ∈ values (requestHandlers.insert id handler), other.state.Asked := by
  intro other hmem
  rw [values_insert, List.mem_cons] at hmem
  obtain rfl | hmem := hmem
  · exact hasked
  · exact hall other (mem_values_erase hmem)

theorem handlerStep_settles {reqId : String} {remove : Bool}
    (hall : ∀ other ∈ requestHandlers.values, other.state.Asked)
    (hlookup : requestHandlers.lookup reqId = some handler)
    (h : PoolSM.handlerStep crates world requestHandlers nodes reqId handler event remove =
      .ok result) : Settles (owedBy requestHandlers) 0 result := by
  obtain ⟨⟨handler', output⟩, hstep, h⟩ := bind_eq_ok_iff.mp h
  cases h
  obtain ⟨hasked, howed⟩ :=
    asked_step (hall handler (mem_values.mpr ⟨reqId, hlookup⟩)) hstep
  rw [owedBy_erase hlookup, howed]
  split_ifs with hremove
  · refine ⟨fun other hmem => hall other (mem_values_erase hmem), ?_⟩
    have hdone : handler'.owed = 0 := if_pos hremove.2
    rw [hdone, add_zero, add_zero]
    rfl
  · refine ⟨asked_insert hasked hall, ?_⟩
    rw [add_zero, add_assoc, ← owedBy_insert]
    rfl

theorem requestOf_isRequest {msg reqId op : String} {localTimeout : Option ℤ}
    {nodesToSend : Option String}
    (h : requestOf world msg reqId op localTimeout nodesToSend = some event) :
    event.IsRequest := by
  rw [requestOf] at h
  split_ifs at h
  · cases h
    trivial
  · cases h
    trivial
  · cases h
    trivial

theorem sendRequestStep_settles {msg : String} {localTimeout : Option ℤ}
    {nodesToSend : Option String} (hall : ∀ other ∈ requestHandlers.values, other.state.Asked)
    (hfree : IdFree requestHandlers
      (PoolEvent.toRequestEvent crates world (.sendRequest cmdId msg localTimeout nodesToSend)))
    (h : pool.sendRequestStep crates world requestHandlers nodes
      (.sendRequest cmdId msg localTimeout nodesToSend) cmdId = .ok result) :
    Settles (owedBy requestHandlers) {(.submit, cmdId)} result := by
  obtain ⟨re, hevent, h⟩ := bind_eq_ok_iff.mp h
  cases re with
  | none =>
    cases h
    exact ⟨hall, by simp [Command.ack, PoolState.owed, owedBy, add_comm]⟩
  | some event =>
    obtain ⟨start, hnew, h⟩ := bind_eq_ok_iff.mp h
    obtain ⟨⟨handler, output⟩, hstep, h⟩ := bind_eq_ok_iff.mp h
    cases h
    obtain ⟨fallback, -, hnew⟩ := bind_eq_ok_iff.mp hnew
    cases hnew
    have hrequest : event.IsRequest := by
      rw [PoolEvent.toRequestEvent] at hevent
      split at hevent
      · exact requestOf_isRequest (Outcome.ok.inj hevent)
      · cases hevent
      · cases hevent
    rw [hevent] at hfree
    obtain ⟨state, hstate, rfl⟩ := handleEvent_ok hstep
    obtain ⟨hasked, howed⟩ := owed_of_answers (by simp) (answers_startStep hrequest hstate)
    refine ⟨asked_insert hasked hall, ?_⟩
    have hone : owed ⟨getF nodes.keys.length, [cmdId], nodes, none.getD fallback,
        pool.poolName, pool.timeout, pool.extendedTimeout, .start⟩ = {(.submit, cmdId)} := rfl
    rw [← hone, howed, PoolState.owed, ← owedBy, owedBy_insert,
      owedBy_erase_of_done hfree]
    exact (add_left_comm _ _ _).trans (congrArg _ (add_comm _ _))

theorem terminateAll_acks {handlers : List RequestSM}
    (hall : ∀ handler ∈ handlers, handler.state.Asked)
    (h : PoolSM.terminateAll crates world handlers = .ok output) :
    acks output.commands = (handlers.map owed).sum := by
  induction handlers generalizing output with
  | nil =>
    cases h
    rfl
  | cons handler handlers ih =>
    obtain ⟨⟨handler', first⟩, hstep, h⟩ := bind_eq_ok_iff.mp h
    obtain ⟨rest, hrest, h⟩ := bind_eq_ok_iff.mp h
    cases h
    rw [Output.append, acks_append, List.map_cons, List.sum_cons,
      asked_terminate (hall handler List.mem_cons_self) hstep,
      ih (fun other hother => hall other (List.mem_cons_of_mem _ hother)) hrest]

theorem owedBy_done (h : RequestsDone requestHandlers) : owedBy requestHandlers = 0 := by
  rw [owedBy]
  apply List.sum_eq_zero
  intro owed hmem
  obtain ⟨handler, hhandler, rfl⟩ := List.mem_map.mp hmem
  exact if_pos (h handler hhandler)

theorem activeStep_settles (hall : ∀ handler ∈ requestHandlers.values, handler.state.Asked)
    (hkept : ActiveKept crates world pool requestHandlers pe)
    (h : pool.activeStep crates world requestHandlers nodes pe = .ok result) :
    Settles (owedBy requestHandlers) pe.due result := by
  cases pe with
  | checkCache cmdId => exact hkept.elim
  | poolOutdated =>
    cases h
    refine ⟨trivial, ?_⟩
    rw [owedBy_done hkept]
    rfl
  | close cmdId =>
    obtain ⟨output, hall', h⟩ := bind_eq_ok_iff.mp h
    cases h
    refine ⟨trivial, ?_⟩
    have hperm := world.order.perm requestHandlers.values
    have hacks := terminateAll_acks (fun handler hmem => hall handler (hperm.mem_iff.mp hmem)) hall'
    rw [acks_cons, hacks, (hperm.map owed).sum_eq, ← owedBy]
    simp [PoolEvent.due, closePoolAck, Command.ack, PoolState.owed, add_comm]
  | refresh cmdId =>
    rw [owedBy_done hkept.1]
    exact refreshStep_settles hkept.2 h
  | sendRequest cmdId msg localTimeout nodesToSend => exact sendRequestStep_settles hall hkept h
  | nodeReply reply nodeAlias =>
    obtain ⟨re, -, h⟩ := bind_eq_ok_iff.mp h
    cases re with
    | none =>
      cases h
      exact ⟨hall, by simp [PoolEvent.due, PoolState.owed, owedBy]⟩
    | some event =>
      dsimp only at h
      cases hlookup : requestHandlers.lookup event.getReqId with
      | none =>
        rw [hlookup] at h
        cases h
        exact ⟨hall, by simp [PoolEvent.due, PoolState.owed, owedBy]⟩
      | some handler =>
        rw [hlookup] at h
        exact handlerStep_settles hall hlookup h
  | timeout reqId nodeAlias =>
    simp only [PoolSM.activeStep, PoolSM.timeoutStep] at h
    cases hlookup : requestHandlers.lookup reqId with
    | none =>
      rw [hlookup] at h
      cases h
      refine ⟨hall, ?_⟩
      have hnone : (PoolSM.timeoutOutput reqId).commands = [] := by
        rw [PoolSM.timeoutOutput]
        split_ifs <;> rfl
      rw [hnone, acks_nil, zero_add]
      exact add_zero _
    | some handler =>
      rw [hlookup] at h
      exact handlerStep_settles hall hlookup h
  | _ =>
    cases h
    exact ⟨hall, by simp [PoolEvent.due, PoolState.owed, owedBy]⟩

/-- A step of the pool that loses no acknowledgement. -/
theorem stateStep_settles (hinv : pool.state.Inv) (hkept : AcksKept crates world pool pe)
    (h : pool.stateStep crates world pe = .ok result) :
    Settles pool.state.owed pe.due result := by
  unfold PoolSM.stateStep at h
  rw [AcksKept] at hkept
  cases hstate : pool.state with
  | initialization =>
    rw [hstate] at h hkept
    exact initializationStep_settles hkept h
  | gettingCatchupTarget handler cmdId refresh =>
    rw [hstate] at h hkept hinv
    obtain ⟨hdue, hkept⟩ := hkept
    obtain ⟨⟨handler', output, raised⟩, hraised, h⟩ := bind_eq_ok_iff.mp h
    obtain ⟨⟨state, after⟩, hevent, h⟩ := bind_eq_ok_iff.mp h
    cases h
    obtain ⟨hcatching, hcommands, hquiet⟩ := raisedEvent_ok hinv hdue hraised
    rw [hraised] at hkept
    rw [hdue]
    exact settles_append hcommands
      (gettingCatchupTargetEvent_settles hcatching hquiet hkept hevent)
  | syncCatchup handler cmdId refresh =>
    rw [hstate] at h hkept hinv
    obtain ⟨hdue, hkept⟩ := hkept
    obtain ⟨⟨handler', output, raised⟩, hraised, h⟩ := bind_eq_ok_iff.mp h
    obtain ⟨⟨state, after⟩, hevent, h⟩ := bind_eq_ok_iff.mp h
    cases h
    obtain ⟨hcatching, hcommands, hquiet⟩ := raisedEvent_ok hinv hdue hraised
    rw [hraised] at hkept
    rw [hdue]
    exact settles_append hcommands (syncCatchupEvent_settles hcatching hquiet hkept hevent)
  | active requestHandlers nodes =>
    rw [hstate] at h hkept hinv
    exact activeStep_settles hinv hkept h
  | terminated =>
    rw [hstate] at h hkept
    exact terminatedStep_settles hkept h
  | closed =>
    rw [hstate] at h hkept
    cases h
    refine ⟨trivial, ?_⟩
    rw [hkept]
    rfl

/-! ### Runs -/

instance (world : World) (merkle : MerkleTree) : Decidable (Readable world merkle) :=
  inferInstanceAs (Decidable (¬ _))

instance (world : World) (refresh : Bool) : DecidablePred (TargetKept world refresh)
  | .catchupTargetNotFound _ => inferInstanceAs (Decidable (refresh = false))
  | .catchupRestart merkle => inferInstanceAs (Decidable (Readable world merkle))
  | .catchupTargetFound _ _ merkle => inferInstanceAs (Decidable (Readable world merkle))
  | .synced merkle => inferInstanceAs (Decidable (Readable world merkle))
  | .checkCache _ | .nodeReply _ _ | .close _ | .refresh _ | .poolOutdated | .nodesBlacklisted
  | .sendRequest _ _ _ _ | .timeout _ _ => inferInstanceAs (Decidable True)

instance (world : World) : DecidablePred (SyncKept world)
  | .nodesBlacklisted => inferInstanceAs (Decidable False)
  | .synced merkle => inferInstanceAs (Decidable (Readable world merkle))
  | .checkCache _ | .nodeReply _ _ | .close _ | .refresh _ | .poolOutdated | .catchupRestart _
  | .catchupTargetFound _ _ _ | .catchupTargetNotFound _ | .sendRequest _ _ _ _ | .timeout _ _ =>
    inferInstanceAs (Decidable True)

instance (P : PoolEvent → Prop) [DecidablePred P] : DecidablePred (Raises P)
  | .ok (_, _, raised) => inferInstanceAs (Decidable (P raised))
  | .err e => e.elim
  | .panic => inferInstanceAs (Decidable True)

instance (crates : Crates) (world : World) (pool : PoolSM) :
    Decidable (Refreshable crates world pool) :=
  inferInstanceAs (Decidable (¬ _))

instance (requestHandlers : AssocMap String RequestSM) : Decidable (RequestsDone requestHandlers) :=
  inferInstanceAs (Decidable (∀ handler ∈ requestHandlers.values, handler.isTerminal))

instance (requestHandlers : AssocMap String RequestSM) : DecidablePred (IdFree requestHandlers)
  | .ok (some event) => inferInstanceAs (Decidable
      (∀ handler ∈ requestHandlers.lookup event.getReqId, handler.isTerminal))
  | .ok none => inferInstanceAs (Decidable True)
  | .err e => e.elim
  | .panic => inferInstanceAs (Decidable True)

instance (crates : Crates) (world : World) (pool : PoolSM)
    (requestHandlers : AssocMap String RequestSM) :
    DecidablePred (ActiveKept crates world pool requestHandlers)
  | .checkCache _ => inferInstanceAs (Decidable False)
  | .poolOutdated => inferInstanceAs (Decidable (RequestsDone requestHandlers))
  | .refresh _ => inferInstanceAs (Decidable (_ ∧ _))
  | .sendRequest _ _ _ _ => inferInstanceAs (Decidable (IdFree _ _))
  | .nodeReply _ _ | .close _ | .catchupRestart _ | .catchupTargetFound _ _ _
  | .catchupTargetNotFound _ | .synced _ | .nodesBlacklisted | .timeout _ _ =>
    inferInstanceAs (Decidable True)

instance (crates : Crates) (world : World) (pool : PoolSM) (pe : PoolEvent) :
    DecidablePred (StateKept crates world pool pe)
  | .initialization => inferInstanceAs (Decidable (_ ∧ _))
  | .gettingCatchupTarget _ _ _ => inferInstanceAs (Decidable (_ ∧ _))
  | .syncCatchup _ _ _ => inferInstanceAs (Decidable (_ ∧ _))
  | .active _ _ => inferInstanceAs (Decidable (ActiveKept _ _ _ _ _))
  | .terminated => inferInstanceAs (Decidable (_ ∧ _ ∧ (_ → _)))
  | .closed => inferInstanceAs (Decidable (_ = _))

instance (crates : Crates) (world : World) (pool : PoolSM) (pe : PoolEvent) :
    Decidable (AcksKept crates world pool pe) :=
  inferInstanceAs (Decidable (StateKept _ _ _ _ _))

/-- What a machine that has not panicked owes. -/
def owedOf (s : Option PoolSM) : Multiset Ack := (s.map (fun pool => pool.state.owed)).getD 0

theorem poolMachine_balanced {s : Option PoolSM} {input : World × PoolEvent}
    (hinv : ∀ pool ∈ s, pool.state.Inv)
    (hkept : ∀ pool ∈ s, AcksKept crates input.1 pool input.2)
    (hlive : ((poolMachine crates).step input s).2.isSome) :
    (poolMachine crates).Balanced owedOf (fun input => input.2.due) acks s input ∧
      ∀ pool ∈ ((poolMachine crates).step input s).2, pool.state.Inv := by
  cases s with
  | none => cases hlive
  | some pool =>
    simp only [poolMachine, Machine.Balanced] at hlive ⊢
    cases hstep : pool.handleEvent crates input.1 input.2 with
    | ok next =>
      obtain ⟨pool', output⟩ := next
      obtain ⟨⟨state, out⟩, hstate, hnext⟩ := bind_eq_ok_iff.mp hstep
      cases hnext
      obtain ⟨hinv', hbalance⟩ := stateStep_settles (hinv pool rfl) (hkept pool rfl) hstate
      refine ⟨hbalance, ?_⟩
      rintro pool' ⟨⟩
      exact hinv'
    | err e => exact e.elim
    | panic =>
      rw [hstep] at hlive
      cases hlive

/-- Every command of a pool that is opened and closed is acknowledged once, as long as no event
meets the pool where it loses an acknowledgement. -/
theorem acknowledged_once (crates : Crates) {pool : PoolSM} {inputs : List (World × PoolEvent)}
    (hstart : pool.state = .initialization)
    (hkept : (poolMachine crates).Along
      (fun s input => ∀ pool ∈ s, AcksKept crates input.1 pool input.2) (some pool) inputs)
    (hclosed : ((poolMachine crates).run inputs (some pool)).map PoolSM.isTerminal = some true) :
    settledBy acks ((poolMachine crates).outputs inputs (some pool)) =
      dueBy (fun input => input.2.due) inputs := by
  obtain ⟨last, hlast, hterminal⟩ := map_eq_some_iff.mp hclosed
  have hback : ∀ (s : Option PoolSM) (input : World × PoolEvent),
      ((poolMachine crates).step input s).2.isSome → s.isSome := by
    intro s input hsome
    cases s with
    | none => cases hsome
    | some pool => rfl
  have hlive : ((poolMachine crates).run inputs (some pool)).isSome := by
    rw [hlast]
    rfl
  have hall := along_and hkept (along_of_end (P := fun s => s.isSome) hback hlive).2
  let Inv : Option PoolSM → Prop := fun s => ∀ pool ∈ s, pool.state.Inv
  have hinv : Inv (some pool) := by
    rintro other ⟨⟩
    rw [hstart]
    trivial
  have hbalanced : (poolMachine crates).Along
      ((poolMachine crates).Balanced owedOf (fun input => input.2.due) acks)
      (some pool) inputs := by
    refine along_of_along ?_ hinv hall
    intro s input hinv hstep
    exact poolMachine_balanced hinv hstep.1 hstep.2
  refine settled_eq_due hbalanced ?_ ?_
  · rw [owedOf, map_some, getD_some, hstart]
    rfl
  · rw [owedOf, hlast, map_some, getD_some]
    rw [PoolSM.isTerminal] at hterminal
    split at hterminal
    · rename_i hstate
      rw [hstate]
      rfl
    · cases hterminal

/-- The ledger of a pool of one node that has no transactions yet. -/
def emptyLedger : MerkleTree := ⟨.empty [], 0, 0, 0⟩

def oneNodeWorld : World :=
  { World.at 0 with
    create := fun _ => .ok emptyLedger
    getNodesAndRemotes := fun _ =>
      .ok ([⟨"Node1", none⟩].toAList, [⟨"Node1", [], "tcp://node1:9702", false⟩]) }

/-- A node that reports the ledger to be current, and requests with the id of their text. -/
def oneNodeCrates : Crates :=
  { Crates.none with
    fromBase58 := fun _ => some []
    fromStr := fun _ => some (.obj [("reqId", .int 7), ("operation", .obj [("type", .str "105")])])
    messageFromStr := fun _ => some (.ledgerStatus ⟨0, "", 0, none, none, none⟩) }

def closedWhileAsked : List (World × PoolEvent) :=
  [(oneNodeWorld, .checkCache 1), (oneNodeWorld, .nodeReply "status" "Node1"),
    (oneNodeWorld, .sendRequest 2 "request" none none), (oneNodeWorld, .close 4)]

theorem closedWhileAsked_acknowledged :
    settledBy acks
        ((poolMachine oneNodeCrates).outputs closedWhileAsked (some (.new "pool" 9 20 100))) =
      dueBy (fun input => input.2.due) closedWhileAsked :=
  acknowledged_once oneNodeCrates rfl (by decide +kernel) (by decide +kernel)

def askedWhileRefreshed : List (World × PoolEvent) :=
  [(oneNodeWorld, .checkCache 1), (oneNodeWorld, .nodeReply "status" "Node1"),
    (oneNodeWorld, .refresh 3), (oneNodeWorld, .sendRequest 2 "request" none none),
    (oneNodeWorld, .nodeReply "status" "Node1"), (oneNodeWorld, .close 4)]

/-- A request that meets a pool while it is refreshed is never acknowledged. -/
theorem askedWhileRefreshed_lost :
    ((poolMachine oneNodeCrates).run askedWhileRefreshed
        (some (.new "pool" 9 20 100))).map PoolSM.isTerminal = some true ∧
      (.submit, 2) ∈ dueBy (fun input => input.2.due) askedWhileRefreshed ∧
      (.submit, 2) ∉ settledBy acks ((poolMachine oneNodeCrates).outputs
        askedWhileRefreshed (some (.new "pool" 9 20 100))) :=
  ⟨by decide +kernel, by decide +kernel, by decide +kernel⟩

end IndySdk.Pool
