import IndySdk.PoolRuns

/-!
# When finished requests leave the pool

An active pool keeps a handler for each request that waits for nodes. A reply takes a handler out
when the request is finished by it; the start of a request and a timeout leave it in the map.
-/

namespace IndySdk.Pool

open Outcome AssocMap RequestSM
open Ledger (MerkleTree)

variable {crates : Crates} {world : World} {event : RequestEvent} {output : Output}
  {pool : PoolSM} {pe : PoolEvent} {state state' : PoolState} {nodes : Nodes}
  {handlers handlers' : AssocMap String RequestSM} {handler handler' : RequestSM}

/-- No handler of an active pool is finished. -/
def PoolState.NoneTerminal : PoolState → Prop
  | .active requestHandlers _ => ∀ handler ∈ requestHandlers.values, ¬ handler.isTerminal
  | _ => True

/-- Every handler of an active pool is for a request of a command. -/
def PoolState.AllAsked : PoolState → Prop
  | .active requestHandlers _ => ∀ handler ∈ requestHandlers.values, handler.state.Asked
  | _ => True

def RequestEvent.nodesToSend : RequestEvent → Option String
  | .customFullRequest _ _ _ nodesToSend => nodesToSend
  | _ => none

/-- A request for a list of nodes that cannot be read, is empty or names a node that the pool does
not know. -/
def RequestEvent.Refused (crates : Crates) (nodes : Nodes) (event : RequestEvent) : Prop :=
  ∃ list ∈ event.nodesToSend, ∀ names ∈ stringsFromStr crates list,
    names = [] ∨ ∃ node ∈ names, node ∉ nodes

/-- The answers of nodes after one more of them. -/
def FullState.accumulate (state : FullState) (nodeAlias nodeResult : String) : Json :=
  match state.accumReply with
  | none => .obj [(nodeAlias, .str nodeResult)]
  | some accumReply => accumReply.put nodeAlias (.str nodeResult)

/-- A request waits for nothing but the node that timed out. -/
def RequestState.LastAwaited (world : World) (sm : RequestSM) (nodeAlias : String) :
    RequestState → Prop
  | .single state => SingleState.isConsensusReachable
      { state with timeoutNodes := insert nodeAlias state.timeoutNodes }
      sm.nodes.keys.length = false
  | .consensus state => ConsensusState.isConsensusReachable world
      { state with timeoutNodes := insert nodeAlias state.timeoutNodes } sm.f
      sm.nodes.keys.length = .ok false
  | .full state => ∃ members ∈ (state.accumulate nodeAlias "timeout").asObject,
      members.length = (state.nodesToSend.map List.length).getD sm.nodes.keys.length
  | _ => False

def RequestSM.LastAwaited (world : World) (sm : RequestSM) (nodeAlias : String) : Prop :=
  sm.state.LastAwaited world sm nodeAlias

def NotRefused (crates : Crates) (nodes : Nodes) : MayPanic (Option RequestEvent) → Prop
  | .ok (some event) => ¬ event.Refused crates nodes
  | _ => True

/-- The events that leave no finished handler in an active pool. -/
def ActiveCleared (crates : Crates) (world : World) (requestHandlers : AssocMap String RequestSM)
    (nodes : Nodes) : PoolEvent → Prop
  | .timeout reqId nodeAlias =>
    ∀ handler ∈ requestHandlers.lookup reqId, ¬ handler.LastAwaited world nodeAlias
  | .sendRequest cmdId msg localTimeout nodesToSend =>
    NotRefused crates nodes
      (PoolEvent.toRequestEvent crates world (.sendRequest cmdId msg localTimeout nodesToSend))
  | _ => True

def PoolState.Cleared (crates : Crates) (world : World) (pe : PoolEvent) : PoolState → Prop
  | .active requestHandlers nodes => ActiveCleared crates world requestHandlers nodes pe
  | _ => True

def Cleared (crates : Crates) (s : Option PoolSM) (input : World × PoolEvent) : Prop :=
  ∀ pool ∈ s, pool.state.Cleared crates input.1 input.2

/-- After the step, no handler of an active pool is finished. -/
def LeavesNoneTerminal (crates : Crates) (s : Option PoolSM) (input : World × PoolEvent) : Prop :=
  ∀ pool ∈ ((poolMachine crates).step input s).2, pool.state.NoneTerminal

/-! ### Requests -/

theorem isTerminal_iff : handler.isTerminal ↔ handler.state = .finish := by
  rw [isTerminal]
  cases handler.state with
  | finish => simp
  | _ => simp

theorem fullRequest_eq (sm : RequestSM) (state : FullState) (reqId nodeAlias nodeResult : String) :
    sm.fullRequestHandleConsensusState crates state reqId nodeAlias nodeResult =
      Outcome.unwrap (state.accumulate nodeAlias nodeResult).asObject >>= fun members =>
        if members.length = (state.nodesToSend.map List.length).getD sm.nodes.keys.length then
          pure (.finish, { networker := [.cleanTimeout reqId none]
                           commands := sendOkReplies sm.cmdIds
                             (crates.toStr (state.accumulate nodeAlias nodeResult)) })
        else
          pure (.full { state with accumReply := some (state.accumulate nodeAlias nodeResult) },
            { networker := [.cleanTimeout reqId (some nodeAlias)] }) := rfl

variable {nodeAlias : String}

/-- A timeout that a request waits for nothing else but ends the request. -/
theorem timeout_ends (crates : Crates) (reqId : String) (h : handler.LastAwaited world nodeAlias) :
    ∃ handler' output, handler.handleEvent crates world (.timeout reqId nodeAlias) =
      .ok (handler', output) ∧ handler'.isTerminal := by
  have hends : ∀ output, handler.stateStep crates world (.timeout reqId nodeAlias) =
      .ok (.finish, output) → ∃ handler' output,
        handler.handleEvent crates world (.timeout reqId nodeAlias) = .ok (handler', output) ∧
          handler'.isTerminal := by
    intro output hstep
    refine ⟨{ handler with state := .finish }, output, ?_, rfl⟩
    rw [handleEvent, hstep]
    rfl
  rw [RequestSM.LastAwaited] at h
  rw [stateStep] at hends
  cases hstate : handler.state with
  | single s =>
    rw [hstate] at h hends
    rw [RequestState.LastAwaited] at h
    refine hends { commands := consensusImpossible handler.cmdIds
                   networker := [.cleanTimeout reqId none] } ?_
    simp only [singleStep, SingleState.tryToContinue, h]
    rfl
  | consensus s =>
    rw [hstate] at h hends
    rw [RequestState.LastAwaited] at h
    refine hends { commands := consensusImpossible handler.cmdIds
                   networker := [.cleanTimeout reqId none] } ?_
    simp only [consensusStep, consensusTimeout, h]
    rfl
  | full s =>
    rw [hstate] at h hends
    obtain ⟨members, hmembers, hcount⟩ := h
    refine hends { networker := [.cleanTimeout reqId none]
                   commands := sendOkReplies handler.cmdIds
                     (crates.toStr (s.accumulate nodeAlias "timeout")) } ?_
    simp only [fullStep]
    rw [fullRequest_eq, hmembers, unwrap_some, ok_bind, if_pos hcount]
    rfl
  | _ =>
    rw [hstate] at h
    exact h.elim

/-- A request goes on after a timeout while there is something else that it waits for. -/
theorem timeout_continues {reqId : String} (hasked : handler.state.Asked)
    (hlive : ¬ handler.isTerminal) (hmore : ¬ handler.LastAwaited world nodeAlias)
    (h : handler.handleEvent crates world (.timeout reqId nodeAlias) = .ok (handler', output)) :
    ¬ handler'.isTerminal := by
  obtain ⟨next, hstep, rfl⟩ := handleEvent_ok h
  rw [isTerminal_iff] at hlive ⊢
  rw [RequestSM.LastAwaited] at hmore
  rw [stateStep] at hstep
  cases hstate : handler.state with
  | single s =>
    rw [hstate] at hstep hmore
    rw [RequestState.LastAwaited] at hmore
    simp only [singleStep, SingleState.tryToContinue,
      Bool.eq_true_of_not_eq_false hmore] at hstep
    cases hstep
    simp
  | consensus s =>
    rw [hstate] at hstep hmore
    simp only [consensusStep, consensusTimeout] at hstep
    obtain ⟨reachable, hreachable, hstep⟩ := bind_eq_ok_iff.mp hstep
    cases reachable with
    | true =>
      cases hstep
      simp
    | false => exact absurd hreachable hmore
  | full s =>
    rw [hstate] at hstep hmore
    simp only [fullStep] at hstep
    rw [fullRequest_eq] at hstep
    obtain ⟨members, hmembers, hstep⟩ := bind_eq_ok_iff.mp hstep
    rw [if_neg (fun hcount => hmore ⟨members, unwrap_eq_ok.mp hmembers, hcount⟩)] at hstep
    cases hstep
    simp
  | finish => exact absurd hstate hlive
  | _ =>
    rw [hstate] at hasked
    exact hasked.elim

theorem not_refused (h : event.nodesToSend = none) : ¬ event.Refused crates nodes := by
  rintro ⟨list, hlist, -⟩
  rw [h] at hlist
  cases hlist

theorem refused_iff {list : String} (h : event.nodesToSend = some list) :
    event.Refused crates nodes ↔ ∀ names ∈ stringsFromStr crates list,
      names = [] ∨ ∃ node ∈ names, node ∉ nodes := by
  constructor
  · rintro ⟨list', hlist, hrefused⟩
    rw [h] at hlist
    cases hlist
    exact hrefused
  · exact fun hrefused => ⟨list, h, hrefused⟩

/-- A new request is finished when it starts exactly when it is refused. -/
theorem start_terminal_iff (hrequest : event.IsRequest) (hstart : handler.state = .start)
    (h : handler.handleEvent crates world event = .ok (handler', output)) :
    handler'.isTerminal ↔ event.Refused crates handler.nodes := by
  obtain ⟨next, hstep, rfl⟩ := handleEvent_ok h
  rw [isTerminal_iff]
  rw [stateStep, hstart] at hstep
  cases event with
  | customSingleRequest msg reqId =>
    cases hstep
    exact iff_of_false (by simp) (not_refused rfl)
  | customConsensusRequest msg reqId =>
    cases hstep
    exact iff_of_false (by simp) (not_refused rfl)
  | customFullRequest msg reqId localTimeout nodesToSend =>
    simp only [startStep, startFull] at hstep
    cases nodesToSend with
    | none =>
      cases hstep
      exact iff_of_false (by simp) (not_refused rfl)
    | some list =>
      rw [refused_iff rfl]
      cases hread : stringsFromStr crates list with
      | none =>
        simp only [hread] at hstep
        cases hstep
        simp
      | some names =>
        simp only [hread] at hstep
        by_cases hknown : names ≠ [] ∧ ∀ node ∈ names, node ∈ handler.nodes
        · rw [if_pos hknown] at hstep
          cases hstep
          refine iff_of_false (by simp) ?_
          intro hrefused
          rcases hrefused names rfl with hempty | ⟨node, hnode, hunknown⟩
          · exact hknown.1 hempty
          · exact hunknown (hknown.2 node hnode)
        · rw [if_neg hknown] at hstep
          cases hstep
          refine iff_of_true rfl ?_
          rintro _ ⟨⟩
          by_cases hempty : names = []
          · exact .inl hempty
          · right
            by_contra hall
            push Not at hall
            exact hknown ⟨hempty, hall⟩
  | _ => exact hrequest.elim

/-! ### Pools -/

/-- The handlers of a pool after a step. -/
inductive Handled (crates : Crates) (world : World) (pe : PoolEvent) :
    PoolState → AssocMap String RequestSM → Prop where
  | opened (state : PoolState) : Handled crates world pe state ∅
  | kept (handlers : AssocMap String RequestSM) (nodes : Nodes) :
    Handled crates world pe (.active handlers nodes) handlers
  | started (handlers : AssocMap String RequestSM) (nodes : Nodes) (cmdId : ℤ) (msg : String)
    (localTimeout : Option ℤ) (list : Option String) (event : RequestEvent)
    (start handler : RequestSM) (output : Output)
    (hpe : pe = .sendRequest cmdId msg localTimeout list)
    (hevent : pe.toRequestEvent crates world = .ok (some event))
    (hstart : start.state = .start) (hnodes : start.nodes = nodes)
    (hstep : start.handleEvent crates world event = .ok (handler, output)) :
    Handled crates world pe (.active handlers nodes) (handlers.insert event.getReqId handler)
  | replied (handlers : AssocMap String RequestSM) (nodes : Nodes) (reply nodeAlias : String)
    (event : RequestEvent) (handler handler' : RequestSM) (output : Output)
    (hpe : pe = .nodeReply reply nodeAlias)
    (hlookup : handlers.lookup event.getReqId = some handler)
    (hstep : handler.handleEvent crates world event = .ok (handler', output)) :
    Handled crates world pe (.active handlers nodes)
      (if handler'.isTerminal then handlers.erase event.getReqId
        else handlers.insert event.getReqId handler')
  | timedOut (handlers : AssocMap String RequestSM) (nodes : Nodes) (reqId nodeAlias : String)
    (handler handler' : RequestSM) (output : Output) (hpe : pe = .timeout reqId nodeAlias)
    (hlookup : handlers.lookup reqId = some handler)
    (hstep : handler.handleEvent crates world (.timeout reqId nodeAlias) =
      .ok (handler', output)) :
    Handled crates world pe (.active handlers nodes) (handlers.insert reqId handler')

variable {cmdId : ℤ} {refresh : Bool}

theorem refreshStep_not_active
    (h : pool.refreshStep crates world cmdId = .ok (.active handlers nodes, output)) : False := by
  rw [PoolSM.refreshStep] at h
  split at h
  · cases h
  · cases h
  · cases h

theorem initializationStep_not_active
    (h : pool.initializationStep crates world pe = .ok (.active handlers nodes, output)) :
    False := by
  cases pe with
  | checkCache cmdId =>
    simp only [PoolSM.initializationStep] at h
    split at h
    · cases h
    · cases h
    · cases h
  | _ => cases h

theorem terminatedStep_not_active
    (h : pool.terminatedStep crates world pe = .ok (.active handlers nodes, output)) : False := by
  cases pe with
  | refresh cmdId => exact refreshStep_not_active h
  | _ => cases h

theorem syncedStep_opens {merkle : MerkleTree}
    (h : pool.syncedStep world merkle cmdId refresh = .ok (.active handlers nodes, output)) :
    handlers = ∅ := by
  rw [PoolSM.syncedStep] at h
  split at h
  · cases h
    rfl
  · cases h
  · cases h

theorem closeCatchup_not_active
    (h : PoolSM.closeCatchup crates world handler cmdId = .ok (.active handlers nodes, output)) :
    False := by
  obtain ⟨_, -, h⟩ := bind_eq_ok_iff.mp h
  cases h

theorem gettingCatchupTargetEvent_opens
    (h : pool.gettingCatchupTargetEvent crates world handler cmdId refresh pe =
      .ok (.active handlers nodes, output)) : handlers = ∅ := by
  cases pe with
  | close closeId => exact (closeCatchup_not_active h).elim
  | catchupRestart merkle =>
    simp only [PoolSM.gettingCatchupTargetEvent] at h
    split at h
    · obtain ⟨_, -, h⟩ := bind_eq_ok_iff.mp h
      cases h
    · cases h
    · cases h
  | catchupTargetFound targetMtRoot targetMtSize merkle =>
    simp only [PoolSM.gettingCatchupTargetEvent] at h
    split at h
    · obtain ⟨_, -, h⟩ := bind_eq_ok_iff.mp h
      cases h
    · cases h
    · cases h
  | synced merkle => exact syncedStep_opens h
  | _ => cases h

theorem syncCatchupEvent_opens (h : pool.syncCatchupEvent crates world handler cmdId refresh pe =
      .ok (.active handlers nodes, output)) : handlers = ∅ := by
  cases pe with
  | close closeId => exact (closeCatchup_not_active h).elim
  | synced merkle => exact syncedStep_opens h
  | _ => cases h

/-- What a step of an active pool does to its handlers. -/
theorem activeStep_handled {handlers₀ : AssocMap String RequestSM} {nodes₀ : Nodes}
    (h : pool.activeStep crates world handlers₀ nodes₀ pe =
      .ok (.active handlers nodes, output)) :
    Handled crates world pe (.active handlers₀ nodes₀) handlers := by
  cases pe with
  | poolOutdated => cases h
  | close cmdId =>
    obtain ⟨_, -, h⟩ := bind_eq_ok_iff.mp h
    cases h
  | refresh cmdId => exact (refreshStep_not_active h).elim
  | sendRequest cmdId msg localTimeout nodesToSend =>
    obtain ⟨re, hevent, h⟩ := bind_eq_ok_iff.mp h
    cases re with
    | none =>
      cases h
      exact .kept handlers nodes
    | some event =>
      obtain ⟨start, hnew, h⟩ := bind_eq_ok_iff.mp h
      obtain ⟨⟨handler, made⟩, hstep, h⟩ := bind_eq_ok_iff.mp h
      cases h
      obtain ⟨fallback, -, hnew⟩ := bind_eq_ok_iff.mp hnew
      cases hnew
      exact .started handlers₀ nodes cmdId msg localTimeout nodesToSend event _ handler made rfl
        hevent rfl rfl hstep
  | nodeReply reply nodeAlias =>
    obtain ⟨re, -, h⟩ := bind_eq_ok_iff.mp h
    cases re with
    | none =>
      cases h
      exact .kept handlers nodes
    | some event =>
      dsimp only at h
      cases hlookup : handlers₀.lookup event.getReqId with
      | none =>
        rw [hlookup] at h
        cases h
        exact .kept handlers nodes
      | some handler =>
        rw [hlookup] at h
        obtain ⟨⟨handler', made⟩, hstep, h⟩ := bind_eq_ok_iff.mp h
        simp only [true_and] at h
        cases h
        exact .replied handlers₀ nodes reply nodeAlias event handler handler' made rfl hlookup
          hstep
  | timeout reqId nodeAlias =>
    simp only [PoolSM.activeStep, PoolSM.timeoutStep] at h
    cases hlookup : handlers₀.lookup reqId with
    | none =>
      rw [hlookup] at h
      cases h
      exact .kept handlers nodes
    | some handler =>
      rw [hlookup] at h
      obtain ⟨⟨handler', made⟩, hstep, h⟩ := bind_eq_ok_iff.mp h
      simp only [Bool.false_eq_true, false_and, if_false] at h
      cases h
      exact .timedOut handlers₀ nodes reqId nodeAlias handler handler' made rfl hlookup hstep
  | _ =>
    cases h
    exact .kept handlers nodes

theorem stateStep_handled
    (h : pool.stateStep crates world pe = .ok (.active handlers nodes, output)) :
    Handled crates world pe pool.state handlers := by
  unfold PoolSM.stateStep at h
  cases hstate : pool.state with
  | initialization =>
    rw [hstate] at h
    exact (initializationStep_not_active h).elim
  | gettingCatchupTarget handler cmdId refresh =>
    rw [hstate] at h
    obtain ⟨⟨handler', first, raised⟩, -, h⟩ := bind_eq_ok_iff.mp h
    obtain ⟨⟨state, after⟩, hevent, h⟩ := bind_eq_ok_iff.mp h
    cases h
    rw [gettingCatchupTargetEvent_opens hevent]
    exact .opened _
  | syncCatchup handler cmdId refresh =>
    rw [hstate] at h
    obtain ⟨⟨handler', first, raised⟩, -, h⟩ := bind_eq_ok_iff.mp h
    obtain ⟨⟨state, after⟩, hevent, h⟩ := bind_eq_ok_iff.mp h
    cases h
    rw [syncCatchupEvent_opens hevent]
    exact .opened _
  | terminated =>
    rw [hstate] at h
    exact (terminatedStep_not_active h).elim
  | closed =>
    rw [hstate] at h
    cases h
  | active handlers₀ nodes₀ =>
    rw [hstate] at h
    exact activeStep_handled h

theorem requestOf_of_toRequestEvent {msg : String} {localTimeout : Option ℤ} {list : Option String}
    (h : PoolEvent.toRequestEvent crates world
      (.sendRequest cmdId msg localTimeout list) = .ok (some event)) : event.IsRequest := by
  rw [PoolEvent.toRequestEvent] at h
  split at h
  · exact requestOf_isRequest (Outcome.ok.inj h)
  · cases h
  · cases h

theorem mem_values_insert_handler {id : String}
    (h : handler' ∈ values (handlers.insert id handler)) :
    handler' = handler ∨ handler' ∈ handlers.values := by
  rw [values_insert] at h
  exact (List.mem_cons.mp h).imp_right mem_values_erase

theorem allAsked_step (hasked : state.AllAsked) (h : Handled crates world pe state handlers) :
    ∀ handler ∈ handlers.values, handler.state.Asked := by
  intro other hmem
  cases h with
  | opened => exact absurd hmem List.not_mem_nil
  | kept => exact hasked other hmem
  | started handlers nodes cmdId msg localTimeout list event start handler output hpe hevent
      hstart hnodes hstep =>
    rcases mem_values_insert_handler hmem with rfl | hmem
    · subst hpe
      obtain ⟨state, hstate, rfl⟩ := handleEvent_ok hstep
      rw [stateStep, hstart] at hstate
      exact (owed_of_answers (by rw [hstart]; simp)
        (answers_startStep (requestOf_of_toRequestEvent hevent) hstate)).1
    · exact hasked other hmem
  | replied handlers nodes reply nodeAlias event handler handler' output hpe hlookup hstep =>
    have hnext := (asked_step (hasked handler (mem_values.mpr ⟨_, hlookup⟩)) hstep).1
    split_ifs at hmem
    · exact hasked other (mem_values_erase hmem)
    · rcases mem_values_insert_handler hmem with rfl | hmem
      · exact hnext
      · exact hasked other hmem
  | timedOut handlers nodes reqId nodeAlias handler handler' output hpe hlookup hstep =>
    rcases mem_values_insert_handler hmem with rfl | hmem
    · exact (asked_step (hasked handler (mem_values.mpr ⟨_, hlookup⟩)) hstep).1
    · exact hasked other hmem

theorem noneTerminal_of_cleared {nodes₀ : Nodes} {handlers₀ : AssocMap String RequestSM}
    (hasked : (PoolState.active handlers₀ nodes₀).AllAsked)
    (hnone : (PoolState.active handlers₀ nodes₀).NoneTerminal)
    (hcleared : ActiveCleared crates world handlers₀ nodes₀ pe)
    (h : Handled crates world pe (.active handlers₀ nodes₀) handlers) :
    ∀ handler ∈ handlers.values, ¬ handler.isTerminal := by
  intro other hmem
  cases h with
  | opened => exact absurd hmem List.not_mem_nil
  | kept => exact hnone other hmem
  | started handlers nodes cmdId msg localTimeout list event start handler output hpe hevent
      hstart hnodes hstep =>
    subst hpe
    rcases mem_values_insert_handler hmem with rfl | hmem
    · rw [ActiveCleared, hevent] at hcleared
      rw [start_terminal_iff (requestOf_of_toRequestEvent hevent) hstart hstep, hnodes]
      exact hcleared
    · exact hnone other hmem
  | replied handlers nodes reply nodeAlias event handler handler' output hpe hlookup hstep =>
    split_ifs at hmem with hterminal
    · exact hnone other (mem_values_erase hmem)
    · rcases mem_values_insert_handler hmem with rfl | hmem
      · exact hterminal
      · exact hnone other hmem
  | timedOut handlers nodes reqId nodeAlias handler handler' output hpe hlookup hstep =>
    subst hpe
    have hin : handler ∈ handlers₀.values := mem_values.mpr ⟨_, hlookup⟩
    rcases mem_values_insert_handler hmem with rfl | hmem
    · exact timeout_continues (hasked handler hin) (hnone handler hin)
        (hcleared handler hlookup) hstep
    · exact hnone other hmem

theorem poolMachine_step_of_ok {input : World × PoolEvent}
    (h : pool.stateStep crates input.1 input.2 = .ok (state, output)) :
    (poolMachine crates).step input (some pool) =
      (output.commands, some { pool with state := state }) := by
  simp only [poolMachine, PoolSM.handleEvent, h, ok_bind]
  rfl

theorem timeout_left {reqId : String} (hactive : pool.state = .active handlers nodes)
    (hlookup : handlers.lookup reqId = some handler) (hlast : handler.LastAwaited world nodeAlias) :
    ¬ LeavesNoneTerminal crates (some pool) (world, .timeout reqId nodeAlias) := by
  obtain ⟨handler', output, hstep, hterminal⟩ := timeout_ends crates reqId hlast
  have hok : pool.stateStep crates world (.timeout reqId nodeAlias) =
      .ok (.active (handlers.insert reqId handler') nodes,
        { networker := output.networker, commands := output.commands }) := by
    rw [PoolSM.stateStep, hactive]
    simp only [PoolSM.activeStep, PoolSM.timeoutStep, hlookup, PoolSM.handlerStep, hstep]
    rfl
  intro hleaves
  rw [LeavesNoneTerminal, poolMachine_step_of_ok hok] at hleaves
  refine hleaves _ rfl handler' ?_ hterminal
  rw [values_insert]
  exact List.mem_cons_self

theorem refused_left {msg : String} {localTimeout : Option ℤ} {list : Option String}
    (hgenerator : (crates.fromBase58 defaultGenerator).isSome)
    (hactive : pool.state = .active handlers nodes)
    (hevent : PoolEvent.toRequestEvent crates world (.sendRequest cmdId msg localTimeout list) =
      .ok (some event)) (hrefused : event.Refused crates nodes) :
    ¬ LeavesNoneTerminal crates (some pool) (world, .sendRequest cmdId msg localTimeout list) := by
  obtain ⟨generator, hgenerator⟩ := Option.isSome_iff_exists.mp hgenerator
  have hnew : pool.newHandler crates [cmdId] nodes = .ok ⟨getF nodes.keys.length, [cmdId], nodes,
      generator, pool.poolName, pool.timeout, pool.extendedTimeout, .start⟩ := by
    rw [PoolSM.newHandler, new, hgenerator]
    rfl
  let start : RequestSM := ⟨getF nodes.keys.length, [cmdId], nodes, generator, pool.poolName,
    pool.timeout, pool.extendedTimeout, .start⟩
  have hstarted :
      ∃ handler output, start.handleEvent crates world event = .ok (handler, output) := by
    cases event with
    | customFullRequest msg reqId localTimeout nodesToSend => exact ⟨_, _, rfl⟩
    | _ => exact absurd hrefused (not_refused rfl)
  obtain ⟨handler, output, hstep⟩ := hstarted
  have hterminal : handler.isTerminal :=
    (start_terminal_iff (requestOf_of_toRequestEvent hevent) rfl hstep).mpr hrefused
  have hok : pool.stateStep crates world (.sendRequest cmdId msg localTimeout list) =
      .ok (.active (handlers.insert event.getReqId handler) nodes,
        { networker := output.networker, commands := output.commands }) := by
    rw [PoolSM.stateStep, hactive]
    simp only [PoolSM.activeStep, PoolSM.sendRequestStep, hevent, ok_bind, hnew]
    rw [hstep]
    rfl
  intro hleaves
  rw [LeavesNoneTerminal, poolMachine_step_of_ok hok] at hleaves
  refine hleaves _ rfl handler ?_ hterminal
  rw [values_insert]
  exact List.mem_cons_self

/-- Every handler of the pool is for a request of a command and is not finished. -/
def HandlersWait (s : Option PoolSM) : Prop :=
  ∀ pool ∈ s, pool.state.AllAsked ∧ pool.state.NoneTerminal

theorem handled_of_step {s : Option PoolSM} {input : World × PoolEvent} {pool' : PoolSM}
    (h : pool' ∈ ((poolMachine crates).step input s).2)
    (hactive : pool'.state = .active handlers nodes) :
    ∃ pool, s = some pool ∧ Handled crates input.1 input.2 pool.state handlers := by
  cases s with
  | none => cases h
  | some pool =>
    simp only [poolMachine] at h
    cases hstep : pool.handleEvent crates input.1 input.2 with
    | ok next =>
      rw [hstep] at h
      cases h
      obtain ⟨⟨state, out⟩, hstate, hnext⟩ := bind_eq_ok_iff.mp hstep
      cases hnext
      subst hactive
      exact ⟨pool, rfl, stateStep_handled hstate⟩
    | err e => exact e.elim
    | panic =>
      rw [hstep] at h
      cases h

/-- While all handlers wait, a step leaves no finished handler exactly when its event is one that
leaves none behind. -/
theorem leavesNoneTerminal_iff (hgenerator : (crates.fromBase58 defaultGenerator).isSome)
    (s : Option PoolSM) (input : World × PoolEvent) (hs : HandlersWait s) :
    LeavesNoneTerminal crates s input ↔ Cleared crates s input := by
  constructor
  · rintro hleaves pool ⟨⟩
    cases hstate : pool.state with
    | active handlers nodes =>
      obtain ⟨world, pe⟩ := input
      cases pe with
      | timeout reqId nodeAlias =>
        intro handler hlookup hlast
        exact timeout_left hstate hlookup hlast hleaves
      | sendRequest cmdId msg localTimeout list =>
        change NotRefused crates nodes (PoolEvent.toRequestEvent crates world _)
        cases hevent : PoolEvent.toRequestEvent crates world
            (.sendRequest cmdId msg localTimeout list) with
        | ok re =>
          cases re with
          | none => trivial
          | some event =>
            exact fun hrefused => refused_left hgenerator hstate hevent hrefused hleaves
        | _ => trivial
      | _ => trivial
    | _ => trivial
  · intro hcleared pool' hnext
    cases hstate : pool'.state with
    | active handlers nodes =>
      obtain ⟨pool, rfl, hhandled⟩ := handled_of_step hnext hstate
      obtain ⟨hasked, hnone⟩ := hs pool rfl
      have hclear := hcleared pool rfl
      cases hbefore : pool.state with
      | active handlers₀ nodes₀ =>
        rw [hbefore] at hasked hnone hclear hhandled
        exact noneTerminal_of_cleared hasked hnone hclear hhandled
      | _ =>
        rw [hbefore] at hhandled
        cases hhandled
        exact fun handler hmem => absurd hmem List.not_mem_nil
    | _ => trivial

theorem handlersWait_step (hgenerator : (crates.fromBase58 defaultGenerator).isSome)
    (s : Option PoolSM) (input : World × PoolEvent) (hs : HandlersWait s)
    (hcleared : Cleared crates s input) : HandlersWait ((poolMachine crates).step input s).2 := by
  intro pool' hnext
  refine ⟨?_, (leavesNoneTerminal_iff hgenerator s input hs).mpr hcleared pool' hnext⟩
  cases hstate : pool'.state with
  | active handlers nodes =>
    obtain ⟨pool, rfl, hhandled⟩ := handled_of_step hnext hstate
    exact allAsked_step (hs pool rfl).1 hhandled
  | _ => trivial

/-- No finished handler is found in an active pool, along a run, exactly when no timeout of the run
ends a request and no request of the run is refused when it starts. -/
theorem none_lingers_iff (hgenerator : (crates.fromBase58 defaultGenerator).isSome)
    (poolName : String) (id timeout extendedTimeout : ℤ) (inputs : List (World × PoolEvent)) :
    (poolMachine crates).Along (LeavesNoneTerminal crates)
        (some (.new poolName id timeout extendedTimeout)) inputs ↔
      (poolMachine crates).Along (Cleared crates)
        (some (.new poolName id timeout extendedTimeout)) inputs := by
  refine Machine.along_iff_of_kept (leavesNoneTerminal_iff hgenerator)
    (handlersWait_step hgenerator) inputs ?_
  rintro pool ⟨⟩
  exact ⟨trivial, trivial⟩

instance : DecidablePred PoolState.NoneTerminal
  | .active requestHandlers _ => inferInstanceAs
      (Decidable (∀ handler ∈ requestHandlers.values, ¬ handler.isTerminal))
  | .initialization | .gettingCatchupTarget _ _ _ | .syncCatchup _ _ _ | .terminated | .closed =>
    isTrue trivial

instance (s : Option PoolSM) (input : World × PoolEvent) :
    Decidable (LeavesNoneTerminal crates s input) :=
  inferInstanceAs (Decidable (∀ pool ∈ ((poolMachine crates).step input s).2,
    pool.state.NoneTerminal))

instance (nodes : Nodes) (event : RequestEvent) : Decidable (event.Refused crates nodes) :=
  inferInstanceAs (Decidable (∃ list ∈ event.nodesToSend, ∀ names ∈ stringsFromStr crates list,
    names = [] ∨ ∃ node ∈ names, node ∉ nodes))

instance (nodes : Nodes) : DecidablePred (NotRefused crates nodes)
  | .ok (some event) => inferInstanceAs (Decidable (¬ event.Refused crates nodes))
  | .ok none | .panic => isTrue trivial
  | .err e => e.elim

instance (sm : RequestSM) (nodeAlias : String) :
    DecidablePred (RequestState.LastAwaited world sm nodeAlias)
  | .single _ | .consensus _ => inferInstanceAs (Decidable (_ = _))
  | .full state => inferInstanceAs
      (Decidable (∃ members ∈ (state.accumulate nodeAlias "timeout").asObject,
        members.length = (state.nodesToSend.map List.length).getD sm.nodes.keys.length))
  | .start | .catchupSingle _ | .catchupConsensus _ | .finish => isFalse id

instance (requestHandlers : AssocMap String RequestSM) (nodes : Nodes) :
    DecidablePred (ActiveCleared crates world requestHandlers nodes)
  | .timeout reqId nodeAlias => inferInstanceAs (Decidable (∀ handler ∈
      requestHandlers.lookup reqId, ¬ handler.state.LastAwaited world handler nodeAlias))
  | .sendRequest _ _ _ _ => inferInstanceAs (Decidable (NotRefused crates nodes _))
  | .checkCache _ | .nodeReply _ _ | .close _ | .refresh _ | .poolOutdated | .catchupRestart _
  | .catchupTargetFound _ _ _ | .catchupTargetNotFound _ | .synced _ | .nodesBlacklisted =>
    isTrue trivial

instance (pe : PoolEvent) : DecidablePred (PoolState.Cleared crates world pe)
  | .active requestHandlers nodes => inferInstanceAs
      (Decidable (ActiveCleared crates world requestHandlers nodes pe))
  | .initialization | .gettingCatchupTarget _ _ _ | .syncCatchup _ _ _ | .terminated | .closed =>
    isTrue trivial

instance (s : Option PoolSM) (input : World × PoolEvent) : Decidable (Cleared crates s input) :=
  inferInstanceAs (Decidable (∀ pool ∈ s, pool.state.Cleared crates input.1 input.2))

/-- A node that has replied and then times out for a request that nobody made. -/
theorem none_lingers_replied :
    (poolMachine oneNodeCrates).Along (LeavesNoneTerminal oneNodeCrates)
      (some (.new "pool" 9 20 100))
      [(oneNodeWorld, .checkCache 1), (oneNodeWorld, .nodeReply "status" "Node1"),
        (oneNodeWorld, .sendRequest 2 "request" none none),
        (oneNodeWorld, .timeout "8" "Node1")] :=
  (none_lingers_iff rfl "pool" 9 20 100 _).mpr (by decide +kernel)

/-- A request whose only node times out ends, and its handler stays in the pool. -/
theorem timedOut_lingers :
    ¬ (poolMachine oneNodeCrates).Along (LeavesNoneTerminal oneNodeCrates)
      (some (.new "pool" 9 20 100))
      [(oneNodeWorld, .checkCache 1), (oneNodeWorld, .nodeReply "status" "Node1"),
        (oneNodeWorld, .sendRequest 2 "request" none none),
        (oneNodeWorld, .timeout "7" "Node1")] := by
  decide +kernel

end IndySdk.Pool
