import IndySdk.HandlerRemoval
import IndySdk.SingleReach

/-!
# Requests to all nodes or to a list of nodes

Such a request collects what comes of it at each node and is finished when it has as many outcomes
as nodes are expected. It is run beside a recorder, which remembers the last outcome of every node,
whether it is targeted or not.
-/

namespace IndySdk.Pool

open RequestSM

variable {crates : Crates} {world : World} {sm : RequestSM} {state : FullState}
  {event : RequestEvent} {outcomes : String → Option String} {nodeAlias result : String}

/-- What came of a request at a node: its message or its timeout. -/
def RequestEvent.outcome : RequestEvent → Option (String × String)
  | .reply _ rawMsg nodeAlias _ => some (nodeAlias, rawMsg)
  | .reqNACK _ rawMsg nodeAlias _ => some (nodeAlias, rawMsg)
  | .reject _ rawMsg nodeAlias _ => some (nodeAlias, rawMsg)
  | .timeout _ nodeAlias => some (nodeAlias, "timeout")
  | _ => none

/-- The last outcome of each node, once an event is recorded. -/
def record (outcomes : String → Option String) (event : RequestEvent) : String → Option String :=
  match event.outcome with
  | some (nodeAlias, result) => Function.update outcomes nodeAlias (some result)
  | none => outcomes

def outcomeRecorder : Machine (String → Option String) (World × RequestEvent) Unit where
  step input outcomes := ((), record outcomes input.2)

/-- The nodes that a request is sent to. -/
def FullState.targets (state : FullState) (nodes : Nodes) : Finset String :=
  (state.nodesToSend.map List.toFinset).getD nodes.keySet

/-- Every targeted node has answered, refused or timed out. -/
def AllRecorded (targets : Finset String) (outcomes : String → Option String) : Prop :=
  ∀ node ∈ targets, (outcomes node).isSome

/-- The outcomes of the targeted nodes as a JSON object. -/
structure OutcomesOf (targets : Finset String) (outcomes : String → Option String)
    (members : List (String × Json)) : Prop where
  once : (members.map Prod.fst).Nodup
  keys : ∀ node, node ∈ members.map Prod.fst ↔ node ∈ targets
  values : ∀ node ∈ targets, Json.member? node members = (outcomes node).map Json.str

/-- The request to several nodes that waits for them. -/
def waitingFull : Option RequestSM → Option (RequestSM × FullState)
  | some sm =>
    match sm.state with
    | .full state => some (sm, state)
    | _ => none
  | none => none

def RequestEvent.isTerminate : RequestEvent → Bool
  | .terminate => true
  | _ => false

/-- A step that is not a termination finishes the request exactly when every targeted node has an
outcome. -/
def FinishesWithAll (crates : Crates) (s : Option RequestSM) (outcomes : String → Option String)
    (input : World × RequestEvent) : Prop :=
  ∀ request ∈ waitingFull s, ¬ input.2.isTerminate →
    ∃ sm' ∈ ((requestMachine crates).step input s).2,
      sm'.isTerminal ↔ AllRecorded (request.2.targets request.1.nodes) (record outcomes input.2)

/-- What a step acknowledges: the outcomes of the targeted nodes when it finishes the request, and
nothing when it does not, or when the request was finished before. -/
def AcknowledgesOutcomes (crates : Crates) (s : Option RequestSM)
    (outcomes : String → Option String) (input : World × RequestEvent) : Prop :=
  (∀ request ∈ waitingFull s, ¬ input.2.isTerminate →
    ∀ output ∈ ((requestMachine crates).step input s).1,
      (AllRecorded (request.2.targets request.1.nodes) (record outcomes input.2) →
        ∃ members, output.commands = sendOkReplies request.1.cmdIds (crates.toStr (.obj members)) ∧
          OutcomesOf (request.2.targets request.1.nodes) (record outcomes input.2) members) ∧
      (¬ AllRecorded (request.2.targets request.1.nodes) (record outcomes input.2) →
        output.commands = [])) ∧
  ∀ sm ∈ s, sm.isTerminal → ∀ output ∈ ((requestMachine crates).step input s).1,
    output.commands = []

/-- Only nodes that the request is sent to answer or time out. -/
def FromTargets (s : Option RequestSM) (input : World × RequestEvent) : Prop :=
  ∀ request ∈ waitingFull s, ∀ outcome ∈ input.2.outcome,
    outcome.1 ∈ request.2.targets request.1.nodes

/-! ### One step -/

/-- The outcomes a request has collected. -/
def FullState.members (state : FullState) : List (String × Json) :=
  (state.accumReply.bind Json.asObject).getD []

/-- What is kept while the request waits: it has the outcomes of targeted nodes, and as many are
expected as nodes are targeted. -/
structure FullState.Collecting (state : FullState) (nodes : Nodes)
    (outcomes : String → Option String) : Prop where
  object : ∀ accumReply ∈ state.accumReply, accumReply.isObject
  sorted : (state.members.map Prod.fst).Pairwise (· < ·)
  recorded : ∀ node, Json.member? node state.members = (outcomes node).map Json.str
  targeted : ∀ node, (outcomes node).isSome → node ∈ state.targets nodes
  required : (state.nodesToSend.map List.length).getD nodes.keys.length =
    (state.targets nodes).card

theorem accumulate_eq (hobject : ∀ accumReply ∈ state.accumReply, accumReply.isObject)
    (nodeAlias result : String) : state.accumulate nodeAlias result =
      .obj (Json.putMember nodeAlias (.str result) state.members) := by
  rw [FullState.accumulate, FullState.members]
  cases haccum : state.accumReply with
  | none => rfl
  | some accumReply =>
    cases accumReply with
    | obj members => rfl
    | _ => exact absurd (hobject _ haccum) (by simp [Json.isObject])

theorem mem_keys_iff (h : ∀ node, Json.member? node state.members = (outcomes node).map Json.str)
    (node : String) : node ∈ state.members.map Prod.fst ↔ (outcomes node).isSome := by
  rw [← not_iff_not, ← Json.member?_eq_none_iff, h]
  cases outcomes node with
  | none => simp
  | some result => simp

variable {nodes : Nodes}

theorem collecting_accumulate (h : state.Collecting nodes outcomes)
    (htarget : nodeAlias ∈ state.targets nodes) :
    FullState.Collecting { state with accumReply := some (state.accumulate nodeAlias result) } nodes
      (Function.update outcomes nodeAlias (some result)) := by
  rw [accumulate_eq h.object]
  refine ⟨?_, Json.putMember_sorted h.sorted, ?_, ?_, h.required⟩
  · rintro accumReply ⟨⟩
    rfl
  · intro node
    by_cases he : node = nodeAlias
    · subst he
      rw [Function.update_self]
      exact Json.member?_putMember_self node (.str result) state.members
    · rw [Function.update_of_ne he]
      exact (Json.member?_putMember_of_ne he (.str result) state.members).trans (h.recorded node)
  · intro node hsome
    by_cases he : node = nodeAlias
    · subst he
      exact htarget
    · rw [Function.update_of_ne he] at hsome
      exact h.targeted node hsome

theorem length_eq_iff (h : state.Collecting nodes outcomes) :
    state.members.length = (state.nodesToSend.map List.length).getD nodes.keys.length ↔
      AllRecorded (state.targets nodes) outcomes := by
  have hnodup := Json.nodup_of_sorted h.sorted
  have hcard : (state.members.map Prod.fst).toFinset.card = state.members.length := by
    rw [List.toFinset_card_of_nodup hnodup, List.length_map]
  have hsubset : (state.members.map Prod.fst).toFinset ⊆ state.targets nodes := by
    intro node hnode
    exact h.targeted node ((mem_keys_iff h.recorded node).mp (List.mem_toFinset.mp hnode))
  rw [h.required, ← hcard]
  constructor
  · intro hlength node hnode
    have hall := Finset.eq_of_subset_of_card_le hsubset hlength.ge
    rw [← hall] at hnode
    exact (mem_keys_iff h.recorded node).mp (List.mem_toFinset.mp hnode)
  · intro hall
    apply congrArg Finset.card
    refine Finset.Subset.antisymm hsubset ?_
    intro node hnode
    exact List.mem_toFinset.mpr ((mem_keys_iff h.recorded node).mpr (hall node hnode))

theorem outcomesOf_members (h : state.Collecting nodes outcomes)
    (hall : AllRecorded (state.targets nodes) outcomes) :
    OutcomesOf (state.targets nodes) outcomes state.members := by
  refine ⟨Json.nodup_of_sorted h.sorted, ?_, fun node _ => h.recorded node⟩
  intro node
  rw [mem_keys_iff h.recorded]
  exact ⟨h.targeted node, hall node⟩

/-- What a step of the request is meant to do, by the outcomes recorded after it. -/
structure CollectsTo (crates : Crates) (sm : RequestSM) (state : FullState)
    (outcomes : String → Option String) (next : RequestState) (output : Output) : Prop where
  finished : next = .finish ↔ AllRecorded (state.targets sm.nodes) outcomes
  delivered : AllRecorded (state.targets sm.nodes) outcomes →
    ∃ members, output.commands = sendOkReplies sm.cmdIds (crates.toStr (.obj members)) ∧
      OutcomesOf (state.targets sm.nodes) outcomes members
  silent : ¬ AllRecorded (state.targets sm.nodes) outcomes → output.commands = []
  next : next = .finish ∨ ∃ state', next = .full state' ∧ state'.Collecting sm.nodes outcomes ∧
    state'.targets sm.nodes = state.targets sm.nodes

theorem fullRequest_collects (h : state.Collecting sm.nodes outcomes)
    (htarget : nodeAlias ∈ state.targets sm.nodes) (reqId result : String) :
    ∃ next output, sm.fullRequestHandleConsensusState crates state reqId nodeAlias result =
      .ok (next, output) ∧ CollectsTo crates sm state
        (Function.update outcomes nodeAlias (some result)) next output := by
  let state' : FullState := { state with accumReply := some (state.accumulate nodeAlias result) }
  have hnext : state'.Collecting sm.nodes (Function.update outcomes nodeAlias (some result)) :=
    collecting_accumulate h htarget
  have hiff := length_eq_iff hnext
  have hmembers : state.accumulate nodeAlias result = .obj state'.members := by
    rw [accumulate_eq h.object]
    change _ = Json.obj ((state.accumulate nodeAlias result).asObject.getD [])
    rw [accumulate_eq h.object]
    rfl
  have hobject : (state.accumulate nodeAlias result).asObject = some state'.members := by
    rw [hmembers]
    rfl
  rw [fullRequest_eq, hobject, Outcome.unwrap_some, Outcome.ok_bind]
  by_cases hcount : state'.members.length =
      (state.nodesToSend.map List.length).getD sm.nodes.keys.length
  · have hall := hiff.mp hcount
    have hof := outcomesOf_members hnext hall
    refine ⟨_, _, if_pos hcount, iff_of_true rfl hall, fun _ => ⟨state'.members, ?_, hof⟩,
      fun hnot => absurd hall hnot, .inl rfl⟩
    rw [hmembers]
  · have hnot := mt hiff.mpr hcount
    exact ⟨_, _, if_neg hcount, iff_of_false (by simp) hnot, fun hall => absurd hall hnot,
      fun _ => rfl, .inr ⟨state', rfl, hnext, rfl⟩⟩

theorem fullStep_collects (crates : Crates) (h : state.Collecting sm.nodes outcomes)
    (hwaits : ¬ AllRecorded (state.targets sm.nodes) outcomes) (hgoes : ¬ event.isTerminate)
    (htargets : ∀ outcome ∈ event.outcome, outcome.1 ∈ state.targets sm.nodes) :
    ∃ next output, sm.fullStep crates state event = .ok (next, output) ∧
      CollectsTo crates sm state (record outcomes event) next output := by
  cases event with
  | reply rep rawMsg nodeAlias reqId => exact fullRequest_collects h (htargets _ rfl) reqId rawMsg
  | reqNACK rep rawMsg nodeAlias reqId =>
    exact fullRequest_collects h (htargets _ rfl) reqId rawMsg
  | reject rep rawMsg nodeAlias reqId => exact fullRequest_collects h (htargets _ rfl) reqId rawMsg
  | timeout reqId nodeAlias => exact fullRequest_collects h (htargets _ rfl) reqId "timeout"
  | terminate => exact absurd rfl hgoes
  | _ =>
    exact ⟨.full state, {}, rfl, iff_of_false (by simp) hwaits, fun hall => absurd hall hwaits,
      fun _ => rfl, .inr ⟨state, rfl, h, rfl⟩⟩

/-! ### Runs -/

/-- A request that is finished, or waits for a targeted node with the recorded outcomes
collected. -/
def FullWaits (s : Option RequestSM) (outcomes : String → Option String) : Prop :=
  ∃ sm, s = some sm ∧ (sm.state = .finish ∨ ∃ state, sm.state = .full state ∧
    state.Collecting sm.nodes outcomes ∧ ¬ AllRecorded (state.targets sm.nodes) outcomes)

theorem eq_terminate (h : event.isTerminate) : event = .terminate := by
  cases event with
  | terminate => rfl
  | _ => cases h

theorem isTerminal_with {next : RequestState} :
    isTerminal { sm with state := next } ↔ next = .finish := isTerminal_iff

theorem step_fullWaits (s : Option RequestSM) (outcomes : String → Option String)
    (input : World × RequestEvent) (h : FullWaits s outcomes) (hfrom : FromTargets s input) :
    (FinishesWithAll crates s outcomes input ∧ AcknowledgesOutcomes crates s outcomes input) ∧
      FullWaits ((requestMachine crates).step input s).2 (record outcomes input.2) := by
  obtain ⟨sm, rfl, hfinish | ⟨state, hstate, hcollecting, hwaits⟩⟩ := h
  · have hstep : sm.stateStep crates input.1 input.2 = .ok (.finish, {}) := by
      rw [stateStep, hfinish]
    have hwaiting : waitingFull (some sm) = none := by
      simp only [waitingFull, hfinish]
    rw [FinishesWithAll, AcknowledgesOutcomes, hwaiting, requestMachine_step_of_ok hstep]
    refine ⟨⟨?_, ?_, ?_⟩, _, rfl, .inl rfl⟩
    · rintro request ⟨⟩
    · rintro request ⟨⟩
    · rintro sm' - - output ⟨⟩
      rfl
  · have hwaiting : waitingFull (some sm) = some (sm, state) := by
      simp only [waitingFull, hstate]
    have hlive : ¬ sm.isTerminal := by
      rw [isTerminal_iff, hstate]
      simp
    rw [FinishesWithAll, AcknowledgesOutcomes, hwaiting]
    by_cases hterminate : input.2.isTerminate
    · have hstep : sm.stateStep crates input.1 input.2 = .ok sm.terminateRequest := by
        rw [eq_terminate hterminate, stateStep, hstate]
        rfl
      rw [requestMachine_step_of_ok hstep]
      refine ⟨⟨?_, ?_, ?_⟩, _, rfl, .inl rfl⟩
      · exact fun _ _ hgoes => absurd hterminate hgoes
      · exact fun _ _ hgoes => absurd hterminate hgoes
      · rintro sm' ⟨⟩ hterminal
        exact absurd hterminal hlive
    · obtain ⟨next, output, hok, hcollects⟩ := fullStep_collects crates hcollecting hwaits
        hterminate (hfrom (sm, state) hwaiting)
      have hstep : sm.stateStep crates input.1 input.2 = .ok (next, output) := by
        rw [stateStep, hstate]
        exact hok
      rw [requestMachine_step_of_ok hstep]
      refine ⟨⟨?_, ?_, ?_⟩, _, rfl, ?_⟩
      · rintro request ⟨⟩ -
        exact ⟨_, rfl, isTerminal_with.trans hcollects.finished⟩
      · rintro request ⟨⟩ - output ⟨⟩
        exact ⟨hcollects.delivered, hcollects.silent⟩
      · rintro sm' ⟨⟩ hterminal
        exact absurd hterminal hlive
      · by_cases hnext : next = .finish
        · exact .inl hnext
        · right
          obtain ⟨state', rfl, hcollecting', htargets⟩ := hcollects.next.resolve_left hnext
          refine ⟨state', rfl, hcollecting', ?_⟩
          rw [htargets]
          exact mt hcollects.finished.mpr hnext

/-- The nodes a request is sent to: all nodes of a pool that has some, or nodes that are listed
once. -/
def ListedOnce (crates : Crates) (nodes : Nodes) : Option String → Prop
  | none => nodes ≠ ∅
  | some list => ∀ names ∈ stringsFromStr crates list, names.Nodup

theorem collecting_start {list : Option (List String)}
    (hrequired : (list.map List.length).getD nodes.keys.length =
      (FullState.targets ⟨none, list⟩ nodes).card) :
    FullState.Collecting ⟨none, list⟩ nodes (fun _ => none) := by
  refine ⟨?_, List.Pairwise.nil, fun node => rfl, ?_, hrequired⟩
  · rintro accumReply ⟨⟩
  · intro node hsome
    cases hsome

theorem not_allRecorded_start {targets : Finset String} (h : targets.Nonempty) :
    ¬ AllRecorded targets (fun _ => none) := by
  obtain ⟨node, hnode⟩ := h
  intro hall
  cases hall node hnode

theorem start_fullWaits (hstart : sm.state = .start) (world : World) (msg reqId : String)
    (localTimeout : Option ℤ) {nodesToSend : Option String}
    (hlisted : ListedOnce crates sm.nodes nodesToSend) :
    ∃ next output, sm.stateStep crates world (.customFullRequest msg reqId localTimeout
        nodesToSend) = .ok (next, output) ∧
      FullWaits (some { sm with state := next }) (fun _ => none) := by
  rw [stateStep, hstart]
  simp only [startStep, startFull]
  cases nodesToSend with
  | none =>
    refine ⟨_, _, rfl, _, rfl, .inr ⟨_, rfl, collecting_start ?_, not_allRecorded_start ?_⟩⟩
    · exact (ConsensusState.card_keySet sm.nodes).symm
    · obtain ⟨node, hnode⟩ : ∃ node, node ∈ sm.nodes := by
        by_contra hnone
        push Not at hnone
        apply hlisted
        apply AList.ext
        exact List.eq_nil_iff_forall_not_mem.mpr (fun s hs =>
          hnone s.1 (AList.mem_keys.mpr (List.mem_map_of_mem hs)))
      exact ⟨node, ConsensusState.mem_keySet_of_mem hnode⟩
  | some list =>
    cases hread : stringsFromStr crates list with
    | none =>
      simp only [hread]
      exact ⟨.finish, _, rfl, _, rfl, .inl rfl⟩
    | some names =>
      simp only [hread]
      by_cases hknown : names ≠ [] ∧ ∀ node ∈ names, node ∈ sm.nodes
      · simp only [if_pos hknown]
        refine ⟨_, _, rfl, _, rfl, .inr ⟨_, rfl, collecting_start ?_, not_allRecorded_start ?_⟩⟩
        · exact (List.toFinset_card_of_nodup (hlisted names hread)).symm
        · exact (List.toFinset_nonempty_iff names).mpr hknown.1
      · simp only [if_neg hknown]
        exact ⟨.finish, _, rfl, _, rfl, .inl rfl⟩

/-- A request to all nodes, or to a list without repetitions, that only targeted nodes answer is
finished when the last of them has an outcome, and delivers the outcomes of just these nodes. -/
theorem full_finishes_with_all (hstart : sm.state = .start) (world : World) (msg reqId : String)
    (localTimeout : Option ℤ) (nodesToSend : Option String)
    (hlisted : ListedOnce crates sm.nodes nodesToSend) (inputs : List (World × RequestEvent))
    (hfrom : (requestMachine crates).Along FromTargets (some sm)
      ((world, .customFullRequest msg reqId localTimeout nodesToSend) :: inputs)) :
    (requestMachine crates).Together outcomeRecorder
      (fun s outcomes input => FinishesWithAll crates s outcomes input ∧
        AcknowledgesOutcomes crates s outcomes input)
      (some sm) (fun _ => none)
      ((world, .customFullRequest msg reqId localTimeout nodesToSend) :: inputs) := by
  obtain ⟨next, output, hstep, hwaits⟩ :=
    start_fullWaits hstart world msg reqId localTimeout hlisted
  have hwaiting : waitingFull (some sm) = none := by
    simp only [waitingFull, hstart]
  obtain ⟨-, hfrom⟩ := hfrom
  refine ⟨⟨?_, ?_, ?_⟩, ?_⟩
  · rw [FinishesWithAll, hwaiting]
    rintro request ⟨⟩
  · rw [hwaiting]
    rintro request ⟨⟩
  · rintro sm' ⟨⟩ hterminal
    rw [isTerminal_iff, hstart] at hterminal
    cases hterminal
  · rw [requestMachine_step_of_ok hstep] at hfrom ⊢
    exact Machine.together_of_along step_fullWaits hwaits hfrom

instance (targets : Finset String) (outcomes : String → Option String) :
    Decidable (AllRecorded targets outcomes) :=
  inferInstanceAs (Decidable (∀ node ∈ targets, (outcomes node).isSome))

instance (s : Option RequestSM) (outcomes : String → Option String)
    (input : World × RequestEvent) : Decidable (FinishesWithAll crates s outcomes input) :=
  inferInstanceAs (Decidable (∀ request ∈ waitingFull s, ¬ input.2.isTerminate →
    ∃ sm' ∈ ((requestMachine crates).step input s).2, sm'.isTerminal ↔
      AllRecorded (request.2.targets request.1.nodes) (record outcomes input.2)))

instance (s : Option RequestSM) (input : World × RequestEvent) : Decidable (FromTargets s input) :=
  inferInstanceAs (Decidable (∀ request ∈ waitingFull s, ∀ outcome ∈ input.2.outcome,
    outcome.1 ∈ request.2.targets request.1.nodes))

/-- A parser that knows two lists of nodes. -/
def listCrates : Crates :=
  { Crates.none with
    fromStr := fun s =>
      if s = "[\"Node1\",\"Node1\"]" then some (.arr [.str "Node1", .str "Node1"])
      else some (.arr [.str "Node2", .str "Node1"]) }

/-- A restart of the pool sent to the nodes of a list. -/
def restarted (list : String) : World × RequestEvent :=
  (World.at 0, .customFullRequest "request" "1" none (some list))

/-- One of two nodes answers after it timed out. -/
theorem full_finishes_with_all_two :
    (requestMachine listCrates).Together outcomeRecorder
      (fun s outcomes input => FinishesWithAll listCrates s outcomes input ∧
        AcknowledgesOutcomes listCrates s outcomes input)
      (some fourNodesRequest) (fun _ => none)
      [restarted "[\"Node2\",\"Node1\"]", timeoutOf "Node1", replyOf "Node1" "a",
        replyOf "Node2" "b", replyOf "Node3" "late"] := by
  refine full_finishes_with_all rfl (World.at 0) "request" "1" none
    (some "[\"Node2\",\"Node1\"]") ?_ [timeoutOf "Node1", replyOf "Node1" "a",
      replyOf "Node2" "b", replyOf "Node3" "late"] (by decide +kernel)
  rintro names ⟨⟩
  decide

/-- A node that is listed twice is waited for after it has answered, and the answer of a node that
is not listed finishes the request before the listed nodes have answered. -/
theorem listed_twice_waits :
    ¬ (requestMachine listCrates).Together outcomeRecorder
      (fun s outcomes input => FinishesWithAll listCrates s outcomes input ∧
        AcknowledgesOutcomes listCrates s outcomes input)
      (some fourNodesRequest) (fun _ => none)
      [restarted "[\"Node1\",\"Node1\"]", replyOf "Node1" "a"] ∧
    ¬ (requestMachine listCrates).Together outcomeRecorder
      (fun s outcomes input => FinishesWithAll listCrates s outcomes input ∧
        AcknowledgesOutcomes listCrates s outcomes input)
      (some fourNodesRequest) (fun _ => none)
      [restarted "[\"Node2\",\"Node1\"]", replyOf "Node1" "a", replyOf "Node3" "b"] := by
  constructor
  · rintro ⟨-, ⟨hfinishes, -⟩, -⟩
    revert hfinishes
    decide +kernel
  · rintro ⟨-, -, ⟨hfinishes, -⟩, -⟩
    revert hfinishes
    decide +kernel

end IndySdk.Pool
