import IndySdk.RequestSteps

/-!
# Agreement among nodes some of which lie

The nodes that answer in one bucket agree on the result of their messages, not on the kind of the
messages. When at most `f` nodes are not honest, the result that more than `f` of them agree on is
one that an honest node sent.
-/

namespace IndySdk.Pool

open RequestSM List AList

variable {crates : Crates}

/-- The node sent the message, as a message of the kind, among the inputs. -/
def Sent (inputs : List (World × RequestEvent)) (op : OpType) (rawMsg nodeAlias : String) : Prop :=
  ∃ input ∈ inputs, input.2.vote = some (op, rawMsg, nodeAlias)

variable {inputs : List (World × RequestEvent)} {rawMsg nodeAlias : String} {event : RequestEvent}

theorem Sent.append {op : OpType} (h : Sent inputs op rawMsg nodeAlias)
    (more : List (World × RequestEvent)) : Sent (inputs ++ more) op rawMsg nodeAlias := by
  obtain ⟨input, hmem, hvote⟩ := h
  exact ⟨input, mem_append_left more hmem, hvote⟩

theorem sent_last (inputs : List (World × RequestEvent)) {world : World} {op : OpType}
    (h : event.vote = some (op, rawMsg, nodeAlias)) :
    Sent (inputs ++ [(world, event)]) op rawMsg nodeAlias :=
  ⟨(world, event), mem_append_right inputs (mem_singleton_self _), h⟩

/-- The node sent a message with the result. -/
def SentResult (crates : Crates) (inputs : List (World × RequestEvent)) (result : Json)
    (nodeAlias : String) : Prop :=
  ∃ op rawMsg, Sent inputs op rawMsg nodeAlias ∧ resultOf crates rawMsg = some result

/-- Every vote that a request has counted was sent, with the result it is counted for. -/
def VotesSent (crates : Crates) (inputs : List (World × RequestEvent)) : RequestState → Prop
  | .consensus state => ∀ result set, state.replies.lookup result = some set →
      ∀ nodeAlias ∈ set, SentResult crates inputs result nodeAlias
  | .single state => ∀ result set, state.replies.lookup result = some set →
      ∀ nodeAlias resp, set.lookup nodeAlias = some resp →
        ∃ op, Sent inputs op resp.rawMsg nodeAlias ∧ resultOf crates resp.rawMsg = some result
  | _ => True

theorem VotesSent.append {state : RequestState} (h : VotesSent crates inputs state)
    (more : List (World × RequestEvent)) :
    VotesSent crates (inputs ++ more) state := by
  cases state with
  | consensus state =>
    intro result set hset nodeAlias hmem
    obtain ⟨op, rawMsg, hsent, hresult⟩ := h result set hset nodeAlias hmem
    exact ⟨op, rawMsg, hsent.append more, hresult⟩
  | single state =>
    intro result set hset nodeAlias resp hresp
    obtain ⟨op, hsent, hresult⟩ := h result set hset nodeAlias resp hresp
    exact ⟨op, hsent.append more, hresult⟩
  | _ => trivial

theorem lookup_insertNew {set : NodeResponses} {resp r : NodeResponse}
    (h : (set.insertNew resp).lookup nodeAlias = some r) :
    set.lookup nodeAlias = some r ∨ (nodeAlias = resp.nodeAlias ∧ r = resp) := by
  rw [NodeResponses.insertNew] at h
  split_ifs at h with hold
  · exact .inl h
  · by_cases hsame : nodeAlias = resp.nodeAlias
    · rw [hsame, lookup_insert] at h
      exact .inr ⟨hsame, (Option.some.inj h).symm⟩
    · rw [lookup_insert_ne hsame] at h
      exact .inl h

theorem lookup_getD_empty {κ α β : Type*} [DecidableEq κ] [DecidableEq β]
    {m : AssocMap κ (AssocMap β α)} {k : κ} {b : β} {a : α}
    (h : ((m.lookup k).getD ∅).lookup b = some a) :
    ∃ set, m.lookup k = some set ∧ set.lookup b = some a := by
  cases hk : m.lookup k with
  | none =>
    rw [hk, Option.getD_none, lookup_empty] at h
    cases h
  | some set =>
    rw [hk] at h
    exact ⟨set, rfl, h⟩

variable {state : ConsensusState} {result : Json} {next : RequestState} {output : Output}

theorem votesWith_sent (world : World) {op : OpType}
    (h : VotesSent crates inputs (.consensus state))
    (hvote : event.vote = some (op, rawMsg, nodeAlias))
    (hresult : resultOf crates rawMsg = some result) :
    ∀ voter ∈ state.votesWith result nodeAlias,
      SentResult crates (inputs ++ [(world, event)]) result voter := by
  intro voter hvoter
  rcases Finset.mem_insert.mp hvoter with rfl | hvoter
  · exact ⟨op, rawMsg, sent_last inputs hvote, hresult⟩
  · cases hset : state.replies.lookup result with
    | none =>
      rw [hset] at hvoter
      exact absurd hvoter (Finset.notMem_empty voter)
    | some set =>
      rw [hset] at hvoter
      exact h.append [(world, event)] result set hset voter hvoter

theorem responsesWith_sent (world : World) {state : SingleState} {op : OpType} (timestamp : ℕ)
    (h : VotesSent crates inputs (.single state))
    (hvote : event.vote = some (op, rawMsg, nodeAlias))
    (hresult : resultOf crates rawMsg = some result) (voter : String) (resp : NodeResponse)
    (hresp : (state.responsesWith result ⟨rawMsg, nodeAlias, timestamp⟩).lookup voter =
      some resp) :
    ∃ op, Sent (inputs ++ [(world, event)]) op resp.rawMsg voter ∧
      resultOf crates resp.rawMsg = some result := by
  rcases lookup_insertNew hresp with hold | ⟨hvoter, hnew⟩
  · obtain ⟨set, hset, hlookup⟩ := lookup_getD_empty hold
    exact h.append [(world, event)] result set hset voter resp hlookup
  · rw [hvoter, hnew]
    exact ⟨op, sent_last inputs hvote, hresult⟩

theorem votesSent_insert_consensus {state' : ConsensusState} {voters : Finset String}
    (h : VotesSent crates inputs (.consensus state))
    (hvoters : ∀ voter ∈ voters, SentResult crates inputs result voter)
    (hreplies : state'.replies = state.replies.insert result voters) :
    VotesSent crates inputs (.consensus state') := by
  intro result' set hset voter hvoter
  rw [hreplies] at hset
  by_cases hsame : result' = result
  · rw [hsame, lookup_insert, Option.some_inj] at hset
    rw [hsame]
    exact hvoters voter (hset ▸ hvoter)
  · rw [lookup_insert_ne hsame] at hset
    exact h result' set hset voter hvoter

theorem votesSent_insert_single {state state' : SingleState} {responses : NodeResponses}
    (h : VotesSent crates inputs (.single state))
    (hresponses : ∀ voter resp, responses.lookup voter = some resp →
      ∃ op, Sent inputs op resp.rawMsg voter ∧ resultOf crates resp.rawMsg = some result)
    (hreplies : state'.replies = state.replies.insert result responses) :
    VotesSent crates inputs (.single state') := by
  intro result' set hset voter resp hresp
  rw [hreplies] at hset
  by_cases hsame : result' = result
  · rw [hsame, lookup_insert, Option.some_inj] at hset
    rw [hsame]
    exact hresponses voter resp (hset ▸ hresp)
  · rw [lookup_insert_ne hsame] at hset
    exact h result' set hset voter resp hresp

variable {world : World} {sm : RequestSM}

theorem votesSent_single_empty (inputs : List (World × RequestEvent)) :
    VotesSent crates inputs (.single ⟨∅, ∅, ∅⟩) := by
  intro result set hset
  rw [lookup_empty] at hset
  cases hset

theorem votesSent_consensus_empty (inputs : List (World × RequestEvent)) :
    VotesSent crates inputs (.consensus ⟨∅, ∅, ∅⟩) := by
  intro result set hset
  rw [lookup_empty] at hset
  cases hset

/-- A request starts without votes. -/
theorem startStep_votesSent (h : sm.startStep crates world event = .ok (next, output)) :
    VotesSent crates inputs next := by
  cases event with
  | ledgerStatus status nodeAlias merkle =>
    cases merkle with
    | none =>
      cases h
      trivial
    | some merkle =>
      cases h
      trivial
  | catchupReq merkle targetMtSize targetMtRoot =>
    rw [startStep] at h
    cases hreq : buildCatchupReq crates world merkle targetMtSize with
    | ok req =>
      rw [hreq] at h
      cases req with
      | none =>
        cases h
        trivial
      | some req =>
        cases h
        trivial
    | err e =>
      rw [hreq] at h
      cases h
      trivial
    | panic =>
      rw [hreq] at h
      cases h
  | customSingleRequest msg reqId =>
    cases h
    exact votesSent_single_empty inputs
  | customConsensusRequest msg reqId =>
    cases h
    exact votesSent_consensus_empty inputs
  | customFullRequest msg reqId timeout nodes =>
    rw [startStep, Outcome.ok.injEq] at h
    unfold startFull at h
    split at h
    · cases h
      trivial
    · split at h
      · split_ifs at h with hknown
        · cases h
          trivial
        · cases h
          trivial
      · cases h
        trivial
  | _ =>
    cases h
    trivial

theorem catchupTarget_votesSent {state : CatchupConsensusState} {mtRoot : String} {sz : ℕ}
    {consProof : Option (List String)} {reqId : String}
    (h : sm.catchupTargetHandleConsensusState crates world state mtRoot sz consProof nodeAlias
      reqId = .ok (next, output)) : VotesSent crates inputs next := by
  obtain ⟨⟨finished, result, state'⟩, -, h⟩ := Outcome.bind_eq_ok_iff.mp h
  cases finished with
  | true =>
    cases h
    trivial
  | false =>
    simp only [Bool.false_eq_true, if_false] at h
    split at h
    · cases h
      trivial
    · cases h
      trivial

theorem catchupConsensusStep_votesSent {state : CatchupConsensusState}
    (h : sm.catchupConsensusStep crates world state event = .ok (next, output)) :
    VotesSent crates inputs next := by
  cases event with
  | ledgerStatus status nodeAlias merkle =>
    cases nodeAlias with
    | none =>
      cases h
      trivial
    | some nodeAlias => exact catchupTarget_votesSent h
  | consistencyProof proof nodeAlias => exact catchupTarget_votesSent h
  | timeout reqId nodeAlias => exact catchupTarget_votesSent h
  | _ =>
    cases h
    trivial

theorem catchupSingleStep_votesSent {state : CatchupSingleState}
    (h : sm.catchupSingleStep crates world state event = .ok (next, output)) :
    VotesSent crates inputs next := by
  cases event with
  | catchupRep rep nodeAlias =>
    rw [catchupSingleStep] at h
    split at h
    · cases h
      trivial
    · cases h
      trivial
    · cases h
  | _ =>
    cases h
    trivial

theorem fullReply_votesSent {state : FullState} {reqId nodeResult : String}
    (h : sm.fullRequestHandleConsensusState crates state reqId nodeAlias nodeResult =
      .ok (next, output)) : VotesSent crates inputs next := by
  obtain ⟨members, -, h⟩ := Outcome.bind_eq_ok_iff.mp h
  split_ifs at h with hall
  · cases h
    trivial
  · cases h
    trivial

theorem fullStep_votesSent {state : FullState}
    (h : sm.fullStep crates state event = .ok (next, output)) : VotesSent crates inputs next := by
  cases event with
  | reply rep rawMsg nodeAlias reqId => exact fullReply_votesSent h
  | reqNACK rep rawMsg nodeAlias reqId => exact fullReply_votesSent h
  | reject rep rawMsg nodeAlias reqId => exact fullReply_votesSent h
  | timeout reqId nodeAlias => exact fullReply_votesSent h
  | _ =>
    cases h
    trivial

theorem consensusStep_votesSent (hsent : VotesSent crates inputs (.consensus state))
    (h : sm.consensusStep crates world state event = .ok (next, output)) :
    VotesSent crates (inputs ++ [(world, event)]) next := by
  rcases consensusStep_ok h with ⟨op, rawMsg, nodeAlias, hvote, result, hresult, hcase⟩ | hkept
  · rcases hcase with ⟨-, rfl, -⟩ | ⟨-, rfl | ⟨state', rfl, hreplies⟩⟩
    · trivial
    · trivial
    · exact votesSent_insert_consensus (hsent.append _) (votesWith_sent world hsent hvote hresult)
        hreplies
  · obtain ⟨-, rfl | ⟨state', rfl, hreplies⟩⟩ := hkept
    · trivial
    · have happend := hsent.append [(world, event)]
      rwa [VotesSent, hreplies]

theorem singleStep_votesSent {state : SingleState} (hsent : VotesSent crates inputs (.single state))
    (h : sm.singleStep crates world state event = .ok (next, output)) :
    VotesSent crates (inputs ++ [(world, event)]) next := by
  rcases singleStep_ok h with ⟨op, rawMsg, nodeAlias, hvote, hanswered⟩ | hkept
  · cases hanswered with
    | agreed _ _ _ _ _ _ _ hnext =>
      rw [hnext]
      trivial
    | alone _ _ _ _ _ _ _ _ hnext =>
      rw [hnext]
      trivial
    | kept msgResult result signedTime hresult hsilent hnext =>
      rcases hnext with rfl | ⟨state', rfl, hreplies⟩
      · trivial
      · have hof : resultOf crates rawMsg = some result := by rw [resultOf, hresult]
        exact votesSent_insert_single (hsent.append _)
          (responsesWith_sent world (signedTime.getD 0) hsent hvote hof) hreplies
  · obtain ⟨-, rfl | ⟨state', rfl, hreplies⟩⟩ := hkept
    · trivial
    · have happend := hsent.append [(world, event)]
      rwa [VotesSent, hreplies]

theorem stateStep_votesSent (hsent : VotesSent crates inputs sm.state)
    (h : sm.stateStep crates world event = .ok (next, output)) :
    VotesSent crates (inputs ++ [(world, event)]) next := by
  rw [stateStep] at h
  cases hstate : sm.state with
  | start =>
    rw [hstate] at h
    exact startStep_votesSent h
  | consensus state =>
    rw [hstate] at h hsent
    exact consensusStep_votesSent hsent h
  | single state =>
    rw [hstate] at h hsent
    exact singleStep_votesSent hsent h
  | catchupConsensus state =>
    rw [hstate] at h
    exact catchupConsensusStep_votesSent h
  | catchupSingle state =>
    rw [hstate] at h
    exact catchupSingleStep_votesSent h
  | full state =>
    rw [hstate] at h
    exact fullStep_votesSent h
  | finish =>
    rw [hstate] at h
    cases h
    trivial

theorem run_votesSent {past : List (World × RequestEvent)} {s : Option RequestSM} {nodes : Nodes}
    {f : ℕ} (h : ∀ sm, s = some sm → sm.nodes = nodes ∧ sm.f = f ∧ VotesSent crates past sm.state) :
    ∀ sm, (requestMachine crates).run inputs s = some sm →
      sm.nodes = nodes ∧ sm.f = f ∧ VotesSent crates (past ++ inputs) sm.state := by
  induction inputs generalizing past s with
  | nil =>
    rw [append_nil]
    exact h
  | cons input inputs ih =>
    rw [Machine.run, append_cons]
    apply ih
    intro sm hsm
    rcases @requestMachine_step_cases crates s input with ⟨output, hout⟩ | hnone
    · obtain ⟨sm', next, rfl, hstep, hnext⟩ := requestMachine_step_some hout
      rw [hnext] at hsm
      cases hsm
      obtain ⟨hnodes, hf, hsent⟩ := h sm' rfl
      exact ⟨hnodes, hf, stateStep_votesSent hsent hstep⟩
    · rw [hnone] at hsm
      cases hsm

theorem exists_honest {nodes : Nodes} {honest : String → Prop} [DecidablePred honest] {f : ℕ}
    (hfaulty : (nodes.keySet.filter (fun node => ¬ honest node)).card ≤ f) {voters : Finset String}
    (hvoters : voters ⊆ nodes.keySet) (hcard : f < voters.card) :
    ∃ voter ∈ voters, honest voter := by
  by_contra hnone
  push Not at hnone
  have hsub : voters ⊆ nodes.keySet.filter (fun node => ¬ honest node) := by
    intro voter hvoter
    exact Finset.mem_filter.mpr ⟨hvoters hvoter, hnone voter hvoter⟩
  have hle := Finset.card_le_card hsub
  omega

/-- A response of the single state is accepted for its own proof, short of agreement. -/
def AcceptedAlone (crates : Crates) (world : World) (sm : RequestSM) (event : RequestEvent)
    (msg : String) : Prop :=
  ∃ state op nodeAlias msgResult result signedTime, sm.state = .single state ∧
    event.vote = some (op, msg, nodeAlias) ∧
    getMsgResultWithoutStateProof crates msg = .ok (msgResult, result) ∧
    getLastSignedTime crates msg = .ok signedTime ∧
    (state.responsesWith result ⟨msg, nodeAlias, signedTime.getD 0⟩).keys.length ≤ sm.f ∧
    sm.acceptedAlone crates world msgResult (signedTime.getD 0) msg = .ok true

/-- The request waits for votes on a result. -/
def RequestSM.CountsVotes (sm : RequestSM) : Prop :=
  (∃ state, sm.state = .consensus state) ∨ ∃ state, sm.state = .single state

theorem keySet_responses {set : NodeResponses} {voter : String} (h : voter ∈ set.keySet) :
    ∃ resp, set.lookup voter = some resp := AssocMap.mem_keySet.mp h

theorem card_keySet_responses (set : NodeResponses) : set.keySet.card = set.keys.length :=
  toFinset_card_of_nodup set.keys_nodup

theorem soonest_mem {set : NodeResponses} {rawMsg : String} :
    soonest world set rawMsg = rawMsg ∨ ∃ voter resp, set.lookup voter = some resp ∧
      soonest world set rawMsg = resp.rawMsg := by
  rw [soonest]
  cases hmax : maxByKey NodeResponse.timestamp (world.order.order set.values) with
  | none => exact .inl rfl
  | some resp =>
    have hmem := world.order.mem_order.mp (maxByKey_mem hmax)
    obtain ⟨voter, hvoter⟩ := AssocMap.mem_values.mp hmem
    exact .inr ⟨voter, resp, hvoter, rfl⟩

/-- The delivered message was sent with a result that an honest node sent as well. -/
def HonestResult (crates : Crates) (honest : String → Prop)
    (inputs : List (World × RequestEvent)) (msg : String) : Prop :=
  ∃ result, resultOf crates msg = some result ∧
    (∃ op nodeAlias, Sent inputs op msg nodeAlias) ∧
    ∃ nodeAlias, honest nodeAlias ∧ SentResult crates inputs result nodeAlias

section

variable {honest : String → Prop} [DecidablePred honest] {inputs : List (World × RequestEvent)}
  {event : RequestEvent} {next : RequestState} {output : Output} {msg : String}
  (hfaulty : (sm.nodes.keySet.filter (fun node => ¬ honest node)).card ≤ sm.f)
  (hsenders : ∀ op rawMsg nodeAlias, Sent (inputs ++ [(world, event)]) op rawMsg nodeAlias →
    nodeAlias ∈ sm.nodes.keySet)

include hfaulty hsenders

theorem consensus_delivers_honest {state : ConsensusState}
    (hsent : VotesSent crates inputs (.consensus state))
    (hstep : sm.consensusStep crates world state event = .ok (next, output))
    (hmsg : output.Delivers msg) :
    HonestResult crates honest (inputs ++ [(world, event)]) msg := by
  rcases consensusStep_ok hstep with ⟨op, rawMsg, nodeAlias, hvote, result, hresult, hcase⟩ | hkept
  · rcases hcase with ⟨hcard, -, hcommands⟩ | ⟨hsilent, -⟩
    · cases eq_of_delivers hcommands hmsg
      have hall := votesWith_sent world hsent hvote hresult
      have hsub : state.votesWith result nodeAlias ⊆ sm.nodes.keySet := by
        intro voter hvoter
        obtain ⟨op', rawMsg', hs, -⟩ := hall voter hvoter
        exact hsenders op' rawMsg' voter hs
      obtain ⟨voter, hvoter, hhonest⟩ := exists_honest hfaulty hsub hcard
      exact ⟨result, hresult, ⟨op, nodeAlias, sent_last inputs hvote⟩, voter, hhonest,
        hall voter hvoter⟩
    · exact absurd hmsg (hsilent msg)
  · exact absurd hmsg (hkept.1 msg)

theorem single_delivers_honest {state : SingleState} (hstate : sm.state = .single state)
    (hsent : VotesSent crates inputs (.single state))
    (hstep : sm.singleStep crates world state event = .ok (next, output))
    (hmsg : output.Delivers msg) :
    AcceptedAlone crates world sm event msg ∨
      HonestResult crates honest (inputs ++ [(world, event)]) msg := by
  rcases singleStep_ok hstep with ⟨op, rawMsg, nodeAlias, hvote, hanswered⟩ | hkept
  · cases hanswered with
    | agreed msgResult result signedTime hresult htime hcount hcommands hnext =>
      right
      have hof : resultOf crates rawMsg = some result := by rw [resultOf, hresult]
      have hall := responsesWith_sent world (signedTime.getD 0) hsent hvote hof
      have hsub : (state.responsesWith result
          ⟨rawMsg, nodeAlias, signedTime.getD 0⟩).keySet ⊆ sm.nodes.keySet := by
        intro voter hvoter
        obtain ⟨resp, hresp⟩ := keySet_responses hvoter
        obtain ⟨op', hs, -⟩ := hall voter resp hresp
        exact hsenders op' resp.rawMsg voter hs
      rw [← card_keySet_responses] at hcount
      obtain ⟨voter, hvoter, hhonest⟩ := exists_honest hfaulty hsub hcount
      obtain ⟨resp, hresp⟩ := keySet_responses hvoter
      obtain ⟨op', hs, hr⟩ := hall voter resp hresp
      have heq := eq_of_delivers hcommands hmsg
      rcases @soonest_mem world (state.responsesWith result
          ⟨rawMsg, nodeAlias, signedTime.getD 0⟩) rawMsg with hraw | ⟨voter', resp', hresp', hraw⟩
      · rw [heq, hraw]
        exact ⟨result, hof, ⟨op, nodeAlias, sent_last inputs hvote⟩, voter, hhonest, op',
          resp.rawMsg, hs, hr⟩
      · obtain ⟨op'', hs', hr'⟩ := hall voter' resp' hresp'
        rw [heq, hraw]
        exact ⟨result, hr', ⟨op'', voter', hs'⟩, voter, hhonest, op', resp.rawMsg, hs, hr⟩
    | alone msgResult result signedTime hresult htime hcount haccepted hcommands hnext =>
      cases eq_of_delivers hcommands hmsg
      exact .inl ⟨state, op, nodeAlias, msgResult, result, signedTime, hstate, hvote, hresult,
        htime, hcount, haccepted⟩
    | kept _ _ _ _ hsilent _ => exact absurd hmsg (hsilent msg)
  · exact absurd hmsg (hkept.1 msg)

end

/-- A refusal and a rejection, neither of which has a result. -/
def nackText : String := "\x7b\"op\":\"REQNACK\",\"reqId\":1,\"reason\":\"invalid\"\x7d"

def rejectText : String := "\x7b\"op\":\"REJECT\",\"reqId\":1,\"reason\":\"denied\"\x7d"

def refusalJson (op reason : String) : Json :=
  .obj [("op", .str op), ("reqId", .int 1), ("reason", .str reason)]

def refusalCrates : Crates :=
  { Crates.none with
    fromStr := fun s => List.lookup s [(nackText, refusalJson "REQNACK" "invalid"),
      (rejectText, refusalJson "REJECT" "denied")] }

def fourNodes : Nodes :=
  [⟨"Node1", none⟩, ⟨"Node2", none⟩, ⟨"Node3", none⟩, ⟨"Node4", none⟩].toAList

def fourNodesRequest : RequestSM := ⟨1, [7], fourNodes, [], "pool", 20, 100, .start⟩

/-- A consensus request that one node refuses. -/
def refusedOnce : List (World × RequestEvent) :=
  [(World.at 0, .customConsensusRequest "request" "1"),
    (World.at 0, .reqNACK (.responseV0 1) nackText "Node1" "1")]

/-- The second node lies: it rejects. -/
def lyingReject : World × RequestEvent :=
  (World.at 0, .reject (.responseV0 1) rejectText "Node2" "1")

def notNode2 (node : String) : Prop := node ≠ "Node2"

instance : DecidablePred notNode2 := fun node => inferInstanceAs (Decidable (node ≠ "Node2"))

/-- An honest node sent a message of the kind and the result of the delivered one. -/
def HonestKind (crates : Crates) (honest : String → Prop) (inputs : List (World × RequestEvent))
    (msg : String) : Prop :=
  ∃ op result rawMsg sender nodeAlias, Sent inputs op msg sender ∧
    resultOf crates msg = some result ∧ honest nodeAlias ∧ Sent inputs op rawMsg nodeAlias ∧
    resultOf crates rawMsg = some result

def oneNodeRequest : RequestSM :=
  ⟨0, [7], AList.singleton "Node1" none, [], "pool", 20, 100, .start⟩

end IndySdk.Pool
