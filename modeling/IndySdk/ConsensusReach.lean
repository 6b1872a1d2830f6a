import IndySdk.Tally
import IndySdk.VoteSafety
import Mathlib.Algebra.BigOperators.Group.List.Basic

/-!
# When agreement counts as impossible

A request for agreement keeps the nodes that replied in buckets, one for each result, and beside
them the nodes whose messages it could not read and those that timed out. Agreement is given up by
arithmetic on the sizes of these collections, which is right as long as they are disjoint and hold
only nodes of the pool.
-/

namespace IndySdk.Pool

open AssocMap Outcome List

variable {crates : Crates} {world : World} {sm : RequestSM} {state : ConsensusState}
  {nodes : Nodes}

namespace ConsensusState

/-- The collections in which nodes are counted. -/
def groups (state : ConsensusState) : List (Finset String) :=
  state.deniedNodes :: state.timeoutNodes :: state.replies.values

/-- The nodes that have neither answered nor timed out. -/
def openNodes (state : ConsensusState) (nodes : Nodes) : Finset String :=
  Tally.remaining nodes.keySet state.groups

/-- The nodes left can bring some result, one with replies or a new one, to agreement. -/
def Reachable (state : ConsensusState) (nodes : Nodes) (f : ℕ) : Prop :=
  ∃ set, (set = ∅ ∨ set ∈ state.replies.values) ∧ f < (set ∪ state.openNodes nodes).card

def repNo (state : ConsensusState) : ℕ := (state.replies.values.map Finset.card).sum

def maxNo (state : ConsensusState) : ℕ := (state.replies.values.map Finset.card).max?.getD 0

/-- The collections once a message of a node is counted. -/
def countReply (crates : Crates) (state : ConsensusState) (rawMsg nodeAlias : String) :
    ConsensusState :=
  match resultOf crates rawMsg with
  | some result =>
    { state with replies := state.replies.insert result (state.votesWith result nodeAlias) }
  | none => { state with deniedNodes := insert nodeAlias state.deniedNodes }

/-- The collections once an event is counted. -/
def counted (crates : Crates) (state : ConsensusState) : RequestEvent → ConsensusState
  | .reply _ rawMsg nodeAlias _
  | .reqNACK _ rawMsg nodeAlias _
  | .reject _ rawMsg nodeAlias _ => state.countReply crates rawMsg nodeAlias
  | .timeout _ nodeAlias => { state with timeoutNodes := insert nodeAlias state.timeoutNodes }
  | _ => state

/-- A message of a node that the pool lists and that is counted nowhere else. -/
def RepliesOnce (crates : Crates) (state : ConsensusState) (nodes : Nodes)
    (rawMsg nodeAlias : String) : Prop :=
  nodeAlias ∈ nodes ∧ nodeAlias ∉ state.timeoutNodes ∧
    match resultOf crates rawMsg with
    | some result => nodeAlias ∉ state.deniedNodes ∧
        ∀ bucket ∈ state.replies.toPairs, nodeAlias ∈ bucket.2 → bucket.1 = result
    | none => ∀ set ∈ state.replies.values, nodeAlias ∉ set

/-- An event of a node that the pool lists and that is counted nowhere else. -/
def CountsOnce (crates : Crates) (state : ConsensusState) (nodes : Nodes) : RequestEvent → Prop
  | .reply _ rawMsg nodeAlias _
  | .reqNACK _ rawMsg nodeAlias _
  | .reject _ rawMsg nodeAlias _ => state.RepliesOnce crates nodes rawMsg nodeAlias
  | .timeout _ nodeAlias => nodeAlias ∈ nodes ∧ nodeAlias ∉ state.deniedNodes ∧
      ∀ set ∈ state.replies.values, nodeAlias ∉ set
  | _ => True

instance (state : ConsensusState) (nodes : Nodes) (rawMsg nodeAlias : String) :
    Decidable (state.RepliesOnce crates nodes rawMsg nodeAlias) :=
  match h : resultOf crates rawMsg with
  | some result => decidable_of_iff (nodeAlias ∈ nodes ∧ nodeAlias ∉ state.timeoutNodes ∧
      nodeAlias ∉ state.deniedNodes ∧
        ∀ bucket ∈ state.replies.toPairs, nodeAlias ∈ bucket.2 → bucket.1 = result)
      (by rw [RepliesOnce, h])
  | none => decidable_of_iff (nodeAlias ∈ nodes ∧ nodeAlias ∉ state.timeoutNodes ∧
      ∀ set ∈ state.replies.values, nodeAlias ∉ set) (by rw [RepliesOnce, h])

instance (state : ConsensusState) (nodes : Nodes) :
    (event : RequestEvent) → Decidable (state.CountsOnce crates nodes event)
  | .reply _ rawMsg nodeAlias _ | .reqNACK _ rawMsg nodeAlias _ | .reject _ rawMsg nodeAlias _ =>
    inferInstanceAs (Decidable (state.RepliesOnce crates nodes rawMsg nodeAlias))
  | .timeout _ nodeAlias => inferInstanceAs (Decidable (nodeAlias ∈ nodes ∧
      nodeAlias ∉ state.deniedNodes ∧ ∀ set ∈ state.replies.values, nodeAlias ∉ set))
  | .reqACK _ _ _ _ | .ledgerStatus _ _ _ | .consistencyProof _ _ | .catchupRep _ _
  | .catchupReq _ _ _ | .customSingleRequest _ _ | .customConsensusRequest _ _
  | .customFullRequest _ _ _ _ | .poolLedgerTxns | .ping | .pong | .terminate => isTrue trivial

variable {world : World} {f : ℕ} {rawMsg nodeAlias : String} {set : Finset String}

theorem maxNo_le (h : ∀ set ∈ state.replies.values, set.card ≤ f) : state.maxNo ≤ f := by
  rw [maxNo]
  cases hmax : (state.replies.values.map Finset.card).max? with
  | none => exact Nat.zero_le f
  | some greatest =>
    obtain ⟨set, hset, hcard⟩ := mem_map.mp (max?_mem hmax)
    exact hcard ▸ h set hset

theorem card_le_maxNo (h : set ∈ state.replies.values) :
    set.card ≤ state.maxNo :=
  le_max?_getD_of_mem (mem_map_of_mem h)

theorem card_keySet (nodes : Nodes) : nodes.keySet.card = nodes.keys.length :=
  toFinset_card_of_nodup nodes.keys_nodup

theorem sum_groups (h : Tally.CountedOnce nodes.keySet state.groups) :
    state.deniedNodes.card + (state.timeoutNodes.card + state.repNo) +
      (state.openNodes nodes).card = nodes.keys.length := by
  have hsum := h.sum_card_add
  rw [card_keySet] at hsum
  exact hsum

theorem mem_groups_of_mem_values (h : set ∈ state.replies.values) :
    set ∈ state.groups :=
  mem_cons_of_mem _ (mem_cons_of_mem _ h)

theorem maxNo_le_length (h : Tally.CountedOnce nodes.keySet state.groups) :
    state.maxNo ≤ nodes.keys.length := by
  apply maxNo_le
  intro set hset
  rw [← card_keySet]
  exact Finset.card_le_card (h.subset set (mem_groups_of_mem_values hset))

/-- The subtractions do not underflow when every node is counted once, and what they leave is
what the greatest bucket can come to. -/
theorem isConsensusReachable_eq (h : Tally.CountedOnce nodes.keySet state.groups)
    (hn : nodes.keys.length < 2 ^ 63) :
    state.isConsensusReachable world f nodes.keys.length =
      .ok (decide (f < state.maxNo + (state.openNodes nodes).card)) := by
  have hsum := sum_groups h
  have hmax := maxNo_le_length h
  have hadd : (wordAdd 64 world.overflowChecks state.maxNo nodes.keys.length :
      MayPanic ℕ) = .ok (state.maxNo + nodes.keys.length) :=
    if_pos (by omega)
  have hreach : state.maxNo + nodes.keys.length - state.repNo - state.timeoutNodes.card -
      state.deniedNodes.card = state.maxNo + (state.openNodes nodes).card := by
    omega
  rw [isConsensusReachable, ← repNo, ← maxNo, hadd, ok_bind,
    wordSub_of_le (by omega), ok_bind, wordSub_of_le (by omega),
    ok_bind, wordSub_of_le (by omega), ok_bind, hreach]
  rfl

theorem card_union_openNodes (h : set = ∅ ∨ set ∈ state.replies.values) :
    (set ∪ state.openNodes nodes).card = set.card + (state.openNodes nodes).card := by
  rcases h with rfl | h
  · rw [Finset.empty_union, Finset.card_empty, Nat.zero_add]
  · exact Tally.card_union_remaining (mem_groups_of_mem_values h)

theorem reachable_iff :
    state.Reachable nodes f ↔ f < state.maxNo + (state.openNodes nodes).card := by
  constructor
  · rintro ⟨set, hset, hcard⟩
    rw [card_union_openNodes hset] at hcard
    rcases hset with rfl | hset
    · rw [Finset.card_empty] at hcard
      omega
    · have hle := card_le_maxNo hset
      omega
  · intro hf
    rw [maxNo] at hf
    cases hmax : (state.replies.values.map Finset.card).max? with
    | none =>
      rw [hmax] at hf
      refine ⟨∅, .inl rfl, ?_⟩
      rw [card_union_openNodes (.inl rfl), Finset.card_empty]
      exact hf
    | some greatest =>
      rw [hmax] at hf
      obtain ⟨set, hset, hcard⟩ := mem_map.mp (max?_mem hmax)
      refine ⟨set, .inr hset, ?_⟩
      rw [card_union_openNodes (.inr hset), hcard]
      exact hf

instance (state : ConsensusState) (nodes : Nodes) (f : ℕ) : Decidable (state.Reachable nodes f) :=
  decidable_of_iff _ reachable_iff.symm

/-- What a request for agreement keeps while every node is counted once. -/
structure Counting (state : ConsensusState) (nodes : Nodes) (f : ℕ) : Prop where
  once : Tally.CountedOnce nodes.keySet state.groups
  nonempty : ∀ set ∈ state.replies.values, set.Nonempty
  few : ∀ set ∈ state.replies.values, set.card ≤ f

theorem counting_empty (nodes : Nodes) (f : ℕ) :
    (⟨∅, ∅, ∅⟩ : ConsensusState).Counting nodes f :=
  ⟨Tally.countedOnce_nil.cons_empty.cons_empty, fun _ hset => absurd hset not_mem_nil,
    fun _ hset => absurd hset not_mem_nil⟩

theorem groups_insert (state : ConsensusState) (result : Json) (set : Finset String) :
    ({ state with replies := state.replies.insert result set } : ConsensusState).groups =
      [state.deniedNodes, state.timeoutNodes] ++
        set :: values (state.replies.erase result) := by
  rw [groups, values_insert]
  rfl

theorem countedOnce_bucket (h : Tally.CountedOnce nodes.keySet state.groups) (result : Json) :
    Tally.CountedOnce nodes.keySet ((state.replies.lookup result).getD ∅ ::
      ([state.deniedNodes, state.timeoutNodes] ++
        values (state.replies.erase result))) := by
  cases hlookup : state.replies.lookup result with
  | none =>
    rw [values_erase_of_lookup hlookup]
    exact h.cons_empty
  | some set =>
    have hvalues : state.groups.Perm ([state.deniedNodes, state.timeoutNodes] ++
        set :: values (state.replies.erase result)) :=
      (values_perm_erase hlookup).append_left [state.deniedNodes, state.timeoutNodes]
    exact h.perm (hvalues.trans perm_middle)

variable {result : Json}

theorem exists_of_mem_values_erase (h : set ∈ values (state.replies.erase result)) :
    ∃ other, other ≠ result ∧ state.replies.lookup other = some set := by
  obtain ⟨other, hother⟩ := mem_values.mp h
  have hne : other ≠ result := by
    intro he
    rw [he, AList.lookup_erase] at hother
    cases hother
  exact ⟨other, hne, by rwa [AList.lookup_erase_ne hne] at hother⟩

theorem countReply_of_some (h : resultOf crates rawMsg = some result) :
    state.countReply crates rawMsg nodeAlias =
      { state with replies := state.replies.insert result (state.votesWith result nodeAlias) } := by
  rw [countReply, h]

theorem countReply_of_none (h : resultOf crates rawMsg = none) :
    state.countReply crates rawMsg nodeAlias =
      { state with deniedNodes := insert nodeAlias state.deniedNodes } := by
  rw [countReply, h]

theorem mem_keySet_of_mem (h : nodeAlias ∈ nodes) : nodeAlias ∈ nodes.keySet :=
  mem_toFinset.mpr (AList.mem_keys.mp h)

theorem countReply_once (h : Tally.CountedOnce nodes.keySet state.groups)
    (honce : state.RepliesOnce crates nodes rawMsg nodeAlias) :
    Tally.CountedOnce nodes.keySet (state.countReply crates rawMsg nodeAlias).groups := by
  obtain ⟨hmem, htimeout, hother⟩ := honce
  cases hresult : resultOf crates rawMsg with
  | some result =>
    rw [hresult] at hother
    obtain ⟨hdenied, hbuckets⟩ := hother
    rw [countReply_of_some hresult, groups_insert]
    have hrest : ∀ group ∈ [state.deniedNodes, state.timeoutNodes] ++
        values (state.replies.erase result), nodeAlias ∉ group := by
      intro group hgroup
      rcases mem_append.mp hgroup with hgroup | hgroup
      · rcases mem_pair.mp hgroup with rfl | rfl
        · exact hdenied
        · exact htimeout
      · obtain ⟨other, hne, hlookup⟩ := exists_of_mem_values_erase hgroup
        exact fun hin => hne (hbuckets (other, group) (mem_toPairs.mpr hlookup) hin)
    have hinsert := (countedOnce_bucket h result).insert (mem_keySet_of_mem hmem) hrest
    exact hinsert.perm perm_middle.symm
  | none =>
    rw [hresult] at hother
    rw [countReply_of_none hresult]
    refine h.insert (mem_keySet_of_mem hmem) ?_
    intro group hgroup
    rcases mem_cons.mp hgroup with rfl | hgroup
    · exact htimeout
    · exact hother group hgroup

theorem timeout_once (h : Tally.CountedOnce nodes.keySet state.groups) (hmem : nodeAlias ∈ nodes)
    (hdenied : nodeAlias ∉ state.deniedNodes)
    (hbuckets : ∀ set ∈ state.replies.values, nodeAlias ∉ set) :
    Tally.CountedOnce nodes.keySet
      ({ state with timeoutNodes := insert nodeAlias state.timeoutNodes } :
        ConsensusState).groups := by
  have hswap := h.perm (List.Perm.swap state.timeoutNodes state.deniedNodes state.replies.values)
  refine (hswap.insert (mem_keySet_of_mem hmem) ?_).perm (List.Perm.swap _ _ _)
  intro group hgroup
  rcases mem_cons.mp hgroup with rfl | hgroup
  · exact hdenied
  · exact hbuckets group hgroup

theorem mem_values_insert {voters : Finset String}
    (h : set ∈ values (state.replies.insert result voters)) :
    set = voters ∨ set ∈ state.replies.values := by
  rw [values_insert] at h
  rcases mem_cons.mp h with rfl | h
  · exact .inl rfl
  · obtain ⟨other, -, hlookup⟩ := exists_of_mem_values_erase h
    exact .inr (mem_values.mpr ⟨other, hlookup⟩)

theorem countReply_nonempty (h : ∀ set ∈ state.replies.values, set.Nonempty) :
    ∀ set ∈ (state.countReply crates rawMsg nodeAlias).replies.values, set.Nonempty := by
  intro set hset
  cases hresult : resultOf crates rawMsg with
  | some result =>
    rw [countReply_of_some hresult] at hset
    rcases mem_values_insert hset with rfl | hset
    · exact Finset.insert_nonempty _ _
    · exact h set hset
  | none =>
    rw [countReply_of_none hresult] at hset
    exact h set hset

/-- The subtractions of `isConsensusReachable` stay above zero. -/
def NoUnderflow (state : ConsensusState) (nodes : Nodes) : Prop :=
  state.repNo + state.timeoutNodes.card + state.deniedNodes.card ≤
    state.maxNo + nodes.keys.length

instance (state : ConsensusState) (nodes : Nodes) : Decidable (state.NoUnderflow nodes) :=
  inferInstanceAs (Decidable (_ ≤ _))

theorem noUnderflow_of_once (h : Tally.CountedOnce nodes.keySet state.groups) :
    state.NoUnderflow nodes := by
  have hsum := sum_groups h
  rw [NoUnderflow]
  omega

/-- When as many nodes are denied and buckets there are as the pool has nodes, each bucket holds
one node and none is left. -/
theorem not_reachable_of_all (h : state.Counting nodes f)
    (hall : state.deniedNodes.card + state.replies.keys.length = nodes.keys.length) :
    ¬ state.Reachable nodes f := by
  have hsum := sum_groups h.once
  have hlength : state.replies.keys.length = (state.replies.values.map Finset.card).length := by
    rw [length_map, values, length_map, AList.keys, List.keys, length_map]
  have hone : ∀ card ∈ state.replies.values.map Finset.card, 1 ≤ card := by
    intro card hcard
    obtain ⟨set, hset, rfl⟩ := mem_map.mp hcard
    exact Finset.card_pos.mpr (h.nonempty set hset)
  have hle : state.replies.keys.length ≤ state.repNo := by
    rw [hlength]
    exact length_le_sum_of_one_le _ hone
  have hmax := maxNo_le h.few
  rw [reachable_iff]
  omega

end ConsensusState

/-- A command is told that agreement is impossible. -/
def Command.GivesUp : Command → Prop
  | .submitAck _ result =>
    result = .error (errMsg .poolTimeout "Consensus is impossible")
  | _ => False

instance : DecidablePred Command.GivesUp
  | .submitAck _ _ => inferInstanceAs (Decidable (_ = _))
  | .openAck _ _ _ | .refreshAck _ _ | .closeAck _ _ => isFalse id

def Output.GivesUp (output : Output) : Prop := ∃ command ∈ output.commands, command.GivesUp

instance : DecidablePred Output.GivesUp := fun output =>
  inferInstanceAs (Decidable (∃ command ∈ output.commands, command.GivesUp))

variable {output : Output}

theorem not_givesUp_of_nil (h : output.commands = []) : ¬ output.GivesUp := by
  rintro ⟨command, hmem, -⟩
  rw [h] at hmem
  exact absurd hmem not_mem_nil

theorem not_givesUp_of_ok {cmdIds : List ℤ} {msg : String}
    (h : output.commands = sendOkReplies cmdIds msg) : ¬ output.GivesUp := by
  rintro ⟨command, hmem, hgives⟩
  rw [h, sendOkReplies, sendReplies, mem_map] at hmem
  obtain ⟨id, -, rfl⟩ := hmem
  cases hgives

theorem not_givesUp_of_terminate (sm : RequestSM) : ¬ sm.terminateRequest.2.GivesUp := by
  rintro ⟨command, hmem, hgives⟩
  rw [RequestSM.terminateRequest, finishRequest, sendReplies, mem_map] at hmem
  obtain ⟨id, -, rfl⟩ := hmem
  cases hgives

theorem resultOf_eq_some_or_err (crates : Crates) (rawMsg : String) :
    (∃ msgResult result, getMsgResultWithoutStateProof crates rawMsg = .ok (msgResult, result) ∧
      resultOf crates rawMsg = some result) ∨
    ∃ e, getMsgResultWithoutStateProof crates rawMsg = .err e ∧ resultOf crates rawMsg = none := by
  cases hmsg : getMsgResultWithoutStateProof crates rawMsg with
  | ok results => exact .inl ⟨results.1, results.2, rfl, by rw [resultOf, hmsg]⟩
  | err e => exact .inr ⟨e, rfl, by rw [resultOf, hmsg]⟩
  | panic =>
    rw [getMsgResultWithoutStateProof] at hmsg
    cases hvalue : crates.valueFromStr rawMsg with
    | none =>
      rw [hvalue] at hmsg
      cases hmsg
    | some value =>
      rw [hvalue] at hmsg
      simp only [ofOption, ok_bind] at hmsg
      split_ifs at hmsg

namespace RequestSM

/-- What a step is meant to do: it returns, it gives up only when agreement is out of reach, and
the request ends or goes on with every node counted once. -/
def StepsInTime (sm : RequestSM) (counted : ConsensusState)
    (step : MayPanic (RequestState × Output)) : Prop :=
  ∃ next output, step = .ok (next, output) ∧
    (output.GivesUp → ¬ counted.Reachable sm.nodes sm.f) ∧
    (next = .finish ∨ ∃ state, next = .consensus state ∧ state.Counting sm.nodes sm.f)

theorem stepsInTime_check {counted : ConsensusState} {go stop : Output}
    (h : counted.Counting sm.nodes sm.f) (hn : sm.nodes.keys.length < 2 ^ 63)
    (hgo : go.commands = []) :
    sm.StepsInTime counted (do
      if ← counted.isConsensusReachable world sm.f sm.nodes.keys.length then
        pure (.consensus counted, go)
      else pure (.finish, stop)) := by
  rw [ConsensusState.isConsensusReachable_eq h.once hn, ok_bind]
  by_cases hreach : sm.f < counted.maxNo + (counted.openNodes sm.nodes).card
  · rw [decide_eq_true hreach]
    exact ⟨.consensus counted, go, rfl, fun hgives => absurd hgives (not_givesUp_of_nil hgo),
      Or.inr ⟨counted, rfl, h⟩⟩
  · rw [decide_eq_false hreach]
    exact ⟨.finish, stop, rfl, fun _ => mt ConsensusState.reachable_iff.mp hreach, .inl rfl⟩

theorem consensusReply_inTime (h : state.Counting sm.nodes sm.f)
    (hn : sm.nodes.keys.length < 2 ^ 63) {rawMsg nodeAlias reqId : String}
    (honce : state.RepliesOnce crates sm.nodes rawMsg nodeAlias) :
    sm.StepsInTime (state.countReply crates rawMsg nodeAlias)
      (sm.consensusReply crates world state rawMsg nodeAlias reqId) := by
  have hcounted := ConsensusState.countReply_once h.once honce
  have hnonempty : ∀ set ∈ (state.countReply crates rawMsg nodeAlias).replies.values,
      set.Nonempty := ConsensusState.countReply_nonempty h.nonempty
  rw [consensusReply]
  rcases resultOf_eq_some_or_err crates rawMsg with ⟨msgResult, result, hmsg, hresult⟩ |
    ⟨e, hmsg, hresult⟩
  · rw [ConsensusState.countReply_of_some hresult] at hcounted hnonempty ⊢
    rw [hmsg]
    by_cases hcard : sm.f < (state.votesWith result nodeAlias).card
    · refine ⟨.finish, _, if_pos hcard, ?_, .inl rfl⟩
      exact fun hgives => absurd hgives (not_givesUp_of_ok rfl)
    · have hfew : ∀ set ∈ values
          (state.replies.insert result (state.votesWith result nodeAlias)), set.card ≤ sm.f := by
        intro set hset
        rcases ConsensusState.mem_values_insert hset with rfl | hset
        · exact not_lt.mp hcard
        · exact h.few set hset
      have hcard' := hcard
      rw [ConsensusState.votesWith] at hcard'
      simp only
      rw [if_neg hcard']
      exact stepsInTime_check ⟨hcounted, hnonempty, hfew⟩ hn rfl
  · rw [ConsensusState.countReply_of_none hresult] at hcounted hnonempty ⊢
    rw [hmsg]
    have hcounting : ConsensusState.Counting
        { state with deniedNodes := insert nodeAlias state.deniedNodes } sm.nodes sm.f :=
      ⟨hcounted, hnonempty, h.few⟩
    by_cases hall : (insert nodeAlias state.deniedNodes).card + state.replies.keys.length =
        sm.nodes.keys.length
    · exact ⟨.finish, _, if_pos hall,
        fun _ => ConsensusState.not_reachable_of_all hcounting hall, .inl rfl⟩
    · exact ⟨_, _, if_neg hall, fun hgives => absurd hgives (not_givesUp_of_nil rfl),
        Or.inr ⟨_, rfl, hcounting⟩⟩

theorem consensusStep_inTime (h : state.Counting sm.nodes sm.f)
    (hn : sm.nodes.keys.length < 2 ^ 63) {event : RequestEvent}
    (honce : state.CountsOnce crates sm.nodes event) :
    sm.StepsInTime (state.counted crates event) (sm.consensusStep crates world state event) := by
  have hsame {networker : List NetworkerEvent} : sm.StepsInTime state
      (.ok (.consensus state, { networker := networker })) :=
    ⟨_, _, rfl, fun hgives => absurd hgives (not_givesUp_of_nil rfl), .inr ⟨state, rfl, h⟩⟩
  cases event with
  | reply rep rawMsg nodeAlias reqId => exact consensusReply_inTime h hn honce
  | reqNACK rep rawMsg nodeAlias reqId => exact consensusReply_inTime h hn honce
  | reject rep rawMsg nodeAlias reqId => exact consensusReply_inTime h hn honce
  | timeout reqId nodeAlias =>
    obtain ⟨hmem, hdenied, hbuckets⟩ := honce
    exact stepsInTime_check
      ⟨ConsensusState.timeout_once h.once hmem hdenied hbuckets, h.nonempty, h.few⟩ hn rfl
  | terminate =>
    exact ⟨_, _, rfl, fun hgives => absurd hgives (not_givesUp_of_terminate sm), .inl rfl⟩
  | _ => exact hsame

end RequestSM

/-- The request for agreement that waits for nodes. -/
def waitingConsensus : Option RequestSM → Option (RequestSM × ConsensusState)
  | some sm =>
    match sm.state with
    | .consensus state => some (sm, state)
    | _ => none
  | none => none

/-- An event of a request for agreement is one of a node that is counted nowhere else. -/
def CountsOnce (crates : Crates) (s : Option RequestSM) (input : World × RequestEvent) : Prop :=
  ∀ request ∈ waitingConsensus s, request.2.CountsOnce crates request.1.nodes input.2

/-- A step of a request for agreement returns, without underflow, and gives up only when the nodes
left cannot bring any result to agreement. -/
def NeverEarly (crates : Crates) (s : Option RequestSM) (input : World × RequestEvent) : Prop :=
  ∀ request ∈ waitingConsensus s,
    (request.2.counted crates input.2).NoUnderflow request.1.nodes ∧
    ∃ output ∈ ((requestMachine crates).step input s).1,
      output.GivesUp → ¬ (request.2.counted crates input.2).Reachable request.1.nodes request.1.f

instance (s : Option RequestSM) (input : World × RequestEvent) :
    Decidable (NeverEarly crates s input) :=
  inferInstanceAs (Decidable (∀ request ∈ waitingConsensus s,
    (request.2.counted crates input.2).NoUnderflow request.1.nodes ∧
    ∃ output ∈ ((requestMachine crates).step input s).1,
      output.GivesUp →
        ¬ (request.2.counted crates input.2).Reachable request.1.nodes request.1.f))

instance (s : Option RequestSM) (input : World × RequestEvent) :
    Decidable (CountsOnce crates s input) :=
  inferInstanceAs (Decidable (∀ request ∈ waitingConsensus s,
    request.2.CountsOnce crates request.1.nodes input.2))

/-- A request for agreement that counts every node once, or has ended. -/
def CountingRequest (s : Option RequestSM) : Prop :=
  ∃ sm, s = some sm ∧ sm.nodes.keys.length < 2 ^ 63 ∧
    (sm.state = .finish ∨ ∃ state, sm.state = .consensus state ∧ state.Counting sm.nodes sm.f)

theorem counted_once {event : RequestEvent}
    (h : Tally.CountedOnce sm.nodes.keySet state.groups)
    (honce : state.CountsOnce crates sm.nodes event) :
    Tally.CountedOnce sm.nodes.keySet (state.counted crates event).groups := by
  cases event with
  | reply rep rawMsg nodeAlias reqId => exact ConsensusState.countReply_once h honce
  | reqNACK rep rawMsg nodeAlias reqId => exact ConsensusState.countReply_once h honce
  | reject rep rawMsg nodeAlias reqId => exact ConsensusState.countReply_once h honce
  | timeout reqId nodeAlias => exact ConsensusState.timeout_once h honce.1 honce.2.1 honce.2.2
  | _ => exact h

theorem requestMachine_step_of_ok {input : World × RequestEvent} {next : RequestState}
    (h : sm.stateStep crates input.1 input.2 = .ok (next, output)) :
    (requestMachine crates).step input (some sm) =
      (some output, some { sm with state := next }) := by
  simp only [requestMachine, RequestSM.handleEvent, h, ok_bind]
  rfl

theorem step_neverEarly (s : Option RequestSM) (input : World × RequestEvent)
    (h : CountingRequest s) (honce : CountsOnce crates s input) :
    NeverEarly crates s input ∧ CountingRequest ((requestMachine crates).step input s).2 := by
  obtain ⟨sm, rfl, hn, hstate | ⟨state, hstate, hcounting⟩⟩ := h
  · have hstep : sm.stateStep crates input.1 input.2 = .ok (.finish, {}) := by
      rw [RequestSM.stateStep, hstate]
    rw [requestMachine_step_of_ok hstep]
    refine ⟨?_, _, rfl, hn, .inl rfl⟩
    intro request hrequest
    simp only [waitingConsensus, hstate] at hrequest
    cases hrequest
  · have hwaiting : waitingConsensus (some sm) = some (sm, state) := by
      simp only [waitingConsensus, hstate]
    have htime : sm.StepsInTime (state.counted crates input.2)
        (sm.consensusStep crates input.1 state input.2) :=
      RequestSM.consensusStep_inTime hcounting hn (honce (sm, state) hwaiting)
    obtain ⟨next, output, hok, hgives, hnext⟩ := htime
    have hstep : sm.stateStep crates input.1 input.2 = .ok (next, output) := by
      rw [RequestSM.stateStep, hstate]
      exact hok
    have hcounted := counted_once hcounting.once (honce (sm, state) hwaiting)
    refine ⟨?_, ?_⟩
    · intro request hrequest
      rw [hwaiting] at hrequest
      cases hrequest
      refine ⟨ConsensusState.noUnderflow_of_once hcounted, output, ?_, hgives⟩
      rw [requestMachine_step_of_ok hstep]
      rfl
    · rw [requestMachine_step_of_ok hstep]
      exact ⟨_, rfl, hn, hnext⟩

/-- A request that counts each node once, and only nodes of the pool, is not given up too early. -/
theorem consensus_never_early (hstart : sm.state = .start) (hn : sm.nodes.keys.length < 2 ^ 63)
    (world : World) (msg reqId : String) (inputs : List (World × RequestEvent))
    (honce : (requestMachine crates).Along (CountsOnce crates) (some sm)
      ((world, .customConsensusRequest msg reqId) :: inputs)) :
    (requestMachine crates).Along (NeverEarly crates) (some sm)
      ((world, .customConsensusRequest msg reqId) :: inputs) := by
  have hstep : sm.stateStep crates world (.customConsensusRequest msg reqId) =
      .ok (.consensus ⟨∅, ∅, ∅⟩,
        { networker := [.sendAllRequest msg reqId sm.timeout none] }) := by
    rw [RequestSM.stateStep, hstart]
    rfl
  obtain ⟨-, honce⟩ := honce
  refine ⟨?_, ?_⟩
  · intro request hrequest
    simp only [waitingConsensus, hstart] at hrequest
    cases hrequest
  · rw [requestMachine_step_of_ok hstep] at honce ⊢
    have hcounting := ConsensusState.counting_empty sm.nodes sm.f
    exact Machine.along_of_along step_neverEarly ⟨_, rfl, hn, .inr ⟨_, rfl, hcounting⟩⟩ honce

/-- A parser that takes every text but the empty one for its own result. -/
def echoCrates : Crates :=
  { Crates.none with
    fromStr := fun s => if s = "" then Option.none else some (.obj [("result", .str s)]) }

def asked : World × RequestEvent := (World.at 0, .customConsensusRequest "request" "1")

def replyOf (node text : String) : World × RequestEvent :=
  (World.at 0, .reply (.replyV0 ⟨1⟩) text node "1")

def timeoutOf (node : String) : World × RequestEvent := (World.at 0, .timeout "1" node)

/-- One node replies, two time out and one cannot be read: agreement is out of reach. -/
theorem consensus_never_early_unreadable :
    (requestMachine echoCrates).Along (NeverEarly echoCrates) (some fourNodesRequest)
      [asked, replyOf "Node1" "a", timeoutOf "Node2", replyOf "Node3" "", timeoutOf "Node4"] :=
  consensus_never_early rfl (by decide) (World.at 0) "request" "1"
    [replyOf "Node1" "a", timeoutOf "Node2", replyOf "Node3" "", timeoutOf "Node4"]
    (by decide +kernel)

/-- One node gives four results, and the request is given up though three nodes are left that
could agree. A node that times out and answers what cannot be read is counted twice, so that the
sum of those counted passes the number of nodes. -/
theorem talkative_node_givesUp :
    ¬ (requestMachine echoCrates).Along (NeverEarly echoCrates) (some fourNodesRequest)
      [asked, replyOf "Node1" "a", replyOf "Node1" "b", replyOf "Node1" "c",
        replyOf "Node1" "d"] ∧
    ¬ (requestMachine echoCrates).Along (NeverEarly echoCrates) (some fourNodesRequest)
      [asked, timeoutOf "Node1", timeoutOf "Node2", replyOf "Node1" "", replyOf "Node2" "",
        replyOf "Node3" "", timeoutOf "Node3"] := by
  exact ⟨by decide +kernel, by decide +kernel⟩

end IndySdk.Pool
