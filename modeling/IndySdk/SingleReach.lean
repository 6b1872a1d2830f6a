import IndySdk.ConsensusReach

/-!
# When a request to single nodes fails

A request that asks nodes one after another keeps their responses in buckets, one for each result,
beside the nodes that refused and those that timed out. It fails once the sizes of these
collections come to the number of nodes, which is right as long as no node is in two of them.
-/

namespace IndySdk.Pool

open AssocMap List

variable {crates : Crates} {world : World} {sm : RequestSM} {state : SingleState}
  {nodes : Nodes} {event : RequestEvent} {rawMsg nodeAlias : String}

/-- The node that answers or times out. -/
def RequestEvent.sender : RequestEvent → Option String
  | .reply _ _ nodeAlias _ => some nodeAlias
  | .reqNACK _ _ nodeAlias _ => some nodeAlias
  | .reject _ _ nodeAlias _ => some nodeAlias
  | .timeout _ nodeAlias => some nodeAlias
  | _ => none

namespace SingleState

/-- The collections in which nodes are counted. -/
def groups (state : SingleState) : List (Finset String) :=
  [state.timeoutNodes, state.deniedNodes] ++ state.replies.values.map keySet

/-- A node has answered, refused or timed out. -/
def Heard (state : SingleState) (nodeAlias : String) : Prop :=
  ∃ group ∈ state.groups, nodeAlias ∈ group

/-- Every node has answered, refused or timed out, the node of the event included. -/
def AllHeard (state : SingleState) (nodes : Nodes) (event : RequestEvent) : Prop :=
  ∀ nodeAlias ∈ nodes.keySet, state.Heard nodeAlias ∨ event.sender = some nodeAlias

/-- The nodes that gave a result. -/
def voters (state : SingleState) (result : Json) : Finset String :=
  ((state.replies.lookup result).map keySet).getD ∅

/-- A message of a node that the pool lists and that is counted nowhere else; the timeout of a node
is forgotten when it answers. -/
def RepliesOnce (crates : Crates) (state : SingleState) (nodes : Nodes)
    (rawMsg nodeAlias : String) : Prop :=
  nodeAlias ∈ nodes.keySet ∧
    match resultOf crates rawMsg with
    | some result => nodeAlias ∉ state.deniedNodes ∧
        ∀ bucket ∈ state.replies.toPairs, nodeAlias ∈ bucket.2.keySet → bucket.1 = result
    | none => ∀ bucket ∈ state.replies.values, nodeAlias ∉ bucket.keySet

/-- An event of a node that the pool lists and that is counted nowhere else. -/
def CountsOnce (crates : Crates) (state : SingleState) (nodes : Nodes) : RequestEvent → Prop
  | .reply _ rawMsg nodeAlias _
  | .reqNACK _ rawMsg nodeAlias _
  | .reject _ rawMsg nodeAlias _ => state.RepliesOnce crates nodes rawMsg nodeAlias
  | .timeout _ nodeAlias => nodeAlias ∈ nodes.keySet ∧ nodeAlias ∉ state.deniedNodes ∧
      ∀ bucket ∈ state.replies.values, nodeAlias ∉ bucket.keySet
  | _ => True

/-- A message settles a request: more than `f` nodes agree with it, or it proves its own result. -/
def Settles (crates : Crates) (world : World) (sm : RequestSM) (state : SingleState)
    (rawMsg nodeAlias : String) : Prop :=
  match getMsgResultWithoutStateProof crates rawMsg, getLastSignedTime crates rawMsg with
  | .ok (msgResult, result), .ok signedTime =>
    sm.f < (insert nodeAlias (state.voters result)).card ∨
      sm.acceptedAlone crates world msgResult (signedTime.getD 0) rawMsg = .ok true
  | _, _ => False

/-- What may end a request: it is terminated, a message settles it, or every node was heard. -/
inductive MayEnd (crates : Crates) (world : World) (sm : RequestSM) (state : SingleState) :
    RequestEvent → Prop where
  | terminated : MayEnd crates world sm state .terminate
  | settled (event : RequestEvent) (op : OpType) (rawMsg nodeAlias : String)
    (hvote : event.vote = some (op, rawMsg, nodeAlias))
    (hsettles : state.Settles crates world sm rawMsg nodeAlias) :
    MayEnd crates world sm state event
  | allHeard (event : RequestEvent) (hall : state.AllHeard sm.nodes event) :
    MayEnd crates world sm state event

theorem sum_groups (state : SingleState) : (state.groups.map Finset.card).sum =
    state.timeoutNodes.card + state.deniedNodes.card +
      (state.replies.values.map (fun set => set.keys.length)).sum := by
  have hcards : state.replies.values.map (fun set => (keySet set).card) =
      state.replies.values.map (fun set => set.keys.length) :=
    map_congr_left (fun set _ => toFinset_card_of_nodup set.keys_nodup)
  rw [groups, map_append, sum_append, map_map, Function.comp_def, hcards]
  simp

theorem isConsensusReachable_iff (h : Tally.CountedOnce nodes.keySet state.groups) :
    state.isConsensusReachable nodes.keys.length ↔
      (Tally.remaining nodes.keySet state.groups).Nonempty := by
  have hsum := h.sum_card_add
  rw [ConsensusState.card_keySet, sum_groups] at hsum
  rw [isConsensusReachable, decide_eq_true_iff, ← Finset.card_pos]
  omega

theorem keySet_insertNew (set : NodeResponses) (resp : NodeResponse) :
    keySet (set.insertNew resp) = insert resp.nodeAlias set.keySet := by
  ext nodeAlias
  rw [NodeResponses.insertNew]
  by_cases hknown : (set.lookup resp.nodeAlias).isSome
  · have hmem : resp.nodeAlias ∈ set.keySet :=
      mem_keySet.mpr (Option.isSome_iff_exists.mp hknown)
    rw [if_pos hknown, Finset.insert_eq_of_mem hmem]
  · rw [if_neg hknown, Finset.mem_insert, mem_keySet, mem_keySet]
    by_cases he : nodeAlias = resp.nodeAlias
    · rw [he, AList.lookup_insert]
      simp
    · rw [AList.lookup_insert_ne he]
      simp [he]

theorem keySet_responsesWith (state : SingleState) (result : Json) (resp : NodeResponse) :
    keySet (state.responsesWith result resp) =
      insert resp.nodeAlias (state.voters result) := by
  rw [responsesWith, keySet_insertNew, voters]
  cases state.replies.lookup result with
  | none => rfl
  | some set => rfl

/-- What is kept while every node is counted once. -/
def Counting (state : SingleState) (nodes : Nodes) : Prop :=
  Tally.CountedOnce nodes.keySet state.groups

theorem counting_empty (nodes : Nodes) : (⟨∅, ∅, ∅⟩ : SingleState).Counting nodes :=
  Tally.countedOnce_nil.cons_empty.cons_empty

theorem counting_erase (h : state.Counting nodes) (nodeAlias : String) :
    ({ state with timeoutNodes := state.timeoutNodes.erase nodeAlias } : SingleState).Counting
      nodes := by
  obtain ⟨hfirst, hothers⟩ := pairwise_cons.mp h.disjoint
  refine ⟨pairwise_cons.mpr ⟨?_, hothers⟩, ?_⟩
  · intro group hgroup
    exact Finset.disjoint_of_subset_left (Finset.erase_subset _ _) (hfirst group hgroup)
  · intro group hgroup
    rcases mem_cons.mp hgroup with rfl | hgroup
    · exact (Finset.erase_subset _ _).trans (h.subset _ mem_cons_self)
    · exact h.subset group (mem_cons_of_mem _ hgroup)

theorem counting_timeout (h : state.Counting nodes) (hmem : nodeAlias ∈ nodes.keySet)
    (hdenied : nodeAlias ∉ state.deniedNodes)
    (hbuckets : ∀ bucket ∈ state.replies.values, nodeAlias ∉ bucket.keySet) :
    ({ state with timeoutNodes := insert nodeAlias state.timeoutNodes } : SingleState).Counting
      nodes := by
  apply Tally.CountedOnce.insert h hmem
  intro group hgroup
  rcases mem_cons.mp hgroup with rfl | hgroup
  · exact hdenied
  · obtain ⟨bucket, hbucket, rfl⟩ := mem_map.mp hgroup
    exact hbuckets bucket hbucket

theorem counting_denied (h : state.Counting nodes) (hmem : nodeAlias ∈ nodes.keySet)
    (htimeout : nodeAlias ∉ state.timeoutNodes)
    (hbuckets : ∀ bucket ∈ state.replies.values, nodeAlias ∉ bucket.keySet) :
    ({ state with deniedNodes := insert nodeAlias state.deniedNodes } : SingleState).Counting
      nodes := by
  have hswap := h.perm (List.Perm.swap state.deniedNodes state.timeoutNodes _)
  refine (hswap.insert hmem ?_).perm (List.Perm.swap _ _ _)
  intro group hgroup
  rcases mem_cons.mp hgroup with rfl | hgroup
  · exact htimeout
  · obtain ⟨bucket, hbucket, rfl⟩ := mem_map.mp hgroup
    exact hbuckets bucket hbucket

theorem counting_reply {result : Json} (resp : NodeResponse) (h : state.Counting nodes)
    (hmem : resp.nodeAlias ∈ nodes.keySet) (htimeout : resp.nodeAlias ∉ state.timeoutNodes)
    (hdenied : resp.nodeAlias ∉ state.deniedNodes)
    (hbuckets : ∀ bucket ∈ state.replies.toPairs,
      resp.nodeAlias ∈ bucket.2.keySet → bucket.1 = result) :
    ({ state with
        replies := state.replies.insert result (state.responsesWith result resp) } :
      SingleState).Counting nodes := by
  apply Tally.CountedOnce.insert_bucket h hmem
  · intro group hgroup
    rcases mem_pair.mp hgroup with rfl | rfl
    · exact htimeout
    · exact hdenied
  · intro other bucket hne hlookup hin
    exact hne (hbuckets (other, bucket) (mem_toPairs.mpr hlookup) hin)
  · exact keySet_responsesWith state result resp

/-- The nodes counted after an event were heard before it, but for the node of the event. -/
def HeardFrom (state counted : SingleState) (nodeAlias : String) : Prop :=
  ∀ other, counted.Heard other → state.Heard other ∨ other = nodeAlias

theorem heardFrom_timeout (state : SingleState) (nodeAlias : String) :
    state.HeardFrom { state with timeoutNodes := insert nodeAlias state.timeoutNodes }
      nodeAlias := by
  rintro other ⟨group, hgroup, hin⟩
  rcases mem_cons.mp hgroup with rfl | hgroup
  · rcases Finset.mem_insert.mp hin with rfl | hin
    · exact .inr rfl
    · exact .inl ⟨_, mem_cons_self, hin⟩
  · exact .inl ⟨group, mem_cons_of_mem _ hgroup, hin⟩

theorem heardFrom_denied (state : SingleState) (nodeAlias : String) :
    state.HeardFrom { state with
      timeoutNodes := state.timeoutNodes.erase nodeAlias
      deniedNodes := insert nodeAlias state.deniedNodes } nodeAlias := by
  rintro other ⟨group, hgroup, hin⟩
  rcases mem_cons.mp hgroup with rfl | hgroup
  · exact .inl ⟨_, mem_cons_self, Finset.mem_of_mem_erase hin⟩
  · rcases mem_cons.mp hgroup with rfl | hgroup
    · rcases Finset.mem_insert.mp hin with rfl | hin
      · exact .inr rfl
      · exact .inl ⟨_, mem_cons_of_mem _ mem_cons_self, hin⟩
    · exact .inl ⟨group, mem_cons_of_mem _ (mem_cons_of_mem _ hgroup), hin⟩

theorem heard_of_bucket {bucket : NodeResponses} (h : bucket ∈ state.replies.values)
    (hin : nodeAlias ∈ bucket.keySet) : state.Heard nodeAlias :=
  ⟨bucket.keySet, mem_append_right _ (mem_map_of_mem h), hin⟩

theorem heardFrom_reply (state : SingleState) (result : Json) (resp : NodeResponse) :
    state.HeardFrom { state with
      timeoutNodes := state.timeoutNodes.erase resp.nodeAlias
      replies := state.replies.insert result (state.responsesWith result resp) }
      resp.nodeAlias := by
  rintro other ⟨group, hgroup, hin⟩
  rcases mem_append.mp hgroup with hgroup | hgroup
  · rcases mem_pair.mp hgroup with rfl | rfl
    · exact .inl ⟨_, mem_cons_self, Finset.mem_of_mem_erase hin⟩
    · exact .inl ⟨_, mem_cons_of_mem _ mem_cons_self, hin⟩
  · obtain ⟨bucket, hbucket, rfl⟩ := mem_map.mp hgroup
    rw [values_insert] at hbucket
    rcases mem_cons.mp hbucket with rfl | hbucket
    · rw [keySet_responsesWith, Finset.mem_insert] at hin
      rcases hin with he | hin
      · exact .inr he
      · rw [voters] at hin
        cases hlookup : state.replies.lookup result with
        | none =>
          rw [hlookup] at hin
          exact absurd hin (Finset.notMem_empty _)
        | some voters =>
          rw [hlookup] at hin
          exact .inl (heard_of_bucket (mem_values.mpr ⟨result, hlookup⟩) hin)
    · obtain ⟨l, -, hlookup⟩ := Tally.exists_of_mem_values_erase hbucket
      exact .inl (heard_of_bucket (mem_values.mpr ⟨l, hlookup⟩) hin)

end SingleState

namespace RequestSM

/-- What a step is meant to do: it gives up only when every node was heard, it ends the request only
for a reason, and it goes on with every node counted once. -/
structure EndsInTime (crates : Crates) (world : World) (sm : RequestSM) (state : SingleState)
    (event : RequestEvent) (next : RequestState) (output : Output) : Prop where
  givesUp : output.GivesUp → state.AllHeard sm.nodes event
  ends : next = .finish → state.MayEnd crates world sm event
  next : next = .finish ∨ ∃ state', next = .single state' ∧ state'.Counting sm.nodes

theorem endsInTime_kept {networker : List NetworkerEvent} (h : state.Counting sm.nodes) :
    sm.EndsInTime crates world state event (.single state) { networker := networker } :=
  ⟨fun hgives => absurd hgives (not_givesUp_of_nil rfl), (fun hnext => by cases hnext),
    Or.inr ⟨state, rfl, h⟩⟩

variable {next : RequestState} {output : Output}

theorem tryToContinue_inTime {counted : SingleState} {reqId : String}
    (hcounting : counted.Counting sm.nodes) (hheard : state.HeardFrom counted nodeAlias)
    (hsender : event.sender = some nodeAlias)
    (h : counted.tryToContinue reqId nodeAlias sm.cmdIds sm.nodes.keys.length sm.timeout =
      (next, output)) : sm.EndsInTime crates world state event next output := by
  rw [SingleState.tryToContinue] at h
  by_cases hreach : counted.isConsensusReachable sm.nodes.keys.length
  · rw [if_pos hreach] at h
    cases h
    exact ⟨fun hgives => absurd hgives (not_givesUp_of_nil rfl), (fun hnext => by cases hnext),
      Or.inr ⟨counted, rfl, hcounting⟩⟩
  · rw [if_neg hreach] at h
    cases h
    have hall : state.AllHeard sm.nodes event := by
      intro other hmem
      rw [SingleState.isConsensusReachable_iff hcounting, Finset.not_nonempty_iff_eq_empty]
        at hreach
      have hheardNow : counted.Heard other := by
        by_contra hnot
        have hleft : other ∈ Tally.remaining sm.nodes.keySet counted.groups :=
          Tally.mem_remaining.mpr ⟨hmem, fun group hgroup hin => hnot ⟨group, hgroup, hin⟩⟩
        rw [hreach] at hleft
        exact Finset.notMem_empty _ hleft
      rcases hheard other hheardNow with hbefore | rfl
      · exact .inl hbefore
      · exact .inr hsender
    exact ⟨fun _ => hall, fun _ => .allHeard event hall, .inl rfl⟩

theorem singleReply_inTime {op : OpType} {reqId : String} (hcounting : state.Counting sm.nodes)
    (honce : state.RepliesOnce crates sm.nodes rawMsg nodeAlias)
    (hvote : event.vote = some (op, rawMsg, nodeAlias)) (hsender : event.sender = some nodeAlias)
    (h : sm.singleReply crates world state rawMsg nodeAlias reqId = .ok (next, output)) :
    sm.EndsInTime crates world state event next output := by
  obtain ⟨hmem, hother⟩ := honce
  have herased := SingleState.counting_erase hcounting nodeAlias
  have htimeout : nodeAlias ∉ state.timeoutNodes.erase nodeAlias := Finset.notMem_erase _ _
  rw [singleReply] at h
  rcases resultOf_eq_some_or_err crates rawMsg with ⟨msgResult, result, hmsg, hresult⟩ |
    ⟨e, hmsg, hresult⟩
  · rw [hresult] at hother
    rw [hmsg] at h
    obtain ⟨signedTime, htime, h⟩ := Outcome.bind_eq_ok_iff.mp h
    have hsettles (hwhy : sm.f < (insert nodeAlias (state.voters result)).card ∨
        sm.acceptedAlone crates world msgResult (signedTime.getD 0) rawMsg = .ok true) :
        state.MayEnd crates world sm event := by
      refine .settled event op rawMsg nodeAlias hvote ?_
      rw [SingleState.Settles, hmsg, htime]
      exact hwhy
    let resp : NodeResponse := ⟨rawMsg, nodeAlias, signedTime.getD 0⟩
    have hcard : (insert nodeAlias (state.voters result)).card =
        (state.responsesWith result resp).keys.length := by
      have hset := SingleState.keySet_responsesWith state result resp
      rw [← hset, keySet, toFinset_card_of_nodup (AList.keys_nodup _)]
    by_cases hf : sm.f < (state.responsesWith result resp).keys.length
    · have hf' := hf
      rw [SingleState.responsesWith] at hf'
      simp only at h
      rw [if_pos hf'] at h
      cases h
      exact ⟨fun hgives => absurd hgives (not_givesUp_of_ok rfl),
        fun _ => hsettles (.inl (hcard ▸ hf)), .inl rfl⟩
    · rw [SingleState.responsesWith] at hf
      simp only at h
      rw [if_neg hf] at h
      obtain ⟨accepted, haccepted, h⟩ := Outcome.bind_eq_ok_iff.mp h
      cases accepted with
      | true =>
        cases h
        exact ⟨fun hgives => absurd hgives (not_givesUp_of_ok rfl),
          fun _ => hsettles (.inr haccepted), .inl rfl⟩
      | false =>
        exact tryToContinue_inTime
          (SingleState.counting_reply resp herased hmem htimeout hother.1 hother.2)
          (SingleState.heardFrom_reply state result resp) hsender (Outcome.ok.inj h)
  · rw [hresult] at hother
    rw [hmsg] at h
    exact tryToContinue_inTime (SingleState.counting_denied herased hmem htimeout hother)
      (SingleState.heardFrom_denied state nodeAlias) hsender (Outcome.ok.inj h)

theorem singleStep_inTime (hcounting : state.Counting sm.nodes)
    (honce : state.CountsOnce crates sm.nodes event)
    (h : sm.singleStep crates world state event = .ok (next, output)) :
    sm.EndsInTime crates world state event next output := by
  cases event with
  | reply rep rawMsg nodeAlias reqId =>
    exact singleReply_inTime hcounting honce rfl rfl h
  | reqNACK rep rawMsg nodeAlias reqId =>
    exact singleReply_inTime hcounting honce rfl rfl h
  | reject rep rawMsg nodeAlias reqId =>
    exact singleReply_inTime hcounting honce rfl rfl h
  | timeout reqId nodeAlias =>
    obtain ⟨hmem, hdenied, hbuckets⟩ := honce
    exact tryToContinue_inTime (SingleState.counting_timeout hcounting hmem hdenied hbuckets)
      (SingleState.heardFrom_timeout state nodeAlias) rfl (Outcome.ok.inj h)
  | terminate =>
    cases h
    exact ⟨fun hgives => absurd hgives (not_givesUp_of_terminate sm), fun _ => .terminated,
      Or.inl rfl⟩
  | _ =>
    cases h
    exact endsInTime_kept hcounting

end RequestSM

/-- The request to single nodes that waits for them. -/
def waitingSingle : Option RequestSM → Option (RequestSM × SingleState)
  | some sm =>
    match sm.state with
    | .single state => some (sm, state)
    | _ => none
  | none => none

/-- An event of a request to single nodes is one of a node that is counted nowhere else. -/
def CountsSingleOnce (crates : Crates) (s : Option RequestSM) (input : World × RequestEvent) :
    Prop :=
  ∀ request ∈ waitingSingle s, request.2.CountsOnce crates request.1.nodes input.2

/-- A step tells a command that agreement is impossible only when every node was heard. -/
def FailsInTime (crates : Crates) (s : Option RequestSM) (input : World × RequestEvent) : Prop :=
  ∀ request ∈ waitingSingle s, ∀ output ∈ ((requestMachine crates).step input s).1,
    output.GivesUp → request.2.AllHeard request.1.nodes input.2

/-- A step ends the request only when it is terminated, settled, or every node was heard. -/
def EndsForReason (crates : Crates) (s : Option RequestSM) (input : World × RequestEvent) : Prop :=
  ∀ request ∈ waitingSingle s, ∀ sm' ∈ ((requestMachine crates).step input s).2,
    sm'.state = .finish → request.2.MayEnd crates input.1 request.1 input.2

/-- A request to single nodes that counts every node once. -/
def CountingSingle (s : Option RequestSM) : Prop :=
  ∀ request ∈ waitingSingle s, request.2.Counting request.1.nodes

/-- A machine that is in the single state, has ended or has panicked. -/
def InSingle (s : Option RequestSM) : Prop :=
  ∀ sm ∈ s, sm.state = .finish ∨ ∃ state, sm.state = .single state

theorem waitingSingle_of_single (h : sm.state = .single state) :
    waitingSingle (some sm) = some (sm, state) := by
  simp only [waitingSingle, h]

theorem step_endsInTime {state : SingleState} (hstate : sm.state = .single state)
    (hcounting : state.Counting sm.nodes) {input : World × RequestEvent}
    (honce : state.CountsOnce crates sm.nodes input.2) :
    (requestMachine crates).step input (some sm) = (none, none) ∨ ∃ next output,
      (requestMachine crates).step input (some sm) =
        (some output, some { sm with state := next }) ∧
      sm.EndsInTime crates input.1 state input.2 next output := by
  rcases @requestMachine_step_cases crates (some sm) input with ⟨output, hout⟩ | hnone
  · right
    obtain ⟨sm', next, ⟨⟩, hstep, -⟩ := requestMachine_step_some hout
    refine ⟨next, output, requestMachine_step_of_ok hstep, ?_⟩
    rw [RequestSM.stateStep, hstate] at hstep
    exact RequestSM.singleStep_inTime hcounting honce hstep
  · exact .inl hnone

theorem step_failsInTime (s : Option RequestSM) (input : World × RequestEvent)
    (h : InSingle s ∧ CountingSingle s) (honce : CountsSingleOnce crates s input) :
    (FailsInTime crates s input ∧ EndsForReason crates s input) ∧
      InSingle ((requestMachine crates).step input s).2 ∧
      CountingSingle ((requestMachine crates).step input s).2 := by
  obtain ⟨hsingle, hcounting⟩ := h
  cases s with
  | none =>
    refine ⟨⟨?_, ?_⟩, ?_, ?_⟩
    · rintro request ⟨⟩
    · rintro request ⟨⟩
    · rintro sm ⟨⟩
    · rintro request ⟨⟩
  | some sm =>
    rcases hsingle sm rfl with hfinish | ⟨state, hstate⟩
    · have hstep : sm.stateStep crates input.1 input.2 = .ok (.finish, {}) := by
        rw [RequestSM.stateStep, hfinish]
      have hwaiting : waitingSingle (some sm) = none := by
        simp only [waitingSingle, hfinish]
      rw [FailsInTime, EndsForReason, hwaiting, requestMachine_step_of_ok hstep]
      refine ⟨⟨?_, ?_⟩, ?_, ?_⟩
      · rintro request ⟨⟩
      · rintro request ⟨⟩
      · rintro sm' ⟨⟩
        exact .inl rfl
      · rintro request ⟨⟩
    · have hwaiting := waitingSingle_of_single hstate
      have hin : (sm, state) ∈ waitingSingle (some sm) := hwaiting
      rw [FailsInTime, EndsForReason, hwaiting]
      rcases step_endsInTime hstate (hcounting _ hin) (honce _ hin) with
        hnone | ⟨next, output, hstep, hends⟩
      · rw [hnone]
        refine ⟨⟨?_, ?_⟩, ?_, ?_⟩
        · rintro request - output ⟨⟩
        · rintro request - sm' ⟨⟩
        · rintro sm' ⟨⟩
        · rintro request ⟨⟩
      · rw [hstep]
        refine ⟨⟨?_, ?_⟩, ?_, ?_⟩
        · rintro request ⟨⟩ output ⟨⟩
          exact hends.givesUp
        · rintro request ⟨⟩ sm' ⟨⟩
          exact hends.ends
        · rintro sm' ⟨⟩
          exact hends.next.imp_right (Exists.imp (fun _ => And.left))
        · rintro request hrequest
          rcases hends.next with rfl | ⟨state', rfl, hcounting'⟩
          · cases hrequest
          · cases hrequest
            exact hcounting'

/-- A request that counts each node once, and only nodes of the pool, fails only after every node
was heard, and ends for no other reason than an answer that settles it. -/
theorem single_never_early (hstart : sm.state = .start) (world : World) (msg reqId : String)
    (inputs : List (World × RequestEvent))
    (honce : (requestMachine crates).Along (CountsSingleOnce crates) (some sm)
      ((world, .customSingleRequest msg reqId) :: inputs)) :
    (requestMachine crates).Along
      (fun s input => FailsInTime crates s input ∧ EndsForReason crates s input) (some sm)
      ((world, .customSingleRequest msg reqId) :: inputs) := by
  have hstep : sm.stateStep crates world (.customSingleRequest msg reqId) =
      .ok (.single ⟨∅, ∅, ∅⟩, { networker := [.sendOneRequest msg reqId sm.timeout,
        .resend reqId sm.timeout] }) := by
    rw [RequestSM.stateStep, hstart]
    rfl
  have hwaiting : waitingSingle (some sm) = none := by
    simp only [waitingSingle, hstart]
  obtain ⟨-, honce⟩ := honce
  refine ⟨⟨?_, ?_⟩, ?_⟩
  · rw [FailsInTime, hwaiting]
    rintro request ⟨⟩
  · rw [EndsForReason, hwaiting]
    rintro request ⟨⟩
  · rw [requestMachine_step_of_ok hstep] at honce ⊢
    refine Machine.along_of_along step_failsInTime ⟨?_, ?_⟩ honce
    · rintro sm' ⟨⟩
      exact .inr ⟨_, rfl⟩
    · rintro request ⟨⟩
      exact SingleState.counting_empty sm.nodes

instance (state : SingleState) (nodeAlias : String) : Decidable (state.Heard nodeAlias) :=
  inferInstanceAs (Decidable (∃ group ∈ state.groups, nodeAlias ∈ group))

instance (state : SingleState) (nodes : Nodes) (event : RequestEvent) :
    Decidable (state.AllHeard nodes event) :=
  inferInstanceAs (Decidable (∀ nodeAlias ∈ nodes.keySet,
    state.Heard nodeAlias ∨ event.sender = some nodeAlias))

instance (s : Option RequestSM) (input : World × RequestEvent) :
    Decidable (FailsInTime crates s input) :=
  inferInstanceAs (Decidable (∀ request ∈ waitingSingle s,
    ∀ output ∈ ((requestMachine crates).step input s).1,
      output.GivesUp → request.2.AllHeard request.1.nodes input.2))

instance (state : SingleState) (nodes : Nodes) (rawMsg nodeAlias : String) :
    Decidable (state.RepliesOnce crates nodes rawMsg nodeAlias) :=
  match h : resultOf crates rawMsg with
  | some result => decidable_of_iff (nodeAlias ∈ nodes.keySet ∧ nodeAlias ∉ state.deniedNodes ∧
      ∀ bucket ∈ state.replies.toPairs, nodeAlias ∈ bucket.2.keySet → bucket.1 = result)
      (by rw [SingleState.RepliesOnce, h])
  | none => decidable_of_iff (nodeAlias ∈ nodes.keySet ∧
      ∀ bucket ∈ state.replies.values, nodeAlias ∉ bucket.keySet)
      (by rw [SingleState.RepliesOnce, h])

instance (state : SingleState) (nodes : Nodes) :
    (event : RequestEvent) → Decidable (state.CountsOnce crates nodes event)
  | .reply _ rawMsg nodeAlias _ | .reqNACK _ rawMsg nodeAlias _ | .reject _ rawMsg nodeAlias _ =>
    inferInstanceAs (Decidable (state.RepliesOnce crates nodes rawMsg nodeAlias))
  | .timeout _ nodeAlias => inferInstanceAs (Decidable (nodeAlias ∈ nodes.keySet ∧
      nodeAlias ∉ state.deniedNodes ∧ ∀ bucket ∈ state.replies.values, nodeAlias ∉ bucket.keySet))
  | .reqACK _ _ _ _ | .ledgerStatus _ _ _ | .consistencyProof _ _ | .catchupRep _ _
  | .catchupReq _ _ _ | .customSingleRequest _ _ | .customConsensusRequest _ _
  | .customFullRequest _ _ _ _ | .poolLedgerTxns | .ping | .pong | .terminate => isTrue trivial

instance (s : Option RequestSM) (input : World × RequestEvent) :
    Decidable (CountsSingleOnce crates s input) :=
  inferInstanceAs (Decidable (∀ request ∈ waitingSingle s,
    request.2.CountsOnce crates request.1.nodes input.2))

def askedOne : World × RequestEvent := (World.at 0, .customSingleRequest "request" "1")

/-- A node times out and answers after all, one cannot be read, and two disagree. -/
theorem single_never_early_late :
    (requestMachine echoCrates).Along
      (fun s input => FailsInTime echoCrates s input ∧ EndsForReason echoCrates s input)
      (some fourNodesRequest) [askedOne, timeoutOf "Node1", replyOf "Node2" "",
        replyOf "Node1" "a", replyOf "Node3" "b", timeoutOf "Node4"] :=
  single_never_early rfl (World.at 0) "request" "1" [timeoutOf "Node1", replyOf "Node2" "",
    replyOf "Node1" "a", replyOf "Node3" "b", timeoutOf "Node4"] (by decide +kernel)

/-- One node gives four results, and the request fails though three nodes were not heard. -/
theorem talkative_node_fails :
    ¬ (requestMachine echoCrates).Along
      (fun s input => FailsInTime echoCrates s input ∧ EndsForReason echoCrates s input)
      (some fourNodesRequest) [askedOne, replyOf "Node1" "a", replyOf "Node1" "b",
        replyOf "Node1" "c", replyOf "Node1" "d"] := by
  intro h
  have hfails := Machine.along_mono (fun _ _ hstep => hstep.1) h
  revert hfails
  decide +kernel

end IndySdk.Pool
