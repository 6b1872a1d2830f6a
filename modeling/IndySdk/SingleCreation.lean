import IndySdk.CreationTurns
import Mathlib.Algebra.GroupWithZero.Nat
import Mathlib.Algebra.Group.Prod

/-!
# One agent and one connection for a DID

An agent is asked for after two checks, and recorded only when it has been created. What is still
on its way to an agent or to a connection counts as much as what is there.
-/

namespace IndySdk.Agency

open List

/-- A message for which an agent is being created, and not recorded yet. -/
def Creation.createsAgent : Creation → Bool
  | .walletCreated .. | .walletOpened .. | .agentDidCreated .. | .routeAdded .. => true
  | _ => false

abbrev Creations := Turns.Running Premises Creation

abbrev CreationEvent := Turns.Event CreationInput CallWorld

section Definitions

variable (owner : Owner) (s : Creations)

/-- No agent is asked for, past the checks, while another one is being created, and what the
forward agent connection remembers can be written. -/
def CreationPermitted : CreationEvent → Prop
  | .start (.signUp _ senderVk world) =>
    owner.theirVerkey = senderVk → s.state.state.isSignedUp = false → world.succeeds
  | .start (.createAgent _ senderVk _) =>
    owner.theirVerkey = senderVk → s.state.state.isSignedUp → s.state.state.agent = none →
      ∀ flight ∈ s.flights, flight.waiting.createsAgent = false
  | .start (.createKey ..) => True
  | .resume index world => ∀ flight, s.flights[index]? = some flight →
    flight.waiting matches .routeAdded .. → world.succeeds

/-- What is promised of the state after an event, and of a second agent. -/
structure CreationSound (event : CreationEvent) : Prop where
  oneAgent : ((creationTurns owner).machine.step event s).2.state.agents.length ≤ 1
  refused : ∀ version senderVk world, event = .start (.createAgent version senderVk world) →
    (s.state.agents ≠ [] ∨ ∃ flight ∈ s.flights, flight.waiting.createsAgent) →
      (∃ e, ((creationTurns owner).machine.step event s).1 = some (.error e)) ∧
        ((creationTurns owner).machine.step event s).2.state = s.state
  oneConnection : ∀ did,
    (((creationTurns owner).machine.step event s).2.state.agents.flatMap
      StartedAgent.connections).countP (fun connection =>
        connection.config.userPairwiseDid = did) ≤ 1
  agree : ((creationTurns owner).machine.step event s).2.flights = [] →
    ((creationTurns owner).machine.step event s).2.state.state =
      ((creationTurns owner).machine.step event s).2.state.pairwiseMetadata

end Definitions

namespace Premises

/-! ### Agents on their way -/

/-- How many agents a message is going to start, and how many it has started. -/
def creating : Creation → ℕ × ℕ
  | .walletCreated .. | .walletOpened .. | .agentDidCreated .. => (1, 0)
  | .routeAdded .. => (0, 1)
  | _ => 0

def recorded (s : Premises) : ℕ := if s.state.agent.isSome then 1 else 0

/-- At most one agent is recorded or on its way, all that are started are among these, and what the
forward agent connection remembers is written. -/
structure Accounted (s : Premises) (n : ℕ × ℕ) : Prop where
  single : n.1 + n.2 + s.recorded ≤ 1
  started : s.agents.length = n.2 + s.recorded
  stored : s.state = s.pairwiseMetadata

variable {creation : Creation}

theorem creating_of_createsAgent (h : creation.createsAgent = false) :
    creating creation = 0 := by
  cases creation with
  | walletCreated | walletOpened | agentDidCreated | routeAdded => cases h
  | signUpStored | agentStored | pairwiseChecked | theirDidStored | myDidCreated
  | pairwiseCreated | connectionRouted | encrypted => rfl

/-- A turn that leaves the forward agent connection and the number of agents alone. -/
structure Quiet (s : Premises) (r : CreationTurn) : Prop where
  state : r.2.state = s.state
  pairwiseMetadata : r.2.pairwiseMetadata = s.pairwiseMetadata
  agents : r.2.agents.length = s.agents.length
  share : Turns.shareOf creating r.1 = 0

variable {owner : Owner} {s : Premises} {world : CallWorld}

theorem Quiet.accounted {r : CreationTurn} (h : s.Quiet r) {rest : ℕ × ℕ} (share : ℕ × ℕ)
    (hshare : share.2 = 0) (hs : s.Accounted (rest + share)) :
    r.2.Accounted (rest + Turns.shareOf creating r.1) := by
  obtain ⟨hsingle, hstarted, hstored⟩ := hs
  have hrecorded : r.2.recorded = s.recorded := congrArg (if ·.agent.isSome then 1 else 0) h.state
  rw [Prod.snd_add, hshare, add_zero] at hstarted
  rw [Prod.fst_add, Prod.snd_add] at hsingle
  rw [h.share, add_zero]
  refine ⟨?_, ?_, ?_⟩
  · rw [hrecorded]
    omega
  · rw [hrecorded, h.agents]
    exact hstarted
  · rw [h.state, h.pairwiseMetadata]
    exact hstored

theorem refuse_quiet (s : Premises) (e : String) : s.Quiet (s.refuse e) := ⟨rfl, rfl, rfl, rfl⟩

theorem encrypt_quiet (failure : String) (msgs : List A2AMessage) :
    s.Quiet (s.encrypt world failure msgs) := ⟨rfl, rfl, rfl, rfl⟩

theorem andThen_quiet {α : Type} {called : Except String α} {next : α → CreationTurn}
    (h : ∀ a, s.Quiet (next a)) : s.Quiet (s.andThen called next) := by
  cases called with
  | ok a => exact h a
  | error e => exact refuse_quiet s e

theorem withAgent_quiet {agent : ℕ} {next : StartedAgent → CreationTurn}
    (h : ∀ started, s.Quiet (next started)) : s.Quiet (s.withAgent agent next) := by
  unfold withAgent
  split
  · exact h _
  · exact refuse_quiet s _

theorem callAgent_quiet {agent : ℕ} {call : AgentCall} {possible : AgentWallet → Bool}
    {change : AgentWallet → AgentWallet} {next : Except String Unit → Creation}
    (h : ∀ called, creating (next called) = 0) :
    s.Quiet (s.callAgent world agent call possible change next) :=
  withAgent_quiet fun _ => ⟨rfl, rfl, length_set, h _⟩

theorem createAgentConnection_quiet (version : ProtocolTypes) (agent : ℕ)
    (forDid forDidVerkey pairwiseDid pairwiseDidVerkey : String) :
    s.Quiet (s.createAgentConnection owner version agent forDid forDidVerkey pairwiseDid
      pairwiseDidVerkey) :=
  withAgent_quiet fun _ => ⟨rfl, rfl, length_set, rfl⟩

theorem signedUp_quiet (version : ProtocolTypes) : s.Quiet (s.signedUp world version) := by
  cases version with
  | V1 => exact encrypt_quiet _ _
  | V2 => exact encrypt_quiet _ _

theorem agentCreated_quiet (did verkey : String) (version : ProtocolTypes) :
    s.Quiet (s.agentCreated world did verkey version) := by
  cases version with
  | V1 => exact encrypt_quiet _ _
  | V2 => exact encrypt_quiet _ _

theorem keyCreated_quiet (did verkey : String) (version : ProtocolTypes) :
    s.Quiet (s.keyCreated world did verkey version) := by
  cases version with
  | V1 => exact encrypt_quiet _ _
  | V2 => exact encrypt_quiet _ _

theorem proceed_quiet (h : creation.createsAgent = false) :
    s.Quiet (s.proceed owner world creation) := by
  cases creation with
  | walletCreated | walletOpened | agentDidCreated | routeAdded => cases h
  | signUpStored => exact andThen_quiet fun _ => signedUp_quiet _
  | agentStored => exact andThen_quiet fun _ => agentCreated_quiet _ _ _
  | pairwiseChecked =>
    refine andThen_quiet fun found => ?_
    split
    · exact refuse_quiet s _
    · exact callAgent_quiet fun _ => rfl
  | theirDidStored => exact andThen_quiet fun _ => callAgent_quiet fun _ => rfl
  | myDidCreated => exact andThen_quiet fun _ => callAgent_quiet fun _ => rfl
  | pairwiseCreated => exact andThen_quiet fun _ => createAgentConnection_quiet _ _ _ _ _ _
  | connectionRouted => exact keyCreated_quiet _ _ _
  | encrypted => exact andThen_quiet fun _ => ⟨rfl, rfl, rfl, rfl⟩

theorem setPairwiseMetadata_state (s : Premises) :
    (setPairwiseMetadata world s).2.state = s.state := by
  unfold setPairwiseMetadata CallWorld.perform
  split <;> rfl

theorem setPairwiseMetadata_agents (s : Premises) :
    (setPairwiseMetadata world s).2.agents = s.agents := by
  unfold setPairwiseMetadata CallWorld.perform
  split <;> rfl

theorem setPairwiseMetadata_stored (h : world.succeeds) (s : Premises) :
    (setPairwiseMetadata world s).2.state = (setPairwiseMetadata world s).2.pairwiseMetadata := by
  unfold setPairwiseMetadata CallWorld.perform
  rw [h]
  rfl

theorem createWallet_frame (s : Premises) (world : CallWorld) (walletId : String) :
    (s.createWallet world walletId).2.state = s.state ∧
      (s.createWallet world walletId).2.pairwiseMetadata = s.pairwiseMetadata ∧
        (s.createWallet world walletId).2.agents = s.agents := by
  unfold createWallet CallWorld.perform
  split
  · exact ⟨rfl, rfl, rfl⟩
  · exact ⟨rfl, rfl, rfl⟩

theorem signUp_accounted {n : ℕ × ℕ} (version : ProtocolTypes) (senderVk : String)
    (hsucceeds : owner.theirVerkey = senderVk → s.state.isSignedUp = false → world.succeeds)
    (hs : s.Accounted n) : (s.signUp owner world version senderVk).2.Accounted
      (n + Turns.shareOf creating (s.signUp owner world version senderVk).1) := by
  have hquiet : ∀ e, (s.refuse e).2.Accounted (n + Turns.shareOf creating (s.refuse e).1) :=
    fun e => (refuse_quiet s e).accounted 0 rfl hs
  unfold signUp
  split
  · exact hquiet _
  · rename_i hsender
    split
    · exact hquiet _
    · rename_i hsigned
      have hsucceeds := hsucceeds (not_not.mp hsender) (Bool.not_eq_true _ ▸ hsigned)
      refine ⟨?_, ?_, setPairwiseMetadata_stored hsucceeds _⟩
      · unfold recorded
        rw [setPairwiseMetadata_state]
        exact hs.single
      · unfold recorded
        rw [setPairwiseMetadata_state, setPairwiseMetadata_agents]
        exact hs.started

theorem createAgent_accounted (version : ProtocolTypes) (senderVk : String) {n : ℕ × ℕ}
    (hn : owner.theirVerkey = senderVk → s.state.isSignedUp → s.state.agent = none → n = 0)
    (hs : s.Accounted n) : (s.createAgent owner world version senderVk).2.Accounted
      (n + Turns.shareOf creating (s.createAgent owner world version senderVk).1) := by
  have hquiet : ∀ e, (s.refuse e).2.Accounted (n + Turns.shareOf creating (s.refuse e).1) :=
    fun e => (refuse_quiet s e).accounted 0 rfl hs
  unfold createAgent
  split
  · exact hquiet _
  · rename_i hsender
    split
    · exact hquiet _
    · rename_i hsigned
      split
      · exact hquiet _
      · rename_i hagent
        have hnone := Option.not_isSome_iff_eq_none.mp hagent
        have hzero := hn (not_not.mp hsender) (by simpa using hsigned) hnone
        obtain ⟨hstate, hmetadata, hagents⟩ := createWallet_frame s world (walletId owner world)
        obtain ⟨-, hstarted, hstored⟩ := hs
        subst hzero
        unfold recorded at hstarted
        rw [hnone] at hstarted
        refine ⟨?_, ?_, hstate.trans (hstored.trans hmetadata.symm)⟩
        · unfold recorded
          rw [hstate, hnone]
          exact Nat.le_refl 1
        · unfold recorded
          rw [hstate, hagents, hnone]
          exact hstarted

theorem proceed_accounted {rest : ℕ × ℕ}
    (hsucceeds : creation matches .routeAdded .. → world.succeeds)
    (hs : s.Accounted (rest + creating creation)) :
    (s.proceed owner world creation).2.Accounted
      (rest + Turns.shareOf creating (s.proceed owner world creation).1) := by
  by_cases hcreates : creation.createsAgent
  · cases creation with
    | signUpStored | agentStored | pairwiseChecked | theirDidStored | myDidCreated
    | pairwiseCreated | connectionRouted | encrypted => cases hcreates
    | walletCreated version walletId walletKey called =>
      cases called with
      | error e => exact (refuse_quiet s e).accounted (1, 0) rfl hs
      | ok _ => exact ⟨hs.single, hs.started, hs.stored⟩
    | walletOpened version walletId walletKey called =>
      cases called with
      | error e => exact (refuse_quiet s e).accounted (1, 0) rfl hs
      | ok _ => exact ⟨hs.single, hs.started, hs.stored⟩
    | agentDidCreated version walletId walletKey did verkey called =>
      cases called with
      | error e => exact (refuse_quiet s e).accounted (1, 0) rfl hs
      | ok _ =>
        have hsingle : (rest.1 + 1) + (rest.2 + 0) + s.recorded ≤ 1 := hs.single
        have hstarted : s.agents.length = (rest.2 + 0) + s.recorded := hs.started
        have hlength : (s.startAgent did verkey).agents.length = s.agents.length + 1 :=
          length_append
        refine ⟨?_, hlength.trans ?_, hs.stored⟩
        · change (rest.1 + 0) + (rest.2 + 1) + s.recorded ≤ 1
          omega
        · change s.agents.length + 1 = (rest.2 + 1) + s.recorded
          omega
    | routeAdded version walletId walletKey did verkey =>
      have hsingle : (rest.1 + 0) + (rest.2 + 1) + s.recorded ≤ 1 := hs.single
      have hstarted : s.agents.length = (rest.2 + 1) + s.recorded := hs.started
      refine ⟨?_, ?_, setPairwiseMetadata_stored (hsucceeds rfl) _⟩
      · unfold recorded proceed storeAgent
        dsimp only
        rw [setPairwiseMetadata_state]
        change (rest.1 + 0) + (rest.2 + 0) + 1 ≤ 1
        omega
      · unfold recorded proceed storeAgent
        dsimp only
        rw [setPairwiseMetadata_state, setPairwiseMetadata_agents]
        change s.agents.length = (rest.2 + 0) + 1
        omega
  · rw [Bool.not_eq_true] at hcreates
    refine (proceed_quiet hcreates).accounted (creating creation) ?_ hs
    rw [creating_of_createsAgent hcreates]
    rfl

theorem total_creating {flights : List (Turns.Flight Premises Creation)}
    (h : ∀ flight ∈ flights, flight.waiting.createsAgent = false) :
    Turns.total creating flights = 0 := by
  refine sum_eq_zero fun n hn => ?_
  obtain ⟨flight, hflight, rfl⟩ := mem_map.mp hn
  exact creating_of_createsAgent (h flight hflight)

theorem creating_shares (owner : Owner) :
    Turns.Shares (creationTurns owner) creating (CreationPermitted owner) Accounted where
  start {s input} hpermitted hs := by
    cases input with
    | signUp version senderVk world => exact signUp_accounted version senderVk hpermitted hs
    | createAgent version senderVk world =>
      exact createAgent_accounted version senderVk
        (fun hsender hsigned hnone => total_creating (hpermitted hsender hsigned hnone)) hs
    | createKey version agent forDid forDidVerkey world =>
      have hquiet : s.state.Quiet
          (s.state.checkNoPairwiseExists world version agent forDid forDidVerkey) :=
        withAgent_quiet fun _ => ⟨rfl, rfl, rfl, rfl⟩
      exact hquiet.accounted 0 rfl hs
  resume hpermitted hflight hs := proceed_accounted (hpermitted _ hflight) hs

/-! ### Connections on their way -/

def connectionsFor (did : String) (started : StartedAgent) : ℕ :=
  started.connections.countP fun connection => connection.config.userPairwiseDid = did

def paired (did : String) (started : StartedAgent) : ℕ :=
  if (started.wallet.pairwise.lookup did).isSome then 1 else 0

/-- The record of a DID is written, and its connection is about to start. -/
def pending (agent : ℕ) (did : String) : Creation → ℕ
  | .pairwiseCreated _ agent' forDid _ _ _ (.ok _) =>
    if agent' = agent ∧ forDid = did then 1 else 0
  | _ => 0

/-- Each connection of an agent, and each that is about to start, has the record of its DID to
itself. -/
def Matched (agent : ℕ) (did : String) (s : Premises) (n : ℕ) : Prop :=
  match s.agents[agent]? with
  | some started => connectionsFor did started + n ≤ paired did started
  | none => n = 0

variable {agent : ℕ} {did : String} {n agent' : ℕ}

theorem Matched.of_le {m : ℕ} (hs : s.Matched agent did m) (h : n ≤ m) :
    s.Matched agent did n := by
  unfold Matched at *
  split at hs
  · omega
  · omega

theorem matched_of_same {r : CreationTurn} (hagents : r.2.agents = s.agents)
    (hshare : Turns.shareOf (pending agent did) r.1 = 0) (share : ℕ)
    (hs : s.Matched agent did (n + share)) :
    r.2.Matched agent did (n + Turns.shareOf (pending agent did) r.1) := by
  rw [hshare]
  have hs := hs.of_le (Nat.le_add_right n share)
  unfold Matched at *
  rw [hagents]
  exact hs

theorem refuse_matched (e : String) (share : ℕ) (hs : s.Matched agent did (n + share)) :
    (s.refuse e).2.Matched agent did (n + Turns.shareOf (pending agent did) (s.refuse e).1) :=
  matched_of_same rfl rfl share hs

theorem andThen_matched {α : Type} {called : Except String α} {next : α → CreationTurn} (share : ℕ)
    (hs : s.Matched agent did (n + share)) (h : ∀ a, called = .ok a →
      (next a).2.Matched agent did (n + Turns.shareOf (pending agent did) (next a).1)) :
    (s.andThen called next).2.Matched agent did
      (n + Turns.shareOf (pending agent did) (s.andThen called next).1) := by
  cases called with
  | ok a => exact h a rfl
  | error e => exact refuse_matched e share hs

theorem withAgent_matched {next : StartedAgent → CreationTurn} (share : ℕ)
    (hs : s.Matched agent did (n + share)) (h : ∀ started, s.agents[agent']? = some started →
      (next started).2.Matched agent did
        (n + Turns.shareOf (pending agent did) (next started).1)) :
    (s.withAgent agent' next).2.Matched agent did
      (n + Turns.shareOf (pending agent did) (s.withAgent agent' next).1) := by
  unfold withAgent
  split
  · exact h _ ‹_›
  · exact refuse_matched _ share hs

theorem setAgent_matched {started started' : StartedAgent} {m : ℕ}
    (hstarted : s.agents[agent']? = some started) (hs : s.Matched agent did m)
    (hother : agent' ≠ agent → n ≤ m)
    (hown : agent' = agent → connectionsFor did started + m ≤ paired did started →
      connectionsFor did started' + n ≤ paired did started') :
    (s.setAgent agent' started').Matched agent did n := by
  by_cases he : agent' = agent
  · subst he
    obtain ⟨hlt, -⟩ := List.getElem?_eq_some_iff.mp hstarted
    unfold Matched setAgent at *
    dsimp only at *
    rw [hstarted] at hs
    rw [getElem?_set_self hlt]
    exact hown rfl hs
  · have hs := hs.of_le (hother he)
    unfold Matched setAgent at *
    dsimp only
    rw [getElem?_set_ne he]
    exact hs

theorem paired_le_of_isSome {started started' : StartedAgent}
    (h : (started.wallet.pairwise.lookup did).isSome →
      (started'.wallet.pairwise.lookup did).isSome) :
    paired did started ≤ paired did started' := by
  unfold paired
  split
  · rw [if_pos (h ‹_›)]
  · exact Nat.zero_le _

theorem callAgent_matched {call : AgentCall} {possible : AgentWallet → Bool}
    {change : AgentWallet → AgentWallet} {next : Except String Unit → Creation}
    (hchange : ∀ wallet, (change wallet).pairwise = wallet.pairwise)
    (hnext : ∀ called, pending agent did (next called) = 0) (hs : s.Matched agent did n) :
    (s.callAgent world agent' call possible change next).2.Matched agent did
      (n + Turns.shareOf (pending agent did)
        (s.callAgent world agent' call possible change next).1) := by
  refine withAgent_matched 0 hs fun started hstarted => ?_
  have hshare : n + Turns.shareOf (pending agent did) (ρ := Except String (List A2AMessage))
      (.inl (next (world.perform call (possible started.wallet) started.wallet
        (change started.wallet)).1)) = n := by
    change n + pending agent did _ = n
    rw [hnext]
    rfl
  rw [hshare]
  refine setAgent_matched hstarted hs (fun _ => Nat.le_refl n) fun _ hmatched => ?_
  refine Nat.le_trans hmatched (paired_le_of_isSome fun hsome => ?_)
  unfold CallWorld.perform
  split
  · change ((change started.wallet).pairwise.lookup did).isSome
    rw [hchange]
    exact hsome
  · exact hsome

theorem createPairwise_matched {version : ProtocolTypes}
    {forDid forDidVerkey pairwiseDid pairwiseDidVerkey : String} (hs : s.Matched agent did n) :
    (s.createPairwise world version agent' forDid forDidVerkey pairwiseDid
      pairwiseDidVerkey).2.Matched agent did (n + Turns.shareOf (pending agent did)
        (s.createPairwise world version agent' forDid forDidVerkey pairwiseDid
          pairwiseDidVerkey).1) := by
  refine withAgent_matched 0 hs fun started hstarted => ?_
  unfold CallWorld.perform
  split
  · rename_i hpossible
    have hnone : started.wallet.pairwise.lookup forDid = none := by
      simp only [Bool.and_eq_true, Option.isNone_iff_eq_none] at hpossible
      exact hpossible.1.2
    change (s.setAgent agent' _).Matched agent did
      (n + if agent' = agent ∧ forDid = did then 1 else 0)
    refine setAgent_matched hstarted hs (fun hne => ?_) fun he hmatched => ?_
    · rw [if_neg (fun h => hne h.1)]
      exact Nat.le_refl n
    · unfold paired at *
      change connectionsFor did started + _ ≤
        if ((started.wallet.pairwise.insert forDid ⟨pairwiseDid, none⟩).lookup did).isSome
          then 1 else 0
      by_cases hdid : forDid = did
      · subst hdid
        rw [hnone] at hmatched
        rw [if_pos ⟨he, rfl⟩, AList.lookup_insert]
        exact Nat.add_le_add_right hmatched 1
      · rw [if_neg (fun h => hdid h.2), AList.lookup_insert_ne (Ne.symm hdid)]
        exact hmatched
  · exact setAgent_matched hstarted hs (fun _ => Nat.le_refl n) fun _ hmatched => hmatched

theorem createAgentConnection_matched {version : ProtocolTypes}
    {forDid forDidVerkey pairwiseDid pairwiseDidVerkey : String}
    (hs : s.Matched agent did (n + if agent' = agent ∧ forDid = did then 1 else 0)) :
    (s.createAgentConnection owner version agent' forDid forDidVerkey pairwiseDid
      pairwiseDidVerkey).2.Matched agent did (n + Turns.shareOf (pending agent did)
        (s.createAgentConnection owner version agent' forDid forDidVerkey pairwiseDid
          pairwiseDidVerkey).1) := by
  refine withAgent_matched _ hs fun started hstarted => ?_
  change (s.setAgent agent' _).Matched agent did n
  refine setAgent_matched hstarted hs (fun _ => Nat.le_add_right n _) fun he hmatched => ?_
  refine Nat.le_trans ?_ hmatched
  unfold connectionsFor
  rw [countP_append, countP_singleton]
  simp only [he, true_and, decide_eq_true_eq]
  omega

theorem startAgent_matched (agentDid verkey : String) (hs : s.Matched agent did n) :
    (s.startAgent agentDid verkey).Matched agent did n := by
  unfold Matched startAgent at *
  dsimp only
  rcases Nat.lt_trichotomy agent s.agents.length with hlt | heq | hgt
  · rw [getElem?_append_left hlt]
    exact hs
  · subst heq
    rw [getElem?_eq_none (Nat.le_refl _)] at hs
    subst hs
    rw [getElem?_concat_length]
    exact Nat.zero_le _
  · rw [getElem?_eq_none (Nat.le_of_lt hgt)] at hs
    rw [getElem?_eq_none (Nat.le_trans (Nat.le_of_eq length_append) hgt)]
    exact hs

theorem encrypt_matched (failure : String) (msgs : List A2AMessage) (share : ℕ)
    (hs : s.Matched agent did (n + share)) : (s.encrypt world failure msgs).2.Matched agent did
      (n + Turns.shareOf (pending agent did) (s.encrypt world failure msgs).1) :=
  matched_of_same rfl rfl share hs

theorem begin_matched {input : CreationInput} (hs : s.Matched agent did n) :
    (s.begin owner input).2.Matched agent did
      (n + Turns.shareOf (pending agent did) (s.begin owner input).1) := by
  cases input with
  | signUp version senderVk world =>
    unfold begin signUp
    dsimp only
    split
    · exact refuse_matched _ 0 hs
    · split
      · exact refuse_matched _ 0 hs
      · exact matched_of_same (setPairwiseMetadata_agents _) rfl 0 hs
  | createAgent version senderVk world =>
    unfold begin createAgent
    dsimp only
    split
    · exact refuse_matched _ 0 hs
    · split
      · exact refuse_matched _ 0 hs
      · split
        · exact refuse_matched _ 0 hs
        · exact matched_of_same (createWallet_frame s world _).2.2 rfl 0 hs
  | createKey version agent' forDid forDidVerkey world =>
    exact withAgent_matched 0 hs fun started _ => matched_of_same rfl rfl 0 hs

theorem proceed_matched (hs : s.Matched agent did (n + pending agent did creation)) :
    (s.proceed owner world creation).2.Matched agent did
      (n + Turns.shareOf (pending agent did) (s.proceed owner world creation).1) := by
  have hn := hs.of_le (Nat.le_add_right n _)
  cases creation with
  | signUpStored version called =>
    refine andThen_matched _ hs fun _ _ => ?_
    cases version with
    | V1 => exact encrypt_matched _ _ 0 hn
    | V2 => exact encrypt_matched _ _ 0 hn
  | walletCreated => exact andThen_matched _ hs fun _ _ => matched_of_same rfl rfl 0 hn
  | walletOpened => exact andThen_matched _ hs fun _ _ => matched_of_same rfl rfl 0 hn
  | agentDidCreated => exact andThen_matched _ hs fun _ _ => startAgent_matched _ _ hn
  | routeAdded => exact matched_of_same (setPairwiseMetadata_agents _) rfl 0 hn
  | agentStored version did verkey called =>
    refine andThen_matched _ hs fun _ _ => ?_
    cases version with
    | V1 => exact encrypt_matched _ _ 0 hn
    | V2 => exact encrypt_matched _ _ 0 hn
  | pairwiseChecked =>
    refine andThen_matched _ hs fun found _ => ?_
    split
    · exact refuse_matched _ 0 hn
    · exact callAgent_matched (fun _ => rfl) (fun _ => rfl) hn
  | theirDidStored =>
    exact andThen_matched _ hs fun _ _ => callAgent_matched (fun _ => rfl) (fun _ => rfl) hn
  | myDidCreated => exact andThen_matched _ hs fun _ _ => createPairwise_matched hn
  | pairwiseCreated version agent' forDid forDidVerkey pairwiseDid pairwiseDidVerkey called =>
    refine andThen_matched _ hs fun _ hcalled => ?_
    subst hcalled
    exact createAgentConnection_matched hs
  | connectionRouted version =>
    cases version with
    | V1 => exact encrypt_matched _ _ 0 hn
    | V2 => exact encrypt_matched _ _ 0 hn
  | encrypted => exact andThen_matched _ hs fun _ _ => matched_of_same rfl rfl 0 hn

theorem pending_shares (owner : Owner) (agent : ℕ) (did : String) :
    Turns.Shares (creationTurns owner) (pending agent did) (fun _ _ => True)
      (Matched agent did) where
  start _ hs := begin_matched hs
  resume _ _ hs := proceed_matched hs

theorem createAgent_refused {flights : List (Turns.Flight Premises Creation)}
    (hs : s.Accounted (Turns.total creating flights)) (world : CallWorld)
    (version : ProtocolTypes) (senderVk : String)
    (hpermitted : owner.theirVerkey = senderVk → s.state.isSignedUp → s.state.agent = none →
      ∀ flight ∈ flights, flight.waiting.createsAgent = false)
    (hsecond : s.agents ≠ [] ∨ ∃ flight ∈ flights, flight.waiting.createsAgent) :
    ∃ e, s.createAgent owner world version senderVk = s.refuse e := by
  unfold createAgent
  split
  · exact ⟨_, rfl⟩
  · rename_i hsender
    split
    · exact ⟨_, rfl⟩
    · rename_i hsigned
      split
      · exact ⟨_, rfl⟩
      · rename_i hagent
        have hnone := Option.not_isSome_iff_eq_none.mp hagent
        have hflights := hpermitted (not_not.mp hsender) (by simpa using hsigned) hnone
        have hstarted := hs.started
        unfold recorded at hstarted
        rw [total_creating hflights, hnone] at hstarted
        exfalso
        rcases hsecond with hagents | ⟨flight, hflight, hcreates⟩
        · exact hagents (eq_nil_of_length_eq_zero hstarted)
        · exact Bool.false_ne_true ((hflights flight hflight).symm.trans hcreates)

theorem oneConnection_of_matched {n : ℕ × ℕ} {m : ℕ} (hs : s.Accounted n)
    (hmatched : s.Matched 0 did m) :
    (s.agents.flatMap StartedAgent.connections).countP
      (fun connection => connection.config.userPairwiseDid = did) ≤ 1 := by
  have hlength : s.agents.length ≤ 1 := by
    rw [hs.started]
    have hsingle := hs.single
    omega
  unfold Matched at hmatched
  cases hagents : s.agents with
  | nil => exact Nat.zero_le 1
  | cons started rest =>
    rw [hagents] at hlength hmatched
    have hrest : rest = [] := eq_nil_of_length_eq_zero (Nat.le_zero.mp
      (Nat.le_of_succ_le_succ hlength))
    have hpaired : paired did started ≤ 1 := by
      unfold paired
      split <;> omega
    rw [hrest, flatMap_singleton]
    change connectionsFor did started ≤ 1
    change connectionsFor did started + m ≤ paired did started at hmatched
    omega

end Premises

/-! ### Runs -/

structure CreationInv (s : Creations) : Prop where
  running : s.stopped = false
  accounted : s.state.Accounted (Turns.total Premises.creating s.flights)
  matched : ∀ agent did,
    s.state.Matched agent did (Turns.total (Premises.pending agent did) s.flights)

variable {owner : Owner}

theorem CreationInv.step {s : Creations} (h : CreationInv s) {event : CreationEvent}
    (hpermitted : CreationPermitted owner s event) :
    CreationInv ((creationTurns owner).machine.step event s).2 where
  running := Turns.stopped_step (fun _ => rfl) h.running event
  accounted := (Premises.creating_shares owner).step h.accounted hpermitted
  matched agent did := (Premises.pending_shares owner agent did).step (h.matched agent did) trivial

theorem CreationInv.sound {s : Creations} (h : CreationInv s) {event : CreationEvent}
    (hpermitted : CreationPermitted owner s event) : CreationSound owner s event where
  oneAgent := by
    have hnext := (h.step hpermitted).accounted
    rw [hnext.started]
    have hsingle := hnext.single
    omega
  refused version senderVk world he hsecond := by
    subst he
    obtain ⟨e, hrefused⟩ := Premises.createAgent_refused h.accounted world version senderVk
      hpermitted hsecond
    have hturn : (creationTurns owner).turn s (.start (.createAgent version senderVk world)) =
        some ([], s.state.refuse e) := by
      refine (if_neg (Bool.eq_false_iff.mp h.running)).trans ?_
      exact congrArg (fun turn => some ([], turn)) hrefused
    refine ⟨⟨e, ?_⟩, (Turns.total_step Premises.creating hturn).1⟩
    rw [Turns.output_start_iff _ h.running]
    exact congrArg Prod.fst hrefused
  oneConnection did := by
    have hnext := h.step hpermitted
    exact Premises.oneConnection_of_matched hnext.accounted (hnext.matched 0 did)
  agree _ := (h.step hpermitted).accounted.stored

theorem connected_inv (myDid : String) : CreationInv ⟨.connected myDid, [], false⟩ where
  running := rfl
  accounted := ⟨Nat.zero_le 1, rfl, rfl⟩
  matched _ _ := rfl

/-- However the turns of an owner's messages interleave and whichever other calls fail: while no
agent is asked for during the creation of another one, and what the connection remembers can be
written, there is one agent at most, with one connection for each DID. -/
theorem creation_sound (owner : Owner) (myDid : String) (events : List CreationEvent)
    (h : (creationTurns owner).machine.Along (CreationPermitted owner)
      ⟨.connected myDid, [], false⟩ events) :
    (creationTurns owner).machine.Along (CreationSound owner) ⟨.connected myDid, [], false⟩
      events := by
  refine Machine.along_of_along (fun s event hs hpermitted => ?_) (connected_inv myDid) h
  exact ⟨CreationInv.sound hs hpermitted, CreationInv.step hs hpermitted⟩

def exampleCreator : Owner := ⟨"owner", "ownerKey", ⟨"agency", "agencyKey", "http://agency"⟩⟩

/-- The owner signs up, has an agent created and asks it twice for a key for the same DID. -/
def oneAgentTwoKeys : List CreationEvent :=
  [.start (.signUp .V1 "ownerKey" {}), .resume 0 {}, .resume 0 {},
    .start (.createAgent .V1 "ownerKey" { drawn := "wallet" }), .resume 0 {},
    .resume 0 { did := "agent", verkey := "agentKey" }, .resume 0 {}, .resume 0 {}, .resume 0 {},
    .resume 0 {}, .start (.createKey .V1 0 "user" "userKey" {}),
    .start (.createKey .V1 0 "user" "userKey" {}), .resume 0 {}, .resume 0 {},
    .resume 0 { did := "pairwise", verkey := "pairwiseKey" }, .resume 0 {}, .resume 0 {}]

theorem creation_oneAgentTwoKeys : (creationTurns exampleCreator).machine.Along
    (CreationSound exampleCreator) ⟨.connected "connection", [], false⟩ oneAgentTwoKeys := by
  refine creation_sound exampleCreator "connection" oneAgentTwoKeys ?_
  refine ⟨fun _ _ => rfl, fun _ _ _ => rfl, fun _ _ _ => rfl, ?_, fun _ _ _ => rfl,
    fun _ _ _ => rfl, fun _ _ _ => rfl, fun _ _ _ => rfl, fun _ _ _ => rfl, fun _ _ _ => rfl,
    trivial, trivial, fun _ _ _ => rfl, fun _ _ _ => rfl, fun _ _ _ => rfl, fun _ _ _ => rfl,
    fun _ _ _ => rfl, trivial⟩
  exact fun _ _ _ _ h => absurd h not_mem_nil

/-- An agent is asked for twice before the first one is recorded. -/
def twoAgents : List CreationEvent :=
  [.start (.signUp .V1 "ownerKey" {}), .start (.createAgent .V1 "ownerKey" { drawn := "first" }),
    .start (.createAgent .V1 "ownerKey" { drawn := "second" }), .resume 1 {}, .resume 1 {},
    .resume 1 { did := "first", verkey := "firstKey" },
    .resume 1 { did := "second", verkey := "secondKey" }, .resume 1 {}, .resume 1 {}]

theorem twoAgents_started : ¬ (creationTurns exampleCreator).machine.Along
    (CreationSound exampleCreator) ⟨.connected "connection", [], false⟩ twoAgents := by
  rintro ⟨-, -, -, -, -, -, -, -, hlast, -⟩
  exact absurd hlast.oneAgent (by decide +kernel)

end IndySdk.Agency
