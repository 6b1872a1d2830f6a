import IndySdk.CloudAgentRestart

/-!
# What survives a restart

As long as no key is created and every change is written, an owner's agent can be read back from
the wallets as it is.
-/

namespace IndySdk.Agency

open Outcome List Option AList

namespace CloudAgent

/-! ### An owner whose agent can be read back -/

/-- The routes of an owner without connections. -/
def ownRouter (myDid : String) (agent : Option Agent) : Router :=
  let router := ({} : Router).addA2aRoute myDid .forwardAgentConnection
  match agent with
  | some agent => router.addA2aRoute agent.did .agent
  | none => router

/-- What is stored of an agent is what it is. -/
structure AgentPersisted (s : CloudAgent) (agent : Agent) : Prop where
  stored : ∃ walletId walletKey, s.state.agent = some (walletId, walletKey, agent.did)
  key : s.wallet.myDids.lookup agent.did = some agent.verkey
  configs : s.wallet.didMetadata.getD ∅ = agent.configs
  apart : agent.did ≠ s.myDid

structure Persisted (s : CloudAgent) : Prop where
  state : s.pairwiseMetadata = s.state
  connections : s.connections = ∅
  pairwise : s.wallet.pairwise = ∅
  router : s.router = ownRouter s.myDid s.agent
  agent : ∀ agent, s.agent = some agent → s.AgentPersisted agent
  noAgent : s.agent = none → s.state.agent = none ∧ s.wallet = {}

/-- The keys of an owner are found in the wallet of the forward agent. -/
structure Known (myDids theirDids : AssocMap String String) (s : CloudAgent) : Prop where
  myKey : myDids.lookup s.myDid = some s.myVerkey
  theirDid : myDids.lookup s.theirDid = none
  theirKey : theirDids.lookup s.theirDid = some s.theirVerkey

variable {crates : ConnectionCrates} {protocol : ProtocolTypes} {s : CloudAgent}
  {world : AgentWorld} {agent : Agent}

theorem order_nil {α : Type} : crates.order.order ([] : List α) = [] :=
  List.Perm.eq_nil (crates.order.perm [])

theorem getPairwiseList_nil (h : s.wallet.pairwise = ∅) :
    s.getPairwiseList crates world = (world.attempt .listPairwise).bind fun _ => .ok [] := by
  unfold getPairwiseList
  rw [h, AssocMap.toPairs_empty, order_nil]
  rfl

theorem restoreConnections_nil (h : s.wallet.pairwise = ∅) (configs : AssocMap String String) :
    s.restoreConnections crates configs = .ok s := by
  unfold restoreConnections
  rw [getPairwiseList_nil h, h, AssocMap.toPairs_empty, order_nil]
  rfl

theorem ownRouter_restored {myDid : String} (h : agent.did ≠ myDid) :
    (({} : Router).addA2aRoute agent.did .agent).addA2aRoute myDid .forwardAgentConnection =
      ownRouter myDid (some agent) := by
  unfold ownRouter Router.addA2aRoute
  dsimp only
  rw [Function.update_comm h]

theorem restore_eq {myDids theirDids : AssocMap String String} (h : s.Persisted)
    (hkeys : s.Known myDids theirDids) : s.restore crates myDids theirDids = .ok s := by
  have hmine : keyForLocalDid myDids theirDids "Can't get Forward Agent Connection my did key"
      s.myDid = .ok s.myVerkey := by
    unfold keyForLocalDid
    rw [hkeys.myKey]
    rfl
  have htheirs : keyForLocalDid myDids theirDids
      "Can't get Forward Agent Connection their did key" s.theirDid = .ok s.theirVerkey := by
    unfold keyForLocalDid
    rw [hkeys.theirDid, hkeys.theirKey]
    rfl
  unfold restore
  rw [hmine, htheirs, ok_bind, ok_bind]
  cases hagent : s.agent with
  | none =>
    obtain ⟨hstate, hwallet⟩ := h.noAgent hagent
    rw [h.state, hstate]
    refine congrArg Outcome.ok (CloudAgent.ext rfl rfl rfl rfl rfl h.state rfl ?_ ?_ ?_ ?_)
    · exact hagent.symm
    · unfold stopped
      dsimp only
      rw [h.state, hstate]
      exact hwallet.symm
    · exact h.connections.symm
    · rw [h.router, hagent]
      rfl
  | some agent =>
    obtain ⟨⟨walletId, walletKey, hstate⟩, hkey, hconfigs, hapart⟩ := h.agent agent hagent
    have hwallet : (s.stopped s.theirVerkey s.myVerkey).wallet = s.wallet := by
      unfold stopped
      rw [h.state, hstate]
      rfl
    have hrestored : (s.stopped s.theirVerkey s.myVerkey).restoreAgent crates agent.did =
        .ok { s.stopped s.theirVerkey s.myVerkey with
          agent := some agent
          router := ({} : Router).addA2aRoute agent.did .agent } := by
      unfold restoreAgent keyForLocalDid
      rw [hwallet, hkey, some_or, ofOption_some, ok_bind]
      dsimp only
      rw [restoreConnections_nil (by rw [hwallet, h.pairwise]), hconfigs]
      rfl
    rw [h.state, hstate]
    dsimp only
    rw [hrestored]
    refine congrArg Outcome.ok (CloudAgent.ext rfl rfl rfl rfl rfl h.state rfl ?_ hwallet ?_ ?_)
    · exact hagent.symm
    · exact h.connections.symm
    · rw [h.router, hagent]
      exact ownRouter_restored hapart

/-! ### Messages keep an agent that can be read back -/

/-- The same owner, under the same keys. -/
structure Continues (s s' : CloudAgent) : Prop where
  theirDid : s'.theirDid = s.theirDid
  theirVerkey : s'.theirVerkey = s.theirVerkey
  myDid : s'.myDid = s.myDid
  myVerkey : s'.myVerkey = s.myVerkey

/-- A step leads to an agent that can be read back. -/
def Keeps (s s' : CloudAgent) : Prop := s'.Persisted ∧ s.Continues s'

theorem Persisted.keeps_self (h : s.Persisted) : s.Keeps s := ⟨h, rfl, rfl, rfl, rfl⟩

variable {call : AgentCall} {did : String}

theorem attempt_of_succeeds (h : world.succeeds call = true) :
    world.attempt call = .ok () := if_pos h

theorem attempt_of_fails (h : world.succeeds call = false) :
    world.attempt call = .err call.error := by
  unfold AgentWorld.attempt
  rw [h]
  rfl

theorem setPairwiseMetadata_of_succeeds (h : world.succeeds .setPairwiseMetadata = true) :
    s.setPairwiseMetadata world = (.ok (), { s with pairwiseMetadata := s.state }) := by
  unfold setPairwiseMetadata
  rw [attempt_of_succeeds h]

theorem signUp_keeps (h : s.Persisted)
    (hwritten : s.state.isSignedUp = true ∨ world.succeeds .setPairwiseMetadata = true) :
    s.Keeps (s.signUp world).2 := by
  unfold signUp
  split
  · exact h.keeps_self
  · rename_i hnot
    rw [setPairwiseMetadata_of_succeeds (hwritten.resolve_left hnot)]
    exact ⟨⟨rfl, h.connections, h.pairwise, h.router,
      fun agent hagent => ⟨(h.agent agent hagent).stored, (h.agent agent hagent).key,
        (h.agent agent hagent).configs, (h.agent agent hagent).apart⟩,
      h.noAgent⟩, rfl, rfl, rfl, rfl⟩

theorem succeeds_of_attempt (h : world.attempt call = .ok ()) :
    world.succeeds call = true := by
  cases hsucceeds : world.succeeds call with
  | true => rfl
  | false =>
    rw [attempt_of_fails hsucceeds] at h
    cases h

theorem createAgentActor_eq_ok (h : createAgentActor world = .ok agent) :
    world.succeeds .createWallet = true ∧ world.succeeds .openWallet = true ∧
      world.succeeds .createAgentDid = true ∧ agent = ⟨world.did, world.verkey, ∅⟩ := by
  obtain ⟨_, hwallet, h⟩ := bind_eq_ok_iff.mp h
  obtain ⟨_, hopened, h⟩ := bind_eq_ok_iff.mp h
  obtain ⟨_, hdid, h⟩ := bind_eq_ok_iff.mp h
  cases h
  exact ⟨succeeds_of_attempt hwallet, succeeds_of_attempt hopened, succeeds_of_attempt hdid, rfl⟩

theorem createAgent_keeps (h : s.Persisted)
    (hwritten : s.state.isSignedUp = false ∨ s.state.agent.isSome = true ∨
      (∀ agent, createAgentActor world ≠ .ok agent) ∨
        world.succeeds .setPairwiseMetadata = true ∧ world.did ≠ s.myDid) :
    s.Keeps (s.createAgent world).2 := by
  unfold createAgent
  split
  · exact h.keeps_self
  rename_i hsigned
  split
  · exact h.keeps_self
  rename_i hnone
  cases hagent : createAgentActor world with
  | err e => exact h.keeps_self
  | panic => exact h.keeps_self
  | ok agent =>
    obtain ⟨-, -, -, rfl⟩ := createAgentActor_eq_ok hagent
    have hdone : world.succeeds .setPairwiseMetadata = true ∧ world.did ≠ s.myDid := by
      rcases hwritten with hnot | hsome | hfailed | hdone
      · rw [hnot] at hsigned
        exact absurd rfl hsigned
      · exact absurd hsome hnone
      · exact absurd hagent (hfailed _)
      · exact hdone
    have hfirst : s.agent = none := by
      cases hagent : s.agent with
      | none => rfl
      | some agent =>
        obtain ⟨walletId, walletKey, hstored⟩ := (h.agent agent hagent).stored
        rw [hstored] at hnone
        exact absurd rfl hnone
    dsimp only
    rw [setPairwiseMetadata_of_succeeds hdone.1]
    refine ⟨⟨rfl, rfl, rfl, ?_, ?_, fun hnone => by cases hnone⟩, rfl, rfl, rfl, rfl⟩
    · dsimp only
      rw [h.router, hfirst]
      rfl
    · rintro agent ⟨⟩
      exact ⟨⟨_, _, rfl⟩, lookup_insert _, rfl, hdone.2⟩

theorem withWallet_keeps (wallet : AgentWallet) (h : s.Persisted) (hagent : s.agent.isSome)
    (hpairwise : wallet.pairwise = s.wallet.pairwise)
    (hmetadata : wallet.didMetadata = s.wallet.didMetadata)
    (hkeys : ∀ did verkey, s.wallet.myDids.lookup did = some verkey →
      wallet.myDids.lookup did = some verkey) : s.Keeps (s.withWallet wallet) := by
  refine ⟨⟨h.state, h.connections, hpairwise.trans h.pairwise, h.router, ?_, ?_⟩, rfl, rfl, rfl,
    rfl⟩
  · intro agent hagent'
    obtain ⟨hstored, hkey, hconfigs, hapart⟩ := h.agent agent hagent'
    refine ⟨hstored, hkeys _ _ hkey, ?_, hapart⟩
    change wallet.didMetadata.getD ∅ = agent.configs
    rw [hmetadata]
    exact hconfigs
  · intro hnone
    have hnone' : s.agent = none := hnone
    rw [hnone'] at hagent
    cases hagent

theorem lookup_insert_of_fresh {keys : AssocMap String String} {verkey : String}
    (h : keys.lookup did = none) :
    ∀ did' verkey', keys.lookup did' = some verkey' →
      (keys.insert did verkey).lookup did' = some verkey' := by
  intro did' verkey' hlookup
  have hne : did' ≠ did := by
    rintro rfl
    rw [h] at hlookup
    cases hlookup
  exact (lookup_insert_ne hne).trans hlookup

theorem storeTheirDid_eq_ok (h : s.storeTheirDid world did = .ok ()) :
    s.wallet.theirDids.lookup did = none ∧ world.succeeds .storeTheirDid = true := by
  unfold storeTheirDid at h
  split at h
  · cases h
  · rename_i hnone
    exact ⟨not_isSome_iff_eq_none.mp hnone, succeeds_of_attempt h⟩

theorem createMyDid_eq_ok (h : s.createMyDid world = .ok ()) :
    s.wallet.myDids.lookup world.did = none ∧ world.succeeds .createMyDid = true := by
  unfold createMyDid at h
  split at h
  · cases h
  · rename_i hnone
    exact ⟨not_isSome_iff_eq_none.mp hnone, succeeds_of_attempt h⟩

theorem checkNoPairwiseExists_eq_ok (h : s.checkNoPairwiseExists world did = .ok ()) :
    world.succeeds .isPairwiseExists = true ∧ s.wallet.pairwise.lookup did = none := by
  obtain ⟨_, hcall, h⟩ := bind_eq_ok_iff.mp h
  split at h
  · cases h
  · rename_i hnone
    exact ⟨succeeds_of_attempt hcall, not_isSome_iff_eq_none.mp hnone⟩

/-- A key that is not created leaves at most DIDs in the wallet. -/
theorem handleCreateKey_keeps {forDid forDidVerkey : String} (h : s.Persisted)
    (hagent : s.agent.isSome) (hnot : s.createsKey world forDid = false) :
    s.Keeps (s.handleCreateKey world agent forDid forDidVerkey).2 := by
  unfold handleCreateKey
  cases hcheck : s.checkNoPairwiseExists world forDid with
  | err e => exact h.keeps_self
  | panic => exact h.keeps_self
  | ok _ =>
    obtain ⟨hexists, hfirst⟩ := checkNoPairwiseExists_eq_ok hcheck
    dsimp only
    cases htheirs : s.storeTheirDid world forDid with
    | err e => exact h.keeps_self
    | panic => exact h.keeps_self
    | ok _ =>
      obtain ⟨hnew, hstored⟩ := storeTheirDid_eq_ok htheirs
      have hkeeps := withWallet_keeps (s.wallet.addTheirDid forDid forDidVerkey) h hagent rfl rfl
        fun _ _ hlookup => hlookup
      dsimp only
      cases hmine : (s.withWallet (s.wallet.addTheirDid forDid forDidVerkey)).createMyDid world with
      | err e => exact hkeeps
      | panic => exact hkeeps
      | ok _ =>
        obtain ⟨hdrawn, hcreated⟩ := createMyDid_eq_ok hmine
        dsimp only
        cases hpairwise : world.attempt .createPairwise with
        | ok _ =>
          have hdrawn' : s.wallet.myDids.lookup world.did = none := hdrawn
          unfold createsKey at hnot
          rw [hexists, hfirst, hnew, hstored, hdrawn', hcreated,
            succeeds_of_attempt hpairwise] at hnot
          cases hnot
        | err e =>
          exact withWallet_keeps ((s.wallet.addTheirDid forDid forDidVerkey).addMyDid world.did
            world.verkey) h hagent rfl rfl (lookup_insert_of_fresh hdrawn)
        | panic =>
          exact withWallet_keeps ((s.wallet.addTheirDid forDid forDidVerkey).addMyDid world.did
            world.verkey) h hagent rfl rfl (lookup_insert_of_fresh hdrawn)

theorem storeConfigs_keeps {configs : AssocMap String String} (h : s.Persisted)
    (hagent : s.agent = some agent)
    (hwritten : world.succeeds .setDidMetadata = true ∨ configs = agent.configs) :
    s.Keeps (s.storeConfigs world agent configs).2 := by
  have hsame : configs = agent.configs →
    { s with agent := some { agent with configs := configs } } =
      s := by
    rintro rfl
    exact CloudAgent.ext rfl rfl rfl rfl rfl rfl rfl hagent.symm rfl rfl rfl
  unfold storeConfigs
  cases hcall : world.attempt .setDidMetadata with
  | ok _ =>
    obtain ⟨hstored, hkey, -, hapart⟩ := h.agent agent hagent
    refine ⟨⟨h.state, h.connections, h.pairwise, ?_, ?_, fun hnone => by cases hnone⟩, rfl, rfl,
      rfl, rfl⟩
    · exact h.router.trans (by rw [hagent]; rfl)
    · rintro agent' ⟨⟩
      exact ⟨hstored, hkey, rfl, hapart⟩
  | err e =>
    have hfailed : world.succeeds .setDidMetadata ≠ true := fun hsucceeds => by
      rw [attempt_of_succeeds hsucceeds] at hcall
      cases hcall
    dsimp only
    rw [hsame (hwritten.resolve_left hfailed)]
    exact h.keeps_self
  | panic =>
    have hfailed : world.succeeds .setDidMetadata ≠ true := fun hsucceeds => by
      rw [attempt_of_succeeds hsucceeds] at hcall
      cases hcall
    dsimp only
    rw [hsame (hwritten.resolve_left hfailed)]
    exact h.keeps_self

theorem handleGetMessagesByConnections_keeps (h : s.Persisted) (msg : GetMessagesByConnections) :
    s.Keeps (s.handleGetMessagesByConnections crates protocol world msg).2 := by
  unfold handleGetMessagesByConnections
  rw [getPairwiseList_nil h.pairwise]
  cases world.attempt .listPairwise with
  | err e => exact h.keeps_self
  | panic => exact h.keeps_self
  | ok _ =>
    dsimp only [Outcome.bind]
    split
    · exact h.keeps_self
    · exact h.keeps_self

theorem handleUpdateMessagesByConnections_keeps (h : s.Persisted)
    (msg : UpdateMessageStatusByConnections) :
    s.Keeps (s.handleUpdateMessagesByConnections crates protocol world msg).2 := by
  unfold handleUpdateMessagesByConnections
  rw [getPairwiseList_nil h.pairwise]
  cases world.attempt .listPairwise <;> exact h.keeps_self

/-! ### Every message -/

section Messages

variable {msg : Incoming}

theorem createAgent_persists
    (h : (s.theirVerkey != msg.senderVk || !s.state.isSignedUp || s.state.agent.isSome ||
      !(msg.world.succeeds .createWallet && msg.world.succeeds .openWallet &&
        msg.world.succeeds .createAgentDid) ||
      msg.world.succeeds .setPairwiseMetadata && msg.world.did != s.myDid) = true)
    (howner : s.theirVerkey = msg.senderVk) :
    s.state.isSignedUp = false ∨ s.state.agent.isSome = true ∨
      (∀ agent, createAgentActor msg.world ≠ .ok agent) ∨
        msg.world.succeeds .setPairwiseMetadata = true ∧ msg.world.did ≠ s.myDid := by
  have hcreates : ∀ agent, createAgentActor msg.world = .ok agent →
      (msg.world.succeeds .createWallet && msg.world.succeeds .openWallet &&
        msg.world.succeeds .createAgentDid) = true := by
    intro agent hagent
    obtain ⟨hwallet, hopened, hdid, -⟩ := createAgentActor_eq_ok hagent
    rw [hwallet, hopened, hdid]
    rfl
  rw [Bool.or_eq_true, Bool.or_eq_true, Bool.or_eq_true, Bool.or_eq_true, howner, bne_self_eq_false,
    Bool.and_eq_true, bne_iff_ne, Bool.not_eq_true', Bool.not_eq_true'] at h
  rcases h with (((hsender | hnot) | hsome) | hfailed) | hdone
  · cases hsender
  · exact .inl hnot
  · exact .inr (.inl hsome)
  · refine .inr (.inr (.inl fun agent hagent => ?_))
    rw [hcreates agent hagent] at hfailed
    cases hfailed
  · exact .inr (.inr (.inr hdone))

theorem signUp_persists
    (h : (s.theirVerkey != msg.senderVk || s.state.isSignedUp ||
      msg.world.succeeds .setPairwiseMetadata) = true)
    (howner : s.theirVerkey = msg.senderVk) :
    s.state.isSignedUp = true ∨ msg.world.succeeds .setPairwiseMetadata = true := by
  rw [howner, bne_self_eq_false, Bool.false_or, Bool.or_eq_true] at h
  exact h

theorem handleForwardAgentConnection_keeps (h : s.Persisted)
    (hroute : s.router.routes msg.did = some .forwardAgentConnection)
    (hpersists : s.persists msg = true) :
    s.Keeps (s.handleForwardAgentConnection msg.world msg.senderVk msg.msgs).2 := by
  unfold handleForwardAgentConnection
  split
  · exact h.keeps_self
  rename_i hsender
  have howner : s.theirVerkey = msg.senderVk := not_not.mp hsender
  unfold persists at hpersists
  rw [hroute] at hpersists
  split <;> rename_i hlast
  · rw [hlast] at hpersists
    exact signUp_keeps h (signUp_persists hpersists howner)
  · rw [hlast] at hpersists
    exact signUp_keeps h (signUp_persists hpersists howner)
  · rw [hlast] at hpersists
    exact createAgent_keeps h (createAgent_persists hpersists howner)
  · rw [hlast] at hpersists
    exact createAgent_keeps h (createAgent_persists hpersists howner)
  · exact h.keeps_self

theorem configs_written {agent : Agent} {succeeds : Bool}
    {change : AssocMap String String → AssocMap String String} (hagent : s.agent = some agent)
    (h : (succeeds || s.agent.all fun agent => change agent.configs = agent.configs) = true) :
    succeeds = true ∨ change agent.configs = agent.configs := by
  rw [hagent, Bool.or_eq_true, all_some, decide_eq_true_iff] at h
  exact h

theorem handleAgent_keeps {agent : Agent} (h : s.Persisted) (hagent : s.agent = some agent)
    (hroute : s.router.routes msg.did = some .agent) (hpersists : s.persists msg = true) :
    s.Keeps (s.handleAgent crates protocol msg.world agent msg.msgs).2 := by
  have hsome : s.agent.isSome = true := by rw [hagent]; rfl
  unfold persists at hpersists
  rw [hroute] at hpersists
  unfold handleAgent
  cases hlast : msg.msgs.getLast? with
  | none => exact h.keeps_self
  | some last =>
    rw [hlast] at hpersists
    rcases last with last | last
    · cases last with
      | createKey key => exact handleCreateKey_keeps h hsome (Bool.not_eq_true' _ ▸ hpersists)
      | getMessagesByConnections query => exact handleGetMessagesByConnections_keeps h query
      | updateMessageStatusByConnections update =>
        exact handleUpdateMessagesByConnections_keeps h update
      | updateConfigs update => exact storeConfigs_keeps h hagent (configs_written hagent hpersists)
      | removeConfigs remove => exact storeConfigs_keeps h hagent (configs_written hagent hpersists)
      | _ => exact h.keeps_self
    · cases last with
      | createKey key => exact handleCreateKey_keeps h hsome (Bool.not_eq_true' _ ▸ hpersists)
      | getMessagesByConnections query => exact handleGetMessagesByConnections_keeps h query
      | updateMessageStatusByConnections update =>
        exact handleUpdateMessagesByConnections_keeps h update
      | updateConfigs update => exact storeConfigs_keeps h hagent (configs_written hagent hpersists)
      | removeConfigs remove => exact storeConfigs_keeps h hagent (configs_written hagent hpersists)
      | _ => exact h.keeps_self

theorem routeA2aMsg_keeps (h : s.Persisted) (hpersists : s.persists msg = true) :
    s.Keeps (s.routeA2aMsg crates protocol msg.world msg.did msg.senderVk msg.msgs).2 := by
  unfold routeA2aMsg
  cases hroute : s.router.routes msg.did with
  | none => exact h.keeps_self
  | some actor =>
    cases actor with
    | forwardAgentConnection => exact handleForwardAgentConnection_keeps h hroute hpersists
    | agent =>
      dsimp only
      cases hagent : s.agent with
      | none => exact h.keeps_self
      | some agent => exact handleAgent_keeps h hagent hroute hpersists
    | agentConnection agentPairwiseDid =>
      have hnone : s.connections.lookup agentPairwiseDid = none := by
        rw [h.connections]
        rfl
      dsimp only
      rw [hnone]
      exact h.keeps_self

end Messages

end CloudAgent

/-! ### All owners -/

namespace ForwardAgent

variable {crates : ConnectionCrates} {protocol : ProtocolTypes} {a : ForwardAgent}
  {msg : Incoming}

structure Restorable (a : ForwardAgent) : Prop where
  persisted : ∀ s ∈ a.owners, s.Persisted
  known : ∀ s ∈ a.owners, s.Known a.myDids a.theirDids

variable {myDids theirDids : AssocMap String String} {s : CloudAgent}
  {theirDid theirVerkey : String}

theorem mapM_restore {owners : List CloudAgent}
    (h : ∀ s ∈ owners, s.restore crates myDids theirDids = .ok s) :
    owners.mapM (fun s => s.restore crates myDids theirDids) = .ok owners := by
  rw [mapM_eq_ok_iff]
  exact map_congr_left h

theorem Restorable.restart (h : a.Restorable) : a.restart crates = .ok a := by
  unfold ForwardAgent.restart
  rw [mapM_restore fun s hs => CloudAgent.restore_eq (h.persisted s hs) (h.known s hs)]
  rfl

theorem Restorable.survives (h : a.Restorable) : a.Survives crates protocol :=
  ⟨a, h.restart, List.forall₂_same.mpr fun _ _ => ⟨rfl, fun _ => rfl, fun _ => rfl, fun _ => rfl⟩,
    fun _ => rfl⟩

theorem known_of_continues {s' : CloudAgent} (h : s.Known myDids theirDids)
    (hsame : s.Continues s') : s'.Known myDids theirDids := by
  refine ⟨?_, ?_, ?_⟩
  · rw [hsame.myDid, hsame.myVerkey]
    exact h.myKey
  · rw [hsame.theirDid]
    exact h.theirDid
  · rw [hsame.theirDid, hsame.theirVerkey]
    exact h.theirKey

variable (crates protocol) in
theorem routeToOwner_keeps {owners : List CloudAgent} (h : ∀ s ∈ owners, s.Persisted)
    (hpersists : ((owners.find? fun s => (s.router.routes msg.did).isSome).all
      (·.persists msg)) = true) :
    ∀ s' ∈ (routeToOwner crates protocol msg owners).2, ∃ s ∈ owners, s.Keeps s' := by
  induction owners with
  | nil => exact fun _ h => absurd h not_mem_nil
  | cons s owners ih =>
    intro s' hs'
    unfold routeToOwner at hs'
    cases hroute : (s.router.routes msg.did).isSome with
    | true =>
      rw [find?_cons, hroute] at hpersists
      rw [hroute, if_pos rfl] at hs'
      rcases mem_cons.mp hs' with rfl | hs'
      · exact ⟨s, mem_cons_self,
          CloudAgent.routeA2aMsg_keeps (h s mem_cons_self) hpersists⟩
      · exact ⟨s', mem_cons_of_mem _ hs', (h s' (mem_cons_of_mem _ hs')).keeps_self⟩
    | false =>
      rw [find?_cons, hroute] at hpersists
      rw [hroute, if_neg Bool.false_ne_true] at hs'
      rcases mem_cons.mp hs' with rfl | hs'
      · exact ⟨s', mem_cons_self, (h s' mem_cons_self).keeps_self⟩
      · obtain ⟨s₀, hs₀, hkeeps⟩ :=
          ih (fun s hs => h s (mem_cons_of_mem _ hs)) hpersists s' hs'
        exact ⟨s₀, mem_cons_of_mem _ hs₀, hkeeps⟩

/-! ### Connecting -/

theorem known_connect {did verkey : String} (h : s.Known myDids theirDids)
    (hnew : theirDids.lookup theirDid = none) (hdrawn : myDids.lookup did = none)
    (hapart : theirDids.lookup did = none) :
    s.Known (myDids.insert did verkey) (theirDids.insert theirDid theirVerkey) where
  myKey := CloudAgent.lookup_insert_of_fresh hdrawn _ _ h.myKey
  theirDid := by
    have hne : s.theirDid ≠ did := by
      intro he
      rw [← he, h.theirKey] at hapart
      cases hapart
    rw [lookup_insert_ne hne]
    exact h.theirDid
  theirKey := CloudAgent.lookup_insert_of_fresh hnew _ _ h.theirKey

theorem known_storeTheirDid (h : s.Known myDids theirDids)
    (hnew : theirDids.lookup theirDid = none) :
    s.Known myDids (theirDids.insert theirDid theirVerkey) where
  myKey := h.myKey
  theirDid := h.theirDid
  theirKey := CloudAgent.lookup_insert_of_fresh hnew _ _ h.theirKey

theorem connected_persisted (theirDid theirVerkey myDid myVerkey : String)
    (detail : ForwardAgentDetail) :
    (CloudAgent.connected theirDid theirVerkey myDid myVerkey detail).Persisted where
  state := rfl
  connections := rfl
  pairwise := rfl
  router := rfl
  agent _ hagent := by cases hagent
  noAgent _ := ⟨rfl, rfl⟩

theorem connected_known {did verkey : String} (detail : ForwardAgentDetail)
    (hmine : myDids.lookup theirDid = none) (hne : theirDid ≠ did) :
    (CloudAgent.connected theirDid theirVerkey did verkey detail).Known (myDids.insert did verkey)
      (theirDids.insert theirDid theirVerkey) where
  myKey := lookup_insert _
  theirDid := (lookup_insert_ne hne).trans hmine
  theirKey := lookup_insert _

theorem storeTheirDid_cases (a : ForwardAgent) (world : AgentWorld) (did : String) :
    (∃ e, a.storeTheirDid world did = .err e) ∨
      a.storeTheirDid world did = .ok () ∧ a.theirDids.lookup did = none := by
  unfold ForwardAgent.storeTheirDid
  split
  · rename_i hfresh
    exact .inr ⟨rfl, isNone_iff_eq_none.mp hfresh.1⟩
  · exact .inl ⟨_, rfl⟩

theorem createMyDid_cases (a : ForwardAgent) (world : AgentWorld) :
    (∃ e, a.createMyDid world = .err e) ∨
      a.createMyDid world = .ok () ∧ a.myDids.lookup world.did = none := by
  unfold ForwardAgent.createMyDid
  split
  · rename_i hfresh
    exact .inr ⟨rfl, isNone_iff_eq_none.mp hfresh.1⟩
  · exact .inl ⟨_, rfl⟩

theorem createPairwise_cases (world : AgentWorld) :
    (∃ e, createPairwise world = .err e) ∨
      createPairwise world = .ok () ∧ world.succeeds .createPairwise = true := by
  unfold createPairwise
  split
  · rename_i hsucceeds
    exact .inr ⟨rfl, hsucceeds⟩
  · exact .inl ⟨_, rfl⟩

theorem connect_restorable {world : AgentWorld} {senderVk : String} {connect : Connect}
    (h : a.Restorable)
    (hapart : (connect.fromDidVerkey != senderVk || a.connectsApart world connect) = true) :
    (a.connect world senderVk connect.fromDid connect.fromDidVerkey).2.Restorable := by
  unfold ForwardAgent.connect
  split
  · exact h
  rename_i hsender
  have howner : connect.fromDidVerkey = senderVk := not_not.mp hsender
  rw [howner, bne_self_eq_false, Bool.false_or] at hapart
  unfold connectsApart at hapart
  rcases a.storeTheirDid_cases world connect.fromDid with ⟨e, hstored⟩ | ⟨hstored, hnew⟩
  · rw [hstored]
    exact h
  rw [hstored] at hapart ⊢
  have hmine : ForwardAgent.createMyDid
      { a with theirDids := a.theirDids.insert connect.fromDid connect.fromDidVerkey } world =
        a.createMyDid world := rfl
  dsimp only
  rw [hmine]
  rcases a.createMyDid_cases world with ⟨e, hcreated⟩ | ⟨hcreated, hdrawn⟩
  · rw [hcreated]
    exact ⟨h.persisted, fun s hs => known_storeTheirDid (h.known s hs) hnew⟩
  rw [hcreated] at hapart ⊢
  have hapart' : (a.theirDids.lookup world.did).isNone = true ∧
      (!world.succeeds .createPairwise || (a.myDids.lookup connect.fromDid).isNone &&
        connect.fromDid != world.did) = true := Bool.and_eq_true_iff.mp hapart
  have hold : ∀ s ∈ a.owners, s.Known (a.myDids.insert world.did world.verkey)
      (a.theirDids.insert connect.fromDid connect.fromDidVerkey) := fun s hs =>
    known_connect (h.known s hs) hnew hdrawn (isNone_iff_eq_none.mp hapart'.1)
  dsimp only
  rcases createPairwise_cases world with ⟨e, hpairwise⟩ | ⟨hpairwise, hsucceeds⟩
  · rw [hpairwise]
    exact ⟨h.persisted, hold⟩
  rw [hpairwise]
  have hfound := hapart'.2
  rw [hsucceeds, Bool.not_true, Bool.false_or, Bool.and_eq_true, bne_iff_ne] at hfound
  constructor
  · intro s hs
    rcases mem_append.mp hs with hs | hs
    · exact h.persisted s hs
    · rw [mem_singleton.mp hs]
      exact connected_persisted _ _ _ _ _
  · intro s hs
    rcases mem_append.mp hs with hs | hs
    · exact hold s hs
    · rw [mem_singleton.mp hs]
      exact connected_known _ (isNone_iff_eq_none.mp hfound.1) hfound.2

variable (crates protocol) in
theorem step_restorable (h : a.Restorable) (hpersists : a.persists msg = true) :
    ((forwardAgent crates protocol).step msg a).2.Restorable := by
  unfold forwardAgent ForwardAgent.routeA2aMsg
  unfold ForwardAgent.persists at hpersists
  dsimp only
  split
  · rename_i hmine
    rw [if_pos hmine] at hpersists
    unfold ForwardAgent.handleA2aMsg
    split <;> rename_i hlast
    · rw [hlast] at hpersists
      exact connect_restorable h hpersists
    · rw [hlast] at hpersists
      exact connect_restorable h hpersists
    · exact h
  · rename_i hother
    rw [if_neg hother] at hpersists
    have hkeeps := routeToOwner_keeps crates protocol h.persisted hpersists
    constructor
    · intro s' hs'
      obtain ⟨s, -, hpersisted, -⟩ := hkeeps s' hs'
      exact hpersisted
    · intro s' hs'
      obtain ⟨s, hs, -, hsame⟩ := hkeeps s' hs'
      exact known_of_continues (h.known s hs) hsame

end ForwardAgent

/-! ### Runs -/

/-- Whatever is sent to a new forward agent, in whatever order: as long as no key is created, what
changes is written, and the DIDs of owners are told apart, everything survives a restart after
every message. -/
theorem restart_runs_survived (crates : ConnectionCrates) (protocol : ProtocolTypes)
    (did verkey endpoint : String) (msgs : List Incoming)
    (h : (forwardAgent crates protocol).Along (fun a msg => a.persists msg)
      (ForwardAgent.create did verkey endpoint) msgs) :
    (forwardAgent crates protocol).Along
      (fun a msg => ((forwardAgent crates protocol).step msg a).2.Survives crates protocol)
      (ForwardAgent.create did verkey endpoint) msgs := by
  have hstart : (ForwardAgent.create did verkey endpoint).Restorable :=
    ⟨fun _ hs => absurd hs not_mem_nil, fun _ hs => absurd hs not_mem_nil⟩
  refine Machine.along_of_along (fun a msg ha hpersists => ?_) hstart h
  have hnext := ForwardAgent.step_restorable crates protocol ha hpersists
  exact ⟨hnext.survives, hnext⟩

/-! ### An owner with a connection -/

/-- An owner who connects, signs up and has an agent made. -/
def connectedOwner : List Incoming :=
  { did := "agency", senderVk := "ownerKey", msgs := [.version1 (.connect ⟨"owner", "ownerKey"⟩)],
    world := { did := "forward", verkey := "forwardKey" } } :: ownedAgent

def exampleAgency : ForwardAgent := .create "agency" "agencyKey" "http://agency"

theorem restart_connectedOwner : (forwardAgent exampleCrates .V1).Along
    (fun a msg => ((forwardAgent exampleCrates .V1).step msg a).2.Survives exampleCrates .V1)
    exampleAgency (connectedOwner ++
      [{ did := "agent", senderVk := "ownerKey",
          msgs := [.version1 (.updateConfigs ⟨[⟨"name", "owner"⟩]⟩)] }]) :=
  restart_runs_survived exampleCrates .V1 "agency" "agencyKey" "http://agency" _
    (by decide +kernel)

theorem pairwiseRoutes_all {owners owners' : List CloudAgent} (did : String)
    (h : List.Forall₂ CloudAgent.SameActors owners owners') :
    owners'.all (fun s => (s.router.pairwiseRoutes did).isNone) =
      owners.all fun s => (s.router.pairwiseRoutes did).isNone := by
  induction h with
  | nil => rfl
  | cons hsame _ ih => rw [all_cons, all_cons, ih, hsame.pairwiseRoutes]

/-- The owner has a key created and asks for a connection. -/
def requestedConnection : List Incoming := connectedOwner ++
  [{ did := "agent", senderVk := "ownerKey", msgs := [.version1 (.createKey ⟨"user", "userKey"⟩)],
      world := { did := "pairwise", verkey := "pairwiseKey" } },
    { did := "pairwise", senderVk := "userKey", msgs := exampleRequest,
      world := { turns := [{}, { drawn := "request" }, {}, {}] } }]

/-- A connection whose state was written does not get back the route for messages of its agent. -/
theorem restart_forgets_route : ¬ (forwardAgent exampleCrates .V1).Along
    (fun a msg => ((forwardAgent exampleCrates .V1).step msg a).2.Survives exampleCrates .V1)
    exampleAgency requestedConnection := by
  rintro ⟨-, -, -, -, ⟨restarted, hrestart, hactors, -⟩, -⟩
  have hforgotten : ((((forwardAgent exampleCrates .V1).run requestedConnection
      exampleAgency).restart exampleCrates).bind fun a => .ok (a.owners.all fun s =>
        (s.router.pairwiseRoutes "pairwise").isNone)) = .ok true := by decide +kernel
  have hrestart' : ((forwardAgent exampleCrates .V1).run requestedConnection
      exampleAgency).restart exampleCrates = .ok restarted := hrestart
  rw [hrestart'] at hforgotten
  have hroute : (((forwardAgent exampleCrates .V1).run requestedConnection
      exampleAgency).owners.all fun s => (s.router.pairwiseRoutes "pairwise").isNone) = true :=
    (pairwiseRoutes_all "pairwise" hactors).symm.trans (Outcome.ok.inj hforgotten)
  exact absurd hroute (by decide +kernel)

end IndySdk.Agency
