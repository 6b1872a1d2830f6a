import IndySdk.RestartSurvival

/-!
# The connections of the pairwise records

Each pairwise record of an agent's wallet has a connection of its own, whichever messages the agent
handles and however often it is started again. A route for messages of the agent may be missing, but
it does not lead anywhere else.
-/

namespace IndySdk.Agency

open Outcome AList

/-- A message for an owner's agent, or a start of the agency with the keys of its own wallet. -/
inductive CloudEvent where
  | received (msg : Incoming)
  | restarted (myDids theirDids : AssocMap String String)

/-- An agency that cannot restore an agent does not start. -/
def CloudAgent.afterRestart (crates : ConnectionCrates) (s : CloudAgent)
    (myDids theirDids : AssocMap String String) : CloudAgent :=
  match s.restore crates myDids theirDids with
  | .ok restored => restored
  | _ => s

def restartableAgent (crates : ConnectionCrates) (protocol : ProtocolTypes) :
    Machine CloudAgent CloudEvent (Option Answer) where
  step
    | .received msg, s =>
      let handled := s.routeA2aMsg crates protocol msg.world msg.did msg.senderVk msg.msgs
      (some handled.1, handled.2)
    | .restarted myDids theirDids, s => (none, s.afterRestart crates myDids theirDids)

namespace CloudAgent

/-- The connection of a pairwise record. -/
structure HasConnection (s : CloudAgent) (did : String) (record : Pairwise) : Prop where
  key : (s.wallet.myDids.lookup record.myDid).isSome
  route : ∀ actor, s.router.pairwiseRoutes record.myDid = some actor →
    actor = .agentConnection record.myDid
  connection : ∃ connection, s.connections.lookup record.myDid = some connection ∧
    connection.config.userPairwiseDid = did

def Linked (s : CloudAgent) : Prop :=
  ∀ did record, s.wallet.pairwise.lookup did = some record → s.HasConnection did record

variable {crates : ConnectionCrates} {protocol : ProtocolTypes} {s s' : CloudAgent}
  {world : AgentWorld} {record : Pairwise}

theorem linked_of_no_records (h : s.wallet.pairwise = ∅) : s.Linked := by
  intro did record hrecord
  rw [h] at hrecord
  cases hrecord

theorem HasConnection.congr {did : String} {record' : Pairwise} (h : s.HasConnection did record)
    (hdid : record'.myDid = record.myDid) :
    s.HasConnection did record' := by
  obtain ⟨hkey, hroute, hconnection⟩ := h
  constructor
  · rw [hdid]
    exact hkey
  · rw [hdid]
    exact hroute
  · rw [hdid]
    exact hconnection

/-- What most messages leave alone: the routes and the DIDs of the records and connections. -/
structure Extends (s s' : CloudAgent) : Prop where
  routes : s'.router.pairwiseRoutes = s.router.pairwiseRoutes
  keys : ∀ did, (s.wallet.myDids.lookup did).isSome → (s'.wallet.myDids.lookup did).isSome
  records : ∀ did, (s'.wallet.pairwise.lookup did).map Pairwise.myDid =
    (s.wallet.pairwise.lookup did).map Pairwise.myDid
  configs : ∀ did, (s'.connections.lookup did).map Connection.config =
    (s.connections.lookup did).map Connection.config

theorem extends_refl (s : CloudAgent) : s.Extends s :=
  ⟨rfl, fun _ h => h, fun _ => rfl, fun _ => rfl⟩

theorem Extends.trans {s'' : CloudAgent} (h : s.Extends s') (h' : s'.Extends s'') :
    s.Extends s'' :=
  ⟨h'.routes.trans h.routes, fun did hkey => h'.keys did (h.keys did hkey),
    fun did => (h'.records did).trans (h.records did),
    fun did => (h'.configs did).trans (h.configs did)⟩

theorem Linked.of_extends (hlinked : s.Linked) (h : s.Extends s') : s'.Linked := by
  intro did record' hrecord'
  have hdid := h.records did
  rw [hrecord', Option.map_some] at hdid
  obtain ⟨record, hrecord, hsame⟩ := Option.map_eq_some_iff.mp hdid.symm
  refine HasConnection.congr ?_ hsame.symm
  obtain ⟨hkey, hroute, connection, hconnection, huser⟩ := hlinked did record hrecord
  refine ⟨h.keys _ hkey, ?_, ?_⟩
  · rw [h.routes]
    exact hroute
  · have hconfig := h.configs record.myDid
    rw [hconnection, Option.map_some] at hconfig
    obtain ⟨connection', hconnection', hconfig'⟩ := Option.map_eq_some_iff.mp hconfig
    exact ⟨connection', hconnection', by rw [hconfig']; exact huser⟩

/-! ### The messages of the owner -/

theorem setPairwiseMetadata_extends (s : CloudAgent) (world : AgentWorld) :
    s.Extends (s.setPairwiseMetadata world).2 := by
  unfold setPairwiseMetadata
  split
  · exact ⟨rfl, fun _ h => h, fun _ => rfl, fun _ => rfl⟩
  · exact extends_refl s
  · exact extends_refl s

theorem signUp_extends (s : CloudAgent) (world : AgentWorld) :
    s.Extends (s.signUp world).2 := by
  unfold signUp
  split
  · exact extends_refl s
  · obtain ⟨hroutes, hkeys, hrecords, hconfigs⟩ :=
      setPairwiseMetadata_extends { s with state := { s.state with isSignedUp := true } } world
    exact ⟨hroutes, hkeys, hrecords, hconfigs⟩

theorem createAgent_linked (h : s.Linked) : (s.createAgent world).2.Linked := by
  unfold createAgent
  split
  · exact h
  · split
    · exact h
    · split
      · refine Linked.of_extends (linked_of_no_records ?_) (setPairwiseMetadata_extends _ world)
        rfl
      · exact h
      · exact h

theorem handleForwardAgentConnection_linked (h : s.Linked) (senderVk : String)
    (msgs : List A2AMessage) :
    (s.handleForwardAgentConnection world senderVk msgs).2.Linked := by
  unfold handleForwardAgentConnection
  split
  · exact h
  · split
    · exact h.of_extends (signUp_extends s world)
    · exact h.of_extends (signUp_extends s world)
    · exact createAgent_linked h
    · exact createAgent_linked h
    · exact h

theorem withWallet_extends {wallet : AgentWallet}
    (hkeys : ∀ did, (s.wallet.myDids.lookup did).isSome → (wallet.myDids.lookup did).isSome)
    (hrecords : ∀ did, (wallet.pairwise.lookup did).map Pairwise.myDid =
      (s.wallet.pairwise.lookup did).map Pairwise.myDid) : s.Extends (s.withWallet wallet) :=
  ⟨rfl, hkeys, hrecords, fun _ => rfl⟩

theorem storeConfigs_extends (s : CloudAgent) (world : AgentWorld) (agent : Agent)
    (configs : AssocMap String String) : s.Extends (s.storeConfigs world agent configs).2 := by
  unfold storeConfigs
  dsimp only
  split
  · exact ⟨rfl, fun _ h => h, fun _ => rfl, fun _ => rfl⟩
  · exact ⟨rfl, fun _ h => h, fun _ => rfl, fun _ => rfl⟩
  · exact ⟨rfl, fun _ h => h, fun _ => rfl, fun _ => rfl⟩

/-- A key that is created has a record, a connection and a route, all of them new. -/
theorem handleCreateKey_linked (h : s.Linked) (agent : Agent) (forDid forDidVerkey : String) :
    (s.handleCreateKey world agent forDid forDidVerkey).2.Linked := by
  have hkeep : ∀ did, (s.wallet.myDids.lookup did).isSome →
      ((s.wallet.myDids.insert world.did world.verkey).lookup did).isSome := by
    intro did hdid
    by_cases hsame : did = world.did
    · rw [hsame, lookup_insert]
      rfl
    · rw [lookup_insert_ne hsame]
      exact hdid
  unfold handleCreateKey
  cases s.checkNoPairwiseExists world forDid with
  | err e => exact h
  | panic => exact h
  | ok _ =>
    dsimp only
    cases s.storeTheirDid world forDid with
    | err e => exact h
    | panic => exact h
    | ok _ =>
      dsimp only
      cases hmine : (s.withWallet (s.wallet.addTheirDid forDid forDidVerkey)).createMyDid world with
      | err e => exact h.of_extends (withWallet_extends (fun _ hdid => hdid) (fun _ => rfl))
      | panic => exact h.of_extends (withWallet_extends (fun _ hdid => hdid) (fun _ => rfl))
      | ok _ =>
        have hfresh : s.wallet.myDids.lookup world.did = none := (createMyDid_eq_ok hmine).1
        dsimp only
        cases world.attempt .createPairwise with
        | err e => exact h.of_extends (withWallet_extends hkeep (fun _ => rfl))
        | panic => exact h.of_extends (withWallet_extends hkeep (fun _ => rfl))
        | ok _ =>
          intro did record hrecord
          by_cases hdid : did = forDid
          · subst hdid
            have hnew : (s.wallet.pairwise.insert did ⟨world.did, none⟩).lookup did =
                some record := hrecord
            rw [lookup_insert] at hnew
            cases hnew
            refine ⟨?_, ?_, ?_⟩
            · change ((s.wallet.myDids.insert world.did world.verkey).lookup world.did).isSome
              rw [lookup_insert]
              rfl
            · intro actor hactor
              have hroute : Function.update s.router.pairwiseRoutes world.did
                  (some (.agentConnection world.did)) world.did = some actor := hactor
              rw [Function.update_self] at hroute
              exact (Option.some.inj hroute).symm
            · exact ⟨_, lookup_insert _, rfl⟩
          · have hold : (s.wallet.pairwise.insert forDid ⟨world.did, none⟩).lookup did =
                some record := hrecord
            rw [lookup_insert_ne hdid] at hold
            obtain ⟨hkey, hroute, connection, hconnection, huser⟩ := h did record hold
            have hne : record.myDid ≠ world.did := by
              intro hsame
              rw [hsame, hfresh] at hkey
              cases hkey
            refine ⟨hkeep _ hkey, ?_, connection, ?_, huser⟩
            · intro actor hactor
              have hactor' : Function.update s.router.pairwiseRoutes world.did
                  (some (.agentConnection world.did)) record.myDid = some actor := hactor
              rw [Function.update_of_ne hne] at hactor'
              exact hroute actor hactor'
            · exact (lookup_insert_ne hne).trans hconnection

/-! ### The connections -/

variable {connection : Connection}

theorem setConnectionState_extends {agentPairwiseDid : String}
    (hconnection : s.connections.lookup agentPairwiseDid = some connection)
    (state : AgentConnectionState) :
    s.Extends (s.setConnectionState agentPairwiseDid connection state) := by
  refine ⟨rfl, fun _ h => h, fun _ => rfl, ?_⟩
  intro did
  change ((s.connections.replace agentPairwiseDid { connection with state := state }).lookup
    did).map Connection.config = _
  rw [AssocMap.lookup_replace]
  split
  · rename_i hdid
    rw [hdid, hconnection]
    rfl
  · rfl

theorem routeA2connMsg_extends (s : CloudAgent) (did : String) (msg : A2ConnMessage) :
    s.Extends (s.routeA2connMsg crates protocol did msg).2 := by
  unfold routeA2connMsg
  split
  · split
    · rename_i connection hconnection
      exact setConnectionState_extends hconnection _
    · exact extends_refl s
  · exact extends_refl s

theorem routeAll_extends (msgs : List (String × A2ConnMessage)) (s : CloudAgent) :
    s.Extends (routeAll crates protocol msgs s).2 := by
  induction msgs generalizing s with
  | nil => exact extends_refl s
  | cons msg msgs ih => exact (routeA2connMsg_extends s msg.1 msg.2).trans (ih _)

theorem applyWrite_extends (theirDid : String) (write : WalletWrite) (s : CloudAgent) :
    s.Extends (s.withWallet (applyWrite theirDid s.wallet write)) := by
  cases write with
  | metadata state =>
    cases hrecord : s.wallet.pairwise.lookup theirDid with
    | none =>
      rw [applyWrite, hrecord]
      exact extends_refl s
    | some record =>
      rw [applyWrite, hrecord]
      refine withWallet_extends (fun _ h => h) ?_
      intro did
      dsimp only
      rw [AssocMap.lookup_replace]
      split
      · rename_i hdid
        rw [hdid, hrecord]
        rfl
      · rfl
  | theirDid did verkey =>
    rw [applyWrite]
    split
    · exact extends_refl s
    · exact withWallet_extends (fun _ h => h) (fun _ => rfl)

theorem foldl_applyWrite_extends (theirDid : String) (writes : List WalletWrite) (s : CloudAgent) :
    s.Extends (s.withWallet (writes.foldl (applyWrite theirDid) s.wallet)) := by
  induction writes generalizing s with
  | nil => exact extends_refl s
  | cons write writes ih =>
    exact (applyWrite_extends theirDid write s).trans
      (ih (s.withWallet (applyWrite theirDid s.wallet write)))

theorem handleConnection_extends {agentPairwiseDid : String}
    (hconnection : s.connections.lookup agentPairwiseDid = some connection) (senderVk : String)
    (msgs : List A2AMessage) : s.Extends
      (s.handleConnection crates protocol world agentPairwiseDid connection senderVk msgs).2 :=
  (setConnectionState_extends hconnection _).trans (foldl_applyWrite_extends _ _ _)

/-! ### Every message -/

theorem handleGetMessagesByConnections_extends (s : CloudAgent) (msg : GetMessagesByConnections) :
    s.Extends (s.handleGetMessagesByConnections crates protocol world msg).2 := by
  unfold handleGetMessagesByConnections
  split
  · exact extends_refl s
  · exact extends_refl s
  · dsimp only
    split
    · exact extends_refl s
    · exact routeAll_extends _ s

theorem handleUpdateMessagesByConnections_extends (s : CloudAgent)
    (msg : UpdateMessageStatusByConnections) :
    s.Extends (s.handleUpdateMessagesByConnections crates protocol world msg).2 := by
  unfold handleUpdateMessagesByConnections
  split
  · exact extends_refl s
  · exact extends_refl s
  · exact routeAll_extends _ s

theorem handleAgent_linked (h : s.Linked) (agent : Agent) (msgs : List A2AMessage) :
    (s.handleAgent crates protocol world agent msgs).2.Linked := by
  unfold handleAgent
  cases msgs.getLast? with
  | none => exact h
  | some last =>
    rcases last with last | last
    · cases last with
      | createKey key => exact handleCreateKey_linked h agent key.forDid key.forDidVerkey
      | getMessagesByConnections query =>
        exact h.of_extends (handleGetMessagesByConnections_extends s query)
      | updateMessageStatusByConnections update =>
        exact h.of_extends (handleUpdateMessagesByConnections_extends s update)
      | updateConfigs update => exact h.of_extends (storeConfigs_extends s world agent _)
      | removeConfigs remove => exact h.of_extends (storeConfigs_extends s world agent _)
      | _ => exact h
    · cases last with
      | createKey key => exact handleCreateKey_linked h agent key.forDid key.forDidVerkey
      | getMessagesByConnections query =>
        exact h.of_extends (handleGetMessagesByConnections_extends s query)
      | updateMessageStatusByConnections update =>
        exact h.of_extends (handleUpdateMessagesByConnections_extends s update)
      | updateConfigs update => exact h.of_extends (storeConfigs_extends s world agent _)
      | removeConfigs remove => exact h.of_extends (storeConfigs_extends s world agent _)
      | _ => exact h

theorem routeA2aMsg_linked (h : s.Linked) (did senderVk : String) (msgs : List A2AMessage) :
    (s.routeA2aMsg crates protocol world did senderVk msgs).2.Linked := by
  unfold routeA2aMsg
  split
  · exact handleForwardAgentConnection_linked h senderVk msgs
  · split
    · exact handleAgent_linked h _ msgs
    · exact h
  · split
    · rename_i connection hconnection
      exact h.of_extends (handleConnection_extends hconnection senderVk msgs)
    · exact h
  · exact h

/-! ### Restarts -/

theorem foldl_addRestored (connections : List Connection) (s : CloudAgent) :
    (connections.foldl addRestored s).wallet = s.wallet ∧
      (connections.foldl addRestored s).router.pairwiseRoutes = s.router.pairwiseRoutes := by
  induction connections generalizing s with
  | nil => exact ⟨rfl, rfl⟩
  | cons connection connections ih => exact ih (addRestored s connection)

theorem lookup_foldl_addRestored (did : String) (connections : List Connection) (s : CloudAgent) :
    (connections.foldl addRestored s).connections.lookup did = s.connections.lookup did ∧
        (∀ c ∈ connections, c.config.agentPairwiseDid ≠ did) ∨
      ∃ c ∈ connections, c.config.agentPairwiseDid = did ∧
        (connections.foldl addRestored s).connections.lookup did = some c := by
  induction connections generalizing s with
  | nil => exact .inl ⟨rfl, fun c hc => absurd hc List.not_mem_nil⟩
  | cons connection connections ih =>
    rw [List.foldl_cons]
    obtain ⟨hsame, hothers⟩ | ⟨c, hc, hdid, hlookup⟩ := ih (addRestored s connection)
    · by_cases hfirst : connection.config.agentPairwiseDid = did
      · refine .inr ⟨connection, List.mem_cons_self, hfirst, ?_⟩
        rw [hsame, addRestored, hfirst]
        exact lookup_insert _
      · refine .inl ⟨?_, ?_⟩
        · rw [hsame, addRestored]
          exact lookup_insert_ne (Ne.symm hfirst)
        · intro c hc
          obtain rfl | hc := List.mem_cons.mp hc
          · exact hfirst
          · exact hothers c hc
    · exact .inr ⟨c, List.mem_cons_of_mem _ hc, hdid, hlookup⟩

theorem restoreConnection_eq_ok {configs : AssocMap String String} {theirDid : String}
    (h : s.restoreConnection configs theirDid record = .ok connection) :
    connection.config.userPairwiseDid = theirDid ∧
      connection.config.agentPairwiseDid = record.myDid := by
  obtain ⟨_, _, h⟩ := bind_eq_ok_iff.mp h
  obtain ⟨_, _, h⟩ := bind_eq_ok_iff.mp h
  obtain ⟨_, _, h⟩ := bind_eq_ok_iff.mp h
  cases h
  exact ⟨rfl, rfl⟩

theorem Linked.eq_of_myDid (h : s.Linked) {did did' : String} {record' : Pairwise}
    (hrecord : s.wallet.pairwise.lookup did = some record)
    (hrecord' : s.wallet.pairwise.lookup did' = some record')
    (hsame : record.myDid = record'.myDid) : did = did' := by
  obtain ⟨connection, hconnection, huser⟩ := (h did record hrecord).connection
  obtain ⟨connection', hconnection', huser'⟩ := (h did' record' hrecord').connection
  rw [hsame, hconnection'] at hconnection
  cases hconnection
  exact huser.symm.trans huser'

theorem restoreConnections_linked (h : s.Linked) {stopped restored : CloudAgent}
    (hwallet : stopped.wallet = s.wallet) (hroutes : stopped.router.pairwiseRoutes = fun _ => none)
    {configs : AssocMap String String}
    (hrestored : stopped.restoreConnections crates configs = .ok restored) :
    restored.Linked ∧ restored.wallet = s.wallet := by
  obtain ⟨_, _, hrestored⟩ := bind_eq_ok_iff.mp hrestored
  obtain ⟨connections, hconnections, hrestored⟩ := bind_eq_ok_iff.mp hrestored
  cases hrestored
  obtain ⟨hsame, hnoRoutes⟩ := foldl_addRestored connections stopped
  rw [hwallet] at hsame
  rw [hroutes] at hnoRoutes
  refine ⟨?_, hsame⟩
  intro did record hrecord
  rw [hsame] at hrecord
  have hmem : (did, record) ∈ crates.order.order stopped.wallet.pairwise.toPairs := by
    rw [crates.order.mem_order, AssocMap.mem_toPairs, hwallet]
    exact hrecord
  obtain ⟨first, hfirst, hof⟩ := Outcome.exists_of_mapM hconnections hmem
  refine ⟨?_, ?_, ?_⟩
  · rw [hsame]
    exact (h did record hrecord).key
  · intro actor hactor
    rw [hnoRoutes] at hactor
    cases hactor
  · obtain ⟨-, hnone⟩ | ⟨connection, hconnection, hdid, hlookup⟩ :=
      lookup_foldl_addRestored record.myDid connections stopped
    · exact absurd (restoreConnection_eq_ok hof).2 (hnone first hfirst)
    · obtain ⟨⟨did', record'⟩, hmem', hof'⟩ := Outcome.mem_of_mapM hconnections hconnection
      rw [crates.order.mem_order, AssocMap.mem_toPairs, hwallet] at hmem'
      obtain ⟨huser, hagent⟩ := restoreConnection_eq_ok hof'
      refine ⟨connection, hlookup, huser.trans ?_⟩
      exact h.eq_of_myDid hmem' hrecord (hagent.symm.trans hdid)

theorem afterRestart_linked (h : s.Linked) (myDids theirDids : AssocMap String String) :
    (s.afterRestart crates myDids theirDids).Linked := by
  unfold afterRestart
  cases hrestore : s.restore crates myDids theirDids with
  | err e => exact h
  | panic => exact h
  | ok restored =>
    obtain ⟨myVerkey, _, hrestore⟩ := bind_eq_ok_iff.mp hrestore
    obtain ⟨theirVerkey, _, hrestore⟩ := bind_eq_ok_iff.mp hrestore
    dsimp only at hrestore
    cases hstored : s.pairwiseMetadata.agent with
    | none =>
      rw [hstored] at hrestore
      cases hrestore
      refine linked_of_no_records ?_
      dsimp only [stopped]
      rw [hstored]
      rfl
    | some stored =>
      rw [hstored] at hrestore
      obtain ⟨agent, hagent, hrestore⟩ := bind_eq_ok_iff.mp hrestore
      cases hrestore
      obtain ⟨verkey, _, hagent⟩ := bind_eq_ok_iff.mp hagent
      obtain ⟨withConnections, hconnections, hagent⟩ := bind_eq_ok_iff.mp hagent
      cases hagent
      have hwallet : (s.stopped theirVerkey myVerkey).wallet = s.wallet := by
        rw [stopped, hstored]
        rfl
      obtain ⟨hlinked, hsame⟩ := restoreConnections_linked h hwallet rfl hconnections
      exact hlinked.of_extends ⟨rfl, fun _ hkey => hkey, fun _ => rfl, fun _ => rfl⟩

variable (crates protocol) in
theorem run_linked (events : List CloudEvent) (h : s.Linked) :
    ((restartableAgent crates protocol).run events s).Linked := by
  induction events generalizing s with
  | nil => exact h
  | cons event events ih =>
    cases event with
    | received msg => exact ih (routeA2aMsg_linked h msg.did msg.senderVk msg.msgs)
    | restarted myDids theirDids => exact ih (afterRestart_linked h myDids theirDids)

end CloudAgent

end IndySdk.Agency
