import IndySdk.NetworkerSteps

/-!
# What the networker does with an event

Each event changes at most one connection and one mapping, apart from the sweep that removes the
orphaned connections. Whatever is proved of all changes holds of every event.
-/

namespace IndySdk.Pool

open Outcome

namespace ZMQNetworker

open PoolConnection

/-- The connection that a request goes out over: the one it is mapped to, else the last one when it
is available, else a new one. -/
inductive Takes (nw : ZMQNetworker) (reqId : String) (around : Surroundings) :
    ℤ → PoolConnection → Prop where
  | mapped {idx : ℤ} {pc : PoolConnection} (hmap : nw.reqIdMappings.lookup reqId = some idx)
    (hpc : nw.poolConnections.lookup idx = some pc) : Takes nw reqId around idx pc
  | available {idx : ℤ} {pc : PoolConnection} (hmap : nw.reqIdMappings.lookup reqId = none)
    (hpc : nw.poolConnections.lookup idx = some pc)
    (hnodes : pc.nodes.toFinset = nw.nodes.toFinset) : Takes nw reqId around idx pc
  | fresh {pc : PoolConnection} (hmap : nw.reqIdMappings.lookup reqId = none)
    (hpc : PoolConnection.new nw.nodes nw.activeTimeout nw.preorderedNodes around = .ok pc) :
    Takes nw reqId around around.nextId pc

/-- The mappings after a request is cleaned, for one node or for all. -/
def mappingsAfter (nw : ZMQNetworker) (reqId : String) (nodeAlias : Option String) :
    AssocMap String ℤ :=
  if nodeAlias.isNone then nw.reqIdMappings.erase reqId else nw.reqIdMappings

inductive Change (nw : ZMQNetworker) (around : Surroundings) :
    NetworkerEvent → ZMQNetworker → List SentMessage → Prop where
  | sent {pe : NetworkerEvent} {reqId : String} {timeout idx : ℤ} {pc pc' : PoolConnection}
    (hsends : pe.sends = some (reqId, timeout)) (htakes : nw.Takes reqId around idx pc)
    (hresend : pc.Resendable → pc'.Resendable)
    (hsending : Sending pc pc' reqId (around.now + timeout * 1000000000) (pc.messages pe)) :
    Change nw around pe { nw with
      poolConnections := nw.poolConnections.insert idx pc'
      reqIdMappings := nw.reqIdMappings.insert reqId idx } (pc.messages pe)
  | lost {pe : NetworkerEvent} {reqId : String} {timeout idx : ℤ}
    (hsends : pe.sends = some (reqId, timeout))
    (hmap : nw.reqIdMappings.lookup reqId = some idx)
    (hpc : nw.poolConnections.lookup idx = none) :
    Change nw around pe { nw with reqIdMappings := nw.reqIdMappings.insert reqId idx } []
  | nodes (nodes : List RemoteNode) :
    Change nw around (.nodesStateUpdated nodes) { nw with nodes := nodes } []
  | extended {reqId name : String} {timeout idx : ℤ} {pc : PoolConnection}
    {timeouts : AssocMap TimerKey ℤ} (hmap : nw.reqIdMappings.lookup reqId = some idx)
    (hpc : nw.poolConnections.lookup idx = some pc)
    (htimers : ∀ key, timeouts.lookup key =
      if key = (reqId, name) then
        (pc.timeouts.lookup key).map (fun _ => around.now + timeout * 1000000000)
      else pc.timeouts.lookup key) :
    Change nw around (.extendTimeout reqId name timeout) { nw with
      poolConnections := nw.poolConnections.insert idx { pc with timeouts := timeouts } } []
  | notExtended (reqId name : String) (timeout : ℤ) :
    Change nw around (.extendTimeout reqId name timeout) nw []
  | cleaned {reqId : String} {nodeAlias : Option String} {idx : ℤ} {pc : PoolConnection}
    (hmap : nw.reqIdMappings.lookup reqId = some idx)
    (hpc : nw.poolConnections.lookup idx = some pc) :
    Change nw around (.cleanTimeout reqId nodeAlias) { nw with
      poolConnections := nw.poolConnections.insert idx (pc.cleanTimeout reqId nodeAlias)
      reqIdMappings := nw.mappingsAfter reqId nodeAlias } []
  | removed {reqId : String} {nodeAlias : Option String} {idx : ℤ} {pc : PoolConnection}
    (hmap : nw.reqIdMappings.lookup reqId = some idx)
    (hpc : nw.poolConnections.lookup idx = some pc) (hexpired : pc.Expired around.now)
    (hempty : (pc.cleanTimeout reqId nodeAlias).timeouts = ∅) :
    Change nw around (.cleanTimeout reqId nodeAlias) { nw with
      poolConnections := nw.poolConnections.erase idx
      reqIdMappings := nw.mappingsAfter reqId nodeAlias } []
  | notCleaned (reqId : String) (nodeAlias : Option String)
    (hnone : ∀ idx, nw.reqIdMappings.lookup reqId = some idx →
      nw.poolConnections.lookup idx = none) :
    Change nw around (.cleanTimeout reqId nodeAlias) { nw with
      reqIdMappings := nw.mappingsAfter reqId nodeAlias } []
  | swept {connections : AssocMap ℤ PoolConnection}
    (hkept : ∀ idx pc, connections.lookup idx = some pc ↔
      nw.poolConnections.lookup idx = some pc ∧ ¬ (pc.Expired around.now ∧ pc.timeouts = ∅)) :
    Change nw around .timeout { nw with poolConnections := connections } []

variable {nw nw' : ZMQNetworker} {around : Surroundings} {pe : NetworkerEvent}
  {sent : List SentMessage} {now : ℤ} {reqId : String}

theorem mem_ordered {idx : ℤ} {pc : PoolConnection} :
    (idx, pc) ∈ nw.ordered ↔ nw.poolConnections.lookup idx = some pc := by
  rw [ordered, List.mem_insertionSort, AssocMap.mem_toPairs]

theorem expect_eq_ok {ε α : Type} {x : Outcome ε α} {a : α} (h : expect x = .ok a) :
    x = .ok a := by
  cases x with
  | ok b =>
    cases h
    rfl
  | err e => cases h
  | panic => cases h

theorem availableConnection_eq_ok {idx : ℤ} (h : nw.availableConnection now = .ok (some idx)) :
    ∃ pc, nw.poolConnections.lookup idx = some pc ∧ pc.nodes.toFinset = nw.nodes.toFinset := by
  rw [availableConnection] at h
  cases hlast : nw.ordered.getLast? with
  | none =>
    rw [hlast] at h
    cases h
  | some last =>
    obtain ⟨idx', pc⟩ := last
    rw [hlast] at h
    obtain ⟨active, -, h⟩ := bind_eq_ok_iff.mp h
    split_ifs at h with hfits
    · cases h
      exact ⟨pc, mem_ordered.mp (List.mem_of_getLast? hlast), hfits.2.2⟩
    · cases h

theorem connectionFor_none (h : nw.connectionFor reqId now = .ok none) :
    nw.reqIdMappings.lookup reqId = none := by
  rw [connectionFor] at h
  cases hmap : nw.reqIdMappings.lookup reqId with
  | none => rfl
  | some idx =>
    rw [hmap] at h
    cases h

theorem connectionFor_some {idx : ℤ} (h : nw.connectionFor reqId now = .ok (some idx)) :
    nw.reqIdMappings.lookup reqId = some idx ∨ nw.reqIdMappings.lookup reqId = none ∧
      ∃ pc, nw.poolConnections.lookup idx = some pc ∧ pc.nodes.toFinset = nw.nodes.toFinset := by
  rw [connectionFor] at h
  cases hmap : nw.reqIdMappings.lookup reqId with
  | none =>
    rw [hmap] at h
    exact .inr ⟨rfl, availableConnection_eq_ok h⟩
  | some idx' =>
    rw [hmap] at h
    cases h
    exact .inl rfl

theorem change_of_sendOver {timeout : ℤ} (hsends : pe.sends = some (reqId, timeout))
    (h : nw.sendOver pe reqId around = .ok (nw', sent)) : Change nw around pe nw' sent := by
  obtain ⟨num, hnum, h⟩ := bind_eq_ok_iff.mp h
  cases num with
  | none =>
    obtain ⟨pc, hpc, h⟩ := bind_eq_ok_iff.mp h
    obtain ⟨⟨pc', messages⟩, hsent, h⟩ := bind_eq_ok_iff.mp h
    cases h
    obtain ⟨rfl, hresend, hsending⟩ := sendRequest_eq_ok hsends (expect_eq_ok hsent)
    exact .sent hsends (.fresh (connectionFor_none hnum) hpc) hresend hsending
  | some idx =>
    simp only at h
    cases hpc : nw.poolConnections.lookup idx with
    | none =>
      rw [hpc] at h
      cases h
      rcases connectionFor_some hnum with hmap | ⟨-, pc, hpc', -⟩
      · exact .lost hsends hmap hpc
      · rw [hpc] at hpc'
        cases hpc'
    | some pc =>
      rw [hpc] at h
      obtain ⟨⟨pc', messages⟩, hsent, h⟩ := bind_eq_ok_iff.mp h
      cases h
      obtain ⟨rfl, hresend, hsending⟩ := sendRequest_eq_ok hsends (expect_eq_ok hsent)
      rcases connectionFor_some hnum with hmap | ⟨hmap, pc', hpc', hnodes⟩
      · exact .sent hsends (.mapped hmap hpc) hresend hsending
      · rw [hpc] at hpc'
        cases hpc'
        exact .sent hsends (.available hmap hpc hnodes) hresend hsending

theorem removeOrphaned_eq_ok {l : List (ℤ × PoolConnection)}
    {connections left : AssocMap ℤ PoolConnection} (h : removeOrphaned now l connections = .ok left)
    (idx : ℤ) (pc : PoolConnection) :
    left.lookup idx = some pc ↔ connections.lookup idx = some pc ∧
      ∀ pc', (idx, pc') ∈ l → ¬ (pc'.Expired now ∧ pc'.timeouts = ∅) := by
  induction l generalizing connections with
  | nil =>
    cases h
    simp
  | cons entry l ih =>
    obtain ⟨i, pc₁⟩ := entry
    obtain ⟨orphaned, horphaned, h⟩ := bind_eq_ok_iff.mp h
    have hiff := isOrphaned_eq_ok horphaned
    cases orphaned with
    | true =>
      rw [ih h]
      by_cases hi : idx = i
      · subst hi
        simp [AList.lookup_erase, hiff.mp rfl]
      · simp [AList.lookup_erase_ne hi, hi]
    | false =>
      have hnot : ¬ (pc₁.Expired now ∧ pc₁.timeouts = ∅) := by
        intro hboth
        exact Bool.false_ne_true (hiff.mpr hboth)
      rw [ih h]
      refine and_congr_right (fun _ => ⟨fun hall pc' hmem => ?_, fun hall pc' hmem => ?_⟩)
      · rcases List.mem_cons.mp hmem with heq | hmem
        · cases heq
          exact hnot
        · exact hall pc' hmem
      · exact hall pc' (List.mem_cons_of_mem _ hmem)

/-- Every event that is handled makes one of the changes. -/
theorem change_of_processEvent (h : nw.processEvent pe around = .ok (nw', sent)) :
    Change nw around pe nw' sent := by
  cases pe with
  | sendOneRequest msg reqId timeout => exact change_of_sendOver rfl h
  | sendAllRequest msg reqId timeout nodes => exact change_of_sendOver rfl h
  | resend reqId timeout => exact change_of_sendOver rfl h
  | nodesStateUpdated nodes =>
    cases h
    exact .nodes nodes
  | extendTimeout reqId name timeout =>
    simp only [processEvent] at h
    cases hmap : nw.reqIdMappings.lookup reqId with
    | none =>
      rw [hmap] at h
      cases h
      exact .notExtended reqId name timeout
    | some idx =>
      rw [hmap] at h
      simp only at h
      cases hpc : nw.poolConnections.lookup idx with
      | none =>
        rw [hpc] at h
        cases h
        exact .notExtended reqId name timeout
      | some pc =>
        rw [hpc] at h
        obtain ⟨pc', hpc', h⟩ := bind_eq_ok_iff.mp h
        cases h
        obtain ⟨timeouts, rfl, htimers⟩ := extendTimeout_eq_ok hpc'
        exact .extended hmap hpc htimers
  | cleanTimeout reqId nodeAlias =>
    obtain ⟨connections, hconnections, h⟩ := bind_eq_ok_iff.mp h
    cases h
    rw [cleanOver] at hconnections
    cases hmap : nw.reqIdMappings.lookup reqId with
    | none =>
      rw [hmap] at hconnections
      cases hconnections
      exact .notCleaned reqId nodeAlias (fun idx hidx => by rw [hmap] at hidx; cases hidx)
    | some idx =>
      rw [hmap] at hconnections
      simp only at hconnections
      cases hpc : nw.poolConnections.lookup idx with
      | none =>
        rw [hpc] at hconnections
        cases hconnections
        refine .notCleaned reqId nodeAlias (fun idx' hidx' => ?_)
        rw [hmap] at hidx'
        cases hidx'
        exact hpc
      | some pc =>
        rw [hpc] at hconnections
        obtain ⟨orphaned, horphaned, hconnections⟩ := bind_eq_ok_iff.mp hconnections
        have hiff := isOrphaned_eq_ok horphaned
        cases orphaned with
        | true =>
          cases hconnections
          obtain ⟨hexpired, hempty⟩ := hiff.mp rfl
          refine .removed hmap hpc ?_ hempty
          obtain ⟨timeouts, heq⟩ := cleanTimeout_eq pc reqId nodeAlias
          rw [heq] at hexpired
          exact hexpired
        | false =>
          cases hconnections
          exact .cleaned hmap hpc
  | timeout =>
    obtain ⟨connections, hconnections, h⟩ := bind_eq_ok_iff.mp h
    cases h
    refine .swept (fun idx pc => ?_)
    rw [removeOrphaned_eq_ok hconnections]
    refine and_congr_right (fun hpc => ⟨fun hall => hall pc (mem_ordered.mpr hpc), ?_⟩)
    intro hnot pc' hmem
    rw [mem_ordered, hpc] at hmem
    cases hmem
    exact hnot

end ZMQNetworker

end IndySdk.Pool
