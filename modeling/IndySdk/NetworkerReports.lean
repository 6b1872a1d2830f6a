import IndySdk.NetworkerChanges
import IndySdk.Lockstep

/-!
# What the networker reports

What arrives at a polled socket is reported under the name of its node. When nothing arrives, the
earliest timer is. A timer whose time is over is kept from being reported only by others that are
at least as late, and by each of them once when every report is acted upon.
-/

namespace IndySdk.Pool

open AssocMap List

namespace Duration

theorem numMilliseconds_of_nonneg {nanos : ℤ} (h : 0 ≤ nanos) :
    numMilliseconds nanos * 1000000 ≤ nanos ∧
      nanos < numMilliseconds nanos * 1000000 + 1000000 := by
  rw [numMilliseconds, Int.tdiv_eq_ediv_of_nonneg h]
  omega

theorem numMilliseconds_of_nonpos {nanos : ℤ} (h : nanos ≤ 0) :
    nanos ≤ numMilliseconds nanos * 1000000 ∧
      numMilliseconds nanos * 1000000 - 1000000 < nanos := by
  have hneg := numMilliseconds_of_nonneg (Int.neg_nonneg_of_nonpos h)
  rw [numMilliseconds, Int.neg_tdiv, ← numMilliseconds] at hneg
  omega

theorem lt_of_numMilliseconds_le {t deadline now : ℤ} (hover : deadline + 1000000 ≤ now)
    (h : numMilliseconds (t - now) ≤ numMilliseconds (deadline - now)) :
    t < deadline + 1000000 := by
  have hdeadline := numMilliseconds_of_nonpos (show deadline - now ≤ 0 by omega)
  rcases le_total (t - now) 0 with ht | ht
  · have hbounds := numMilliseconds_of_nonpos ht
    omega
  · have hbounds := numMilliseconds_of_nonneg ht
    omega

theorem lt_of_seconds_le {created active deadline now : ℤ} (hactive : 0 ≤ active)
    (hover : deadline + 1000000 ≤ now)
    (h : active * 1000 - numMilliseconds (now - created) ≤ numMilliseconds (deadline - now)) :
    created + active * 1000000000 < deadline + 1000000 := by
  have hdeadline := numMilliseconds_of_nonpos (show deadline - now ≤ 0 by omega)
  rcases le_total (now - created) 0 with ht | ht
  · have hbounds := numMilliseconds_of_nonpos ht
    omega
  · have hbounds := numMilliseconds_of_nonneg ht
    omega

end Duration

/-- What a report can be about: a timer of a connection, or the active time of the connection. -/
structure Entry where
  idx : ℤ
  key : Option TimerKey
  time : ℤ
  deriving DecidableEq

variable {timers : List (TimerKey × ℤ)}

theorem firstToEnd_mem {timer : TimerKey × ℤ} (h : firstToEnd timers = some timer) :
    timer ∈ timers :=
  argmin_mem h

theorem firstToEnd_le {timer first : TimerKey × ℤ} (hmem : timer ∈ timers)
    (h : firstToEnd timers = some first) : first.2 ≤ timer.2 :=
  le_of_mem_argmin hmem h

theorem firstToEnd_eq_none :
    firstToEnd timers = none ↔ timers = [] :=
  argmin_eq_none

namespace PoolConnection

variable {pc pc' : PoolConnection}

def expiry (pc : PoolConnection) : ℤ := pc.timeCreated + pc.activeTimeout * 1000000000

def entries (idx : ℤ) (pc : PoolConnection) : List Entry :=
  ⟨idx, none, pc.expiry⟩ :: pc.timeouts.toPairs.map (fun timer => ⟨idx, some timer.1, timer.2⟩)

/-- The connection ends a timer, or its active time, at a time. -/
def EndsAt (pc : PoolConnection) : Option TimerKey → ℤ → Prop
  | some key, time => pc.timeouts.lookup key = some time
  | none, time => pc.expiry = time

theorem mem_entries {idx : ℤ} {e : Entry} :
    e ∈ pc.entries idx ↔ e.idx = idx ∧ pc.EndsAt e.key e.time := by
  obtain ⟨idx', key, time⟩ := e
  cases key with
  | none => simp [entries, EndsAt, eq_comm]
  | some key =>
    rw [entries, mem_cons, mem_map]
    constructor
    · rintro (hnone | ⟨timer, htimer, heq⟩)
      · cases hnone
      · cases heq
        exact ⟨rfl, mem_toPairs.mp htimer⟩
    · rintro ⟨hidx, hends⟩
      cases hidx
      exact .inr ⟨(key, time), mem_toPairs.mpr hends, rfl⟩

/-- The entry that a report of the connection is about. -/
def entryOf (idx : ℤ) (pc : PoolConnection) (key : TimerKey) : Entry :=
  match pc.timeouts.lookup key with
  | some time => ⟨idx, some key, time⟩
  | none => ⟨idx, none, pc.expiry⟩

theorem entryOf_mem (idx : ℤ) (pc : PoolConnection) (key : TimerKey) :
    pc.entryOf idx key ∈ pc.entries idx := by
  rw [entryOf]
  split
  · rename_i time htime
    exact mem_entries.mpr ⟨rfl, htime⟩
  · exact mem_entries.mpr ⟨rfl, rfl⟩

theorem Sending.endsAt {reqId : String} {deadline time : ℤ} {sent : List SentMessage}
    {key : Option TimerKey} (h : Sending pc pc' reqId deadline sent) (hends : pc'.EndsAt key time) :
    pc.EndsAt key time ∨ time = deadline := by
  cases key with
  | none =>
    refine .inl ?_
    rw [EndsAt, expiry, h.timeCreated, h.activeTimeout] at hends
    exact hends
  | some key =>
    rw [EndsAt, h.timers] at hends
    split_ifs at hends with hsent
    · exact .inr (Option.some.inj hends).symm
    · exact .inl hends

theorem new_eq_ok {nodes : List RemoteNode} {activeTimeout : ℤ} {preordered : List String}
    {around : Surroundings}
    (h : PoolConnection.new nodes activeTimeout preordered around = .ok pc) :
    pc.nodes = arrange nodes preordered around.shuffle ∧ pc.timeouts = ∅ ∧ pc.resend = ∅ ∧
      pc.timeCreated = around.now ∧ pc.activeTimeout = activeTimeout := by
  simp only [PoolConnection.new] at h
  split_ifs at h with hkeys
  cases h
  exact ⟨rfl, rfl, rfl, rfl, rfl⟩

/-- The reply of each node that sent one. -/
def replies (nodes : List RemoteNode) (items : List (Option String)) : List PoolEvent :=
  (nodes.zip items).filterMap (fun r => r.2.map (fun str => .nodeReply str r.1.name))

theorem fetchFrom_eq {sockets : List (RemoteNode × Bool)} {items : List (Option String)}
    (h : items.length =
      (sockets.filterMap (fun s => if s.2 then some s.1 else none)).length) :
    fetchFrom sockets items =
      .ok (replies (sockets.filterMap (fun s => if s.2 then some s.1 else none)) items) := by
  induction sockets generalizing items with
  | nil => rfl
  | cons socket sockets ih =>
    obtain ⟨node, isOpen⟩ := socket
    cases isOpen with
    | false => exact ih h
    | true =>
      cases items with
      | nil => cases h
      | cons item items =>
        rw [fetchFrom, ih (Nat.succ.inj h), Outcome.ok_bind]
        cases item with
        | none => rfl
        | some str => rfl

theorem length_getPollItems : pc.getPollItems.length = pc.openCount := by
  have hall : ∀ (nodes : List RemoteNode) (sockets : List Bool), sockets.length = nodes.length →
      ((nodes.zip sockets).filterMap (fun s => if s.2 then some s.1 else none)).length =
        sockets.countP id := by
    intro nodes
    induction nodes with
    | nil =>
      intro sockets h
      rw [length_eq_zero_iff.mp h]
      rfl
    | cons node nodes ih =>
      intro sockets h
      cases sockets with
      | nil => cases h
      | cons isOpen sockets =>
        have hrest := ih sockets (Nat.succ.inj h)
        cases isOpen with
        | false => simpa using hrest
        | true => simpa using hrest
  exact hall pc.nodes pc.sockets pc.paired

theorem replies_append {nodes nodes' : List RemoteNode} {items items' : List (Option String)}
    (h : nodes.length = items.length) :
    replies (nodes ++ nodes') (items ++ items') = replies nodes items ++ replies nodes' items' := by
  rw [replies, zip_append h, filterMap_append]
  rfl

theorem Listens.polled {name : String} (h : pc.Listens name) :
    ∃ node ∈ pc.getPollItems, node.name = name := by
  obtain ⟨idx, node, hnode, hname, hsocket⟩ := h
  refine ⟨node, mem_filterMap.mpr ⟨(node, true), ?_, rfl⟩, hname⟩
  refine mem_of_getElem? (i := idx) ?_
  rw [getElem?_zip_eq_some]
  exact ⟨hnode, hsocket⟩

theorem getTimeout_le {key : TimerKey} {t : ℤ} (h : pc.timeouts.lookup key = some t) (now : ℤ)
    (order : IterationOrder) :
    (pc.getTimeout now order).2 ≤ Duration.numMilliseconds (t - now) := by
  have hmem : (key, Duration.numMilliseconds (t - now)) ∈
      (order.order pc.timeouts.toPairs).map (fun timer =>
        (timer.1, Duration.numMilliseconds (timer.2 - now))) :=
    mem_map.mpr ⟨(key, t), order.mem_order.mpr (mem_toPairs.mpr h), rfl⟩
  rw [getTimeout]
  split
  · rename_i timer htimer
    exact firstToEnd_le hmem htimer
  · rename_i hnone
    rw [firstToEnd_eq_none.mp hnone] at hmem
    exact absurd hmem not_mem_nil

theorem getTimeout_cases (pc : PoolConnection) (now : ℤ) (order : IterationOrder) :
    (∃ key t, pc.timeouts.lookup key = some t ∧
      pc.getTimeout now order = (key, Duration.numMilliseconds (t - now))) ∨
    (∀ key, pc.timeouts.lookup key = none) ∧ pc.getTimeout now order =
      (("", ""), pc.activeTimeout * 1000 - Duration.numMilliseconds (now - pc.timeCreated)) := by
  rw [getTimeout]
  split
  · rename_i timer htimer
    obtain ⟨⟨key, t⟩, hmem, rfl⟩ := mem_map.mp (firstToEnd_mem htimer)
    exact .inl ⟨key, t, mem_toPairs.mp (order.mem_order.mp hmem), rfl⟩
  · rename_i hnone
    refine .inr ⟨fun key => ?_, rfl⟩
    cases hlookup : pc.timeouts.lookup key with
    | none => rfl
    | some t =>
      have hmem : (key, t) ∈ order.order pc.timeouts.toPairs :=
        order.mem_order.mpr (mem_toPairs.mpr hlookup)
      rw [map_eq_nil_iff.mp (firstToEnd_eq_none.mp hnone)] at hmem
      exact absurd hmem not_mem_nil

theorem entryOf_early {idx deadline now : ℤ} {order : IterationOrder}
    (hactive : 0 ≤ pc.activeTimeout) (hover : deadline + 1000000 ≤ now)
    (h : (pc.getTimeout now order).2 ≤ Duration.numMilliseconds (deadline - now)) :
    (pc.entryOf idx (pc.getTimeout now order).1).time < deadline + 1000000 := by
  rcases getTimeout_cases pc now order with ⟨key, t, hkey, heq⟩ | ⟨hnone, heq⟩
  · rw [heq] at h ⊢
    simp only [entryOf, hkey]
    exact Duration.lt_of_numMilliseconds_le hover h
  · rw [heq] at h ⊢
    simp only [entryOf, hnone, expiry]
    exact Duration.lt_of_seconds_le hactive hover h

end PoolConnection

namespace ZMQNetworker

open PoolConnection

variable {nw nw' : ZMQNetworker} {now : ℤ} {order : IterationOrder}

theorem fetchAll_eq {connections : List PoolConnection} {items : List (Option String)}
    (h : items.length = (connections.flatMap PoolConnection.getPollItems).length) :
    fetchAll connections items =
      .ok (replies (connections.flatMap PoolConnection.getPollItems) items) := by
  induction connections generalizing items with
  | nil => rfl
  | cons pc connections ih =>
    rw [flatMap_cons, length_append, length_getPollItems] at h
    have hmine : (items.take pc.openCount).length = pc.getPollItems.length := by
      rw [length_getPollItems, length_take]
      omega
    have hothers : (items.drop pc.openCount).length =
        (connections.flatMap PoolConnection.getPollItems).length := by
      rw [length_drop]
      omega
    have hitems : replies (pc.getPollItems ++ connections.flatMap PoolConnection.getPollItems)
        items = replies pc.getPollItems (items.take pc.openCount) ++
          replies (connections.flatMap PoolConnection.getPollItems)
            (items.drop pc.openCount) := by
      rw [← replies_append hmine.symm, take_append_drop]
    rw [fetchAll, if_neg (by omega), PoolConnection.fetchEvents, fetchFrom_eq hmine,
      Outcome.ok_bind, ih hothers, flatMap_cons, hitems]
    rfl

theorem poll_arrived (nw : ZMQNetworker) (now : ℤ) (order : IterationOrder)
    (arrived : ℕ → Option String) : nw.poll now order (some arrived) =
      .ok (replies nw.getPollItems ((List.range nw.getPollItems.length).map arrived)) := by
  have hflat : (nw.ordered.map Prod.snd).flatMap PoolConnection.getPollItems = nw.getPollItems :=
    flatMap_map _ _ _
  simp only [poll, fetchEvents, Option.getD_some]
  rw [fetchAll_eq (by rw [hflat, length_map, length_range]), hflat]

theorem poll_idle (nw : ZMQNetworker) (now : ℤ) (order : IterationOrder) :
    nw.poll now order none =
      .ok [.timeout (nw.getTimeout now order).1.1 (nw.getTimeout now order).1.2] := by
  have hflat : (nw.ordered.map Prod.snd).flatMap PoolConnection.getPollItems = nw.getPollItems :=
    flatMap_map _ _ _
  have hsilent : ∀ (nodes : List RemoteNode) (n : ℕ),
      replies nodes (List.replicate n none) = [] := by
    intro nodes n
    refine filterMap_eq_nil_iff.mpr (fun r hr => ?_)
    rw [eq_of_mem_replicate (of_mem_zip hr).2]
    rfl
  simp only [poll, fetchEvents, Option.getD_none, map_const', length_range]
  rw [fetchAll_eq (by rw [hflat, length_replicate]), hsilent]
  rfl

theorem getTimeout_spec {idx : ℤ} {pc : PoolConnection}
    (hpc : nw.poolConnections.lookup idx = some pc) :
    ∃ idx' pc', nw.poolConnections.lookup idx' = some pc' ∧
      nw.getTimeout now order = pc'.getTimeout now order ∧
      (pc'.getTimeout now order).2 ≤ (pc.getTimeout now order).2 := by
  have hmem : pc.getTimeout now order ∈
      nw.ordered.map (fun c => c.2.getTimeout now order) :=
    mem_map.mpr ⟨(idx, pc), mem_ordered.mpr hpc, rfl⟩
  rw [getTimeout]
  split
  · rename_i timeout htimeout
    obtain ⟨⟨idx', pc'⟩, hmem', rfl⟩ := mem_map.mp (firstToEnd_mem htimeout)
    exact ⟨idx', pc', mem_ordered.mp hmem', rfl, firstToEnd_le hmem htimeout⟩
  · rename_i hnone
    rw [firstToEnd_eq_none.mp hnone] at hmem
    exact absurd hmem not_mem_nil

/-- All timers, and the active times of all connections. -/
def entries (nw : ZMQNetworker) : Finset Entry :=
  (nw.poolConnections.toPairs.flatMap (fun c => c.2.entries c.1)).toFinset

theorem mem_entries_iff {e : Entry} : e ∈ nw.entries ↔
    ∃ pc, nw.poolConnections.lookup e.idx = some pc ∧ pc.EndsAt e.key e.time := by
  rw [entries, mem_toFinset, mem_flatMap]
  constructor
  · rintro ⟨⟨idx, pc⟩, hmem, he⟩
    obtain ⟨hidx, hends⟩ := PoolConnection.mem_entries.mp he
    exact ⟨pc, hidx ▸ mem_toPairs.mp hmem, hends⟩
  · rintro ⟨pc, hpc, hends⟩
    exact ⟨(e.idx, pc), mem_toPairs.mpr hpc, PoolConnection.mem_entries.mpr ⟨rfl, hends⟩⟩

/-- The entry that an idle wait reports. -/
def reportedEntry (nw : ZMQNetworker) (now : ℤ) (order : IterationOrder) : Option Entry :=
  (nw.ordered.find? (fun c => c.2.getTimeout now order = nw.getTimeout now order)).map
    (fun c => c.2.entryOf c.1 (nw.getTimeout now order).1)

theorem reportedEntry_early {idx deadline : ℤ} {pc : PoolConnection} {key : TimerKey}
    (hactive : ∀ idx pc, nw.poolConnections.lookup idx = some pc → 0 ≤ pc.activeTimeout)
    (hpc : nw.poolConnections.lookup idx = some pc)
    (hkey : pc.timeouts.lookup key = some deadline) (hover : deadline + 1000000 ≤ now) :
    ∃ e, nw.reportedEntry now order = some e ∧ e ∈ nw.entries ∧ e.time < deadline + 1000000 := by
  obtain ⟨idx₁, pc₁, hpc₁, heq₁, -⟩ := @getTimeout_spec nw now order idx pc hpc
  have hfound : (nw.ordered.find?
      (fun c => c.2.getTimeout now order = nw.getTimeout now order)).isSome := by
    rw [find?_isSome]
    exact ⟨(idx₁, pc₁), mem_ordered.mpr hpc₁, decide_eq_true heq₁.symm⟩
  obtain ⟨⟨idx', pc'⟩, hfind⟩ := Option.isSome_iff_exists.mp hfound
  have hpc' := mem_ordered.mp (mem_of_find?_eq_some hfind)
  have heq : pc'.getTimeout now order = nw.getTimeout now order := by
    have hpred := find?_some hfind
    exact of_decide_eq_true hpred
  refine ⟨pc'.entryOf idx' (nw.getTimeout now order).1, by rw [reportedEntry, hfind]; rfl, ?_, ?_⟩
  · obtain ⟨hidx, hends⟩ := PoolConnection.mem_entries.mp
      (PoolConnection.entryOf_mem idx' pc' (nw.getTimeout now order).1)
    refine mem_entries_iff.mpr ⟨pc', ?_, hends⟩
    rw [hidx]
    exact hpc'
  · obtain ⟨idx₂, pc₂, -, heq₂, hle⟩ := @getTimeout_spec nw now order idx pc hpc
    rw [← heq]
    refine entryOf_early (hactive idx' pc' hpc') hover ?_
    rw [heq, heq₂]
    exact hle.trans (getTimeout_le hkey now order)

end ZMQNetworker

/-- The event waits for a duration that is not negative. -/
def NetworkerEvent.WaitsForward : NetworkerEvent → Prop
  | .sendOneRequest _ _ seconds => 0 ≤ seconds
  | .sendAllRequest _ _ seconds _ => 0 ≤ seconds
  | .resend _ seconds => 0 ≤ seconds
  | .extendTimeout _ _ seconds => 0 ≤ seconds
  | _ => True

theorem NetworkerEvent.WaitsForward.of_sends {pe : NetworkerEvent} (h : pe.WaitsForward)
    {reqId : String} {seconds : ℤ} (hsends : pe.sends = some (reqId, seconds)) : 0 ≤ seconds := by
  cases pe with
  | sendOneRequest msg reqId seconds =>
    cases hsends
    exact h
  | sendAllRequest msg reqId seconds nodes =>
    cases hsends
    exact h
  | resend reqId seconds =>
    cases hsends
    exact h
  | _ => cases hsends

namespace ZMQNetworker

variable {nw nw' : ZMQNetworker} {around : Surroundings} {pe : NetworkerEvent}
  {sent : List SentMessage}

theorem mem_entries_insert {idx : ℤ} {pc : PoolConnection} {e : Entry}
    {mappings : AssocMap String ℤ}
    (h : e ∈ entries { nw with
      poolConnections := nw.poolConnections.insert idx pc
      reqIdMappings := mappings }) :
    e.idx = idx ∧ pc.EndsAt e.key e.time ∨ e ∈ nw.entries := by
  obtain ⟨pc', hpc', hends⟩ := mem_entries_iff.mp h
  change (nw.poolConnections.insert idx pc).lookup e.idx = some pc' at hpc'
  by_cases hidx : e.idx = idx
  · rw [hidx, AList.lookup_insert] at hpc'
    cases hpc'
    exact .inl ⟨hidx, hends⟩
  · rw [AList.lookup_insert_ne hidx] at hpc'
    exact .inr (mem_entries_iff.mpr ⟨pc', hpc', hends⟩)

/-- Handling an event after some time brings nothing that ends before this time. -/
theorem Change.entries_early {limit : ℤ} (h : Change nw around pe nw' sent)
    (hlater : limit ≤ around.now) (hforward : pe.WaitsForward) (hactive : 0 ≤ nw.activeTimeout)
    {e : Entry} (he : e ∈ nw'.entries) (hearly : e.time < limit) : e ∈ nw.entries := by
  cases h with
  | @sent pe reqId timeout idx pc pc' hsends htakes hresend hsending =>
    rcases mem_entries_insert he with ⟨hidx, hends⟩ | hold
    · have hseconds := hforward.of_sends hsends
      rcases hsending.endsAt hends with hpc | htime
      · cases htakes with
        | mapped hmap hlookup => exact mem_entries_iff.mpr ⟨pc, hidx ▸ hlookup, hpc⟩
        | available hmap hlookup hnodes => exact mem_entries_iff.mpr ⟨pc, hidx ▸ hlookup, hpc⟩
        | fresh hmap hnew =>
          obtain ⟨-, htimeouts, -, hcreated, hlimit⟩ := PoolConnection.new_eq_ok hnew
          obtain ⟨idx', key, time⟩ := e
          cases key with
          | none =>
            rw [PoolConnection.EndsAt, PoolConnection.expiry, hcreated, hlimit] at hpc
            simp only at hearly hpc
            omega
          | some key =>
            rw [PoolConnection.EndsAt, htimeouts, AList.lookup_empty] at hpc
            cases hpc
      · omega
    · exact hold
  | lost hsends hmap hpc => exact he
  | nodes nodes => exact he
  | @extended reqId name timeout idx pc timeouts hmap hpc htimers =>
    rcases mem_entries_insert he with ⟨hidx, hends⟩ | hold
    · refine mem_entries_iff.mpr ⟨pc, hidx ▸ hpc, ?_⟩
      obtain ⟨idx', key, time⟩ := e
      cases key with
      | none => exact hends
      | some key =>
        simp only [PoolConnection.EndsAt] at hends ⊢
        rw [htimers] at hends
        split_ifs at hends with hkey
        · obtain ⟨old, -, hold⟩ := Option.map_eq_some_iff.mp hends
          have hseconds : 0 ≤ timeout := hforward
          simp only at hearly
          omega
        · exact hends
    · exact hold
  | notExtended reqId name timeout => exact he
  | @cleaned reqId nodeAlias idx pc hmap hpc =>
    rcases mem_entries_insert he with ⟨hidx, hends⟩ | hold
    · refine mem_entries_iff.mpr ⟨pc, hidx ▸ hpc, ?_⟩
      obtain ⟨idx', key, time⟩ := e
      cases key with
      | none =>
        obtain ⟨timeouts, heq⟩ := PoolConnection.cleanTimeout_eq pc reqId nodeAlias
        rw [heq] at hends
        exact hends
      | some key =>
        simp only [PoolConnection.EndsAt] at hends ⊢
        rw [PoolConnection.lookup_cleanTimeout] at hends
        split_ifs at hends
        exact hends
    · exact hold
  | @removed reqId nodeAlias idx pc hmap hpc hexpired hempty =>
    obtain ⟨pc', hpc', hends⟩ := mem_entries_iff.mp he
    change (nw.poolConnections.erase idx).lookup e.idx = some pc' at hpc'
    by_cases hidx : e.idx = idx
    · rw [hidx, AList.lookup_erase] at hpc'
      cases hpc'
    · rw [AList.lookup_erase_ne hidx] at hpc'
      exact mem_entries_iff.mpr ⟨pc', hpc', hends⟩
  | notCleaned reqId nodeAlias hnone => exact he
  | swept hkept =>
    obtain ⟨pc', hpc', hends⟩ := mem_entries_iff.mp he
    exact mem_entries_iff.mpr ⟨pc', ((hkept e.idx pc').mp hpc').1, hends⟩

end ZMQNetworker

end IndySdk.Pool
