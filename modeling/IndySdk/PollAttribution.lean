import IndySdk.NetworkerReports
import Mathlib.Data.List.Nodup

/-!
# Which socket a poll item stands for

The items to poll are gathered over the connections in one pass, the open sockets of each in the
order of its nodes. What became readable is read in a second pass, which finds its place among the
items by counting. The socket that is read for an item is the one it was made from.
-/

namespace IndySdk.Pool

open List

/-- The socket that a poll item is made from: that of a node in a connection, or the one that
commands arrive at. -/
inductive PollSource
  | node (idx : ℤ) (i : ℕ)
  | commander
  deriving DecidableEq

structure PollItem where
  source : PollSource
  readable : Bool
  deriving DecidableEq

/-- What waits at the socket of each index in each connection; `none` is not a text. -/
abbrev Inboxes := ℤ → ℕ → List (Option String)

namespace Inboxes

variable (inboxes : Inboxes)

/-- Receive without waiting; a message that is not a text is lost. -/
def recvString (idx : ℤ) (i : ℕ) : Option String × Inboxes :=
  let rest := fun idx' i' =>
    if idx' = idx ∧ i' = i then (inboxes idx i).tail else inboxes idx' i'
  ((inboxes idx i).head?.join, rest)

end Inboxes

namespace PoolConnection

/-- The sockets that are open, the first of those given being that of the node with index `i`. -/
def pollSourcesFrom (idx : ℤ) (sockets : List Bool) (i : ℕ) : List PollSource :=
  (sockets.zipIdx i).filterMap (fun zs => if zs.1 then some (.node idx zs.2) else none)

def pollSources (idx : ℤ) (pc : PoolConnection) : List PollSource :=
  pollSourcesFrom idx pc.sockets 0

def readFrom (idx : ℤ) (items : List PollItem) :
    List (RemoteNode × Bool) → ℕ → ℕ → Inboxes → Outcome Empty (List PoolEvent × Inboxes)
  | [], _, _, inboxes => .ok ([], inboxes)
  | (_, false) :: nodes, i, piIdx, inboxes => readFrom idx items nodes (i + 1) piIdx inboxes
  | (rn, true) :: nodes, i, piIdx, inboxes =>
    match items[piIdx]? with
    | none => .panic
    | some item =>
      if item.readable then do
        let (received, inboxes) := inboxes.recvString idx i
        let (events, inboxes) ← readFrom idx items nodes (i + 1) (piIdx + 1) inboxes
        pure ((received.map (fun str => .nodeReply str rn.name)).toList ++ events, inboxes)
      else readFrom idx items nodes (i + 1) (piIdx + 1) inboxes

def readEvents (idx : ℤ) (pc : PoolConnection) (items : List PollItem) (inboxes : Inboxes) :
    Outcome Empty (List PoolEvent × Inboxes) :=
  readFrom idx items (pc.nodes.zip pc.sockets) 0 0 inboxes

end PoolConnection

namespace ZMQNetworker

def pollSources (nw : ZMQNetworker) : List PollSource :=
  nw.ordered.flatMap (fun c => c.2.pollSources c.1)

/-- Read over the connections; those before them have as many open sockets as `ocnt`. -/
def readConnections (items : List PollItem) :
    List (ℤ × PoolConnection) → ℕ → Inboxes → Outcome Empty (List PoolEvent × Inboxes)
  | [], _, inboxes => .ok ([], inboxes)
  | (idx, pc) :: rest, ocnt, inboxes =>
    let cnt := ocnt + pc.openCount
    if items.length < cnt then .panic
    else do
      let (events, inboxes) ← pc.readEvents idx ((items.take cnt).drop ocnt) inboxes
      let (others, inboxes) ← readConnections items rest cnt inboxes
      pure (events ++ others, inboxes)

def readEvents (nw : ZMQNetworker) (items : List PollItem) (inboxes : Inboxes) :
    Outcome Empty (List PoolEvent × Inboxes) :=
  readConnections items nw.ordered 0 inboxes

/-- The items after a poll that found the sockets readable which the flags say. -/
def pollItems (nw : ZMQNetworker) (readable : ℕ → Bool) : List PollItem :=
  nw.pollSources.mapIdx (fun n source => ⟨source, readable n⟩)

/-- The node of an index in a connection. -/
def nodeAt (nw : ZMQNetworker) (idx : ℤ) (i : ℕ) : Option RemoteNode :=
  (nw.poolConnections.lookup idx).bind (fun pc => pc.nodes[i]?)

/-- The socket to the node of an index in a connection is open. -/
def IsOpen (nw : ZMQNetworker) (idx : ℤ) (i : ℕ) : Prop :=
  ∃ pc, nw.poolConnections.lookup idx = some pc ∧ pc.sockets[i]? = some true

end ZMQNetworker

namespace PollItem

/-- What an item stands for: the first text that waits at its socket, from the node of it. -/
def report (nodeAt : ℤ → ℕ → Option RemoteNode) (inboxes : Inboxes) :
    PollItem → Option PoolEvent
  | ⟨.node idx i, true⟩ => do
    let str ← (inboxes idx i).head?.join
    let rn ← nodeAt idx i
    pure (.nodeReply str rn.name)
  | _ => none

/-- The text that reading an item gives. -/
def received (inboxes : Inboxes) : PollItem → Option String
  | ⟨.node idx i, true⟩ => (inboxes idx i).head?.join
  | _ => none

/-- Every readable socket has given one message. -/
def remaining (items : List PollItem) (inboxes : Inboxes) : Inboxes := fun idx i =>
  if ⟨.node idx i, true⟩ ∈ items then (inboxes idx i).tail else inboxes idx i

/-- Read the sockets that the readable items were made from, in the order of the items. -/
def readAll (nodeAt : ℤ → ℕ → Option RemoteNode) :
    List PollItem → Inboxes → List PoolEvent × Inboxes
  | [], inboxes => ([], inboxes)
  | ⟨.node idx i, true⟩ :: items, inboxes =>
    let event := report nodeAt inboxes ⟨.node idx i, true⟩
    let read := readAll nodeAt items (inboxes.recvString idx i).2
    (event.toList ++ read.1, read.2)
  | _ :: items, inboxes => readAll nodeAt items inboxes

variable {nodeAt : ℤ → ℕ → Option RemoteNode}

theorem readAll_append (items items' : List PollItem) (inboxes : Inboxes) :
    readAll nodeAt (items ++ items') inboxes =
      ((readAll nodeAt items inboxes).1 ++
          (readAll nodeAt items' (readAll nodeAt items inboxes).2).1,
        (readAll nodeAt items' (readAll nodeAt items inboxes).2).2) := by
  induction items generalizing inboxes with
  | nil => rfl
  | cons item items ih =>
    obtain ⟨source, readable⟩ := item
    cases source with
    | commander => exact ih inboxes
    | node idx i =>
      cases readable with
      | false => exact ih inboxes
      | true =>
        rw [cons_append, readAll, readAll]
        dsimp only
        rw [ih (inboxes.recvString idx i).2, append_assoc]

theorem recvString_of_ne (inboxes : Inboxes) {idx idx' : ℤ} {i i' : ℕ}
    (h : PollSource.node idx' i' ≠ .node idx i) :
    (inboxes.recvString idx i).2 idx' i' = inboxes idx' i' := by
  refine if_neg (fun hsame => h ?_)
  rw [hsame.1, hsame.2]

theorem recvString_self (inboxes : Inboxes) (idx : ℤ) (i : ℕ) :
    (inboxes.recvString idx i).2 idx i = (inboxes idx i).tail :=
  if_pos ⟨rfl, rfl⟩

theorem report_recvString (inboxes : Inboxes) {idx : ℤ} {i : ℕ} {item : PollItem}
    (h : item.source ≠ .node idx i) :
    report nodeAt (inboxes.recvString idx i).2 item = report nodeAt inboxes item := by
  obtain ⟨source, readable⟩ := item
  cases source with
  | commander => rfl
  | node idx' i' =>
    cases readable with
    | false => rfl
    | true => rw [report, report, recvString_of_ne inboxes h]

theorem remaining_recvString (inboxes : Inboxes) {idx : ℤ} {i : ℕ} {items : List PollItem}
    (h : .node idx i ∉ items.map source) :
    remaining items (inboxes.recvString idx i).2 =
      remaining (⟨.node idx i, true⟩ :: items) inboxes := by
  funext idx' i'
  have hnot : ⟨.node idx i, true⟩ ∉ items := by
    intro hmem
    exact h (mem_map.mpr ⟨_, hmem, rfl⟩)
  by_cases hsame : PollSource.node idx' i' = .node idx i
  · cases hsame
    rw [remaining, if_neg hnot, recvString_self, remaining, if_pos mem_cons_self]
  · have hne : (⟨.node idx' i', true⟩ : PollItem) ≠ ⟨.node idx i, true⟩ :=
      fun heq => hsame (congrArg source heq)
    rw [remaining, remaining, recvString_of_ne inboxes hsame]
    refine if_congr ?_ rfl rfl
    rw [mem_cons, or_iff_right hne]

theorem remaining_skip {item : PollItem} (inboxes : Inboxes) (items : List PollItem)
    (h : ∀ idx i, item ≠ ⟨.node idx i, true⟩) :
    remaining (item :: items) inboxes = remaining items inboxes := by
  funext idx i
  refine if_congr ?_ rfl rfl
  rw [mem_cons, or_iff_right (h idx i).symm]

theorem readAll_eq {items : List PollItem} (hnodup : (items.map source).Nodup)
    (inboxes : Inboxes) :
    readAll nodeAt items inboxes =
      (items.filterMap (report nodeAt inboxes), remaining items inboxes) := by
  induction items generalizing inboxes with
  | nil => rfl
  | cons item items ih =>
    rw [map_cons, nodup_cons] at hnodup
    obtain ⟨source, readable⟩ := item
    have hskip (hnone : report nodeAt inboxes ⟨source, readable⟩ = none)
        (hread : readAll nodeAt (⟨source, readable⟩ :: items) inboxes =
          readAll nodeAt items inboxes)
        (hitem : ∀ idx i, (⟨source, readable⟩ : PollItem) ≠ ⟨.node idx i, true⟩) :
        readAll nodeAt (⟨source, readable⟩ :: items) inboxes =
          ((⟨source, readable⟩ :: items).filterMap (report nodeAt inboxes),
            remaining (⟨source, readable⟩ :: items) inboxes) := by
      rw [hread, ih hnodup.2, filterMap_cons_none hnone, remaining_skip _ _ hitem]
    cases source with
    | commander => exact hskip rfl rfl (fun idx i h => by cases h)
    | node idx i =>
      cases readable with
      | false => exact hskip rfl rfl (fun idx i h => by cases h)
      | true =>
        have hothers : items.filterMap (report nodeAt (inboxes.recvString idx i).2) =
            items.filterMap (report nodeAt inboxes) := by
          refine filterMap_congr (fun item hitem => report_recvString inboxes ?_)
          intro hsource
          exact hnodup.1 (mem_map.mpr ⟨item, hitem, hsource⟩)
        rw [readAll, ih hnodup.2, hothers, remaining_recvString inboxes hnodup.1]
        cases hreport : report nodeAt inboxes ⟨.node idx i, true⟩ with
        | none => rw [filterMap_cons_none hreport]; rfl
        | some event => rw [filterMap_cons_some hreport]; rfl

/-- The node whose socket the item was made from. -/
def nodeOf (nodeAt : ℤ → ℕ → Option RemoteNode) : PollSource → Option RemoteNode
  | .node idx i => nodeAt idx i
  | .commander => none

theorem report_of_node {item : PollItem} {rn : RemoteNode} (inboxes : Inboxes)
    (h : nodeOf nodeAt item.source = some rn) :
    report nodeAt inboxes item =
      (received inboxes item).map (fun str => .nodeReply str rn.name) := by
  obtain ⟨source, readable⟩ := item
  cases source with
  | commander => cases h
  | node idx i =>
    cases readable with
    | false => rfl
    | true =>
      replace h : nodeAt idx i = some rn := h
      rw [report, received, h]
      cases (inboxes idx i).head?.join <;> rfl

theorem replies_received {nodes : List RemoteNode} {items : List PollItem} (inboxes : Inboxes)
    (h : items.map (fun item => nodeOf nodeAt item.source) = nodes.map some) :
    PoolConnection.replies nodes (items.map (received inboxes)) =
      items.filterMap (report nodeAt inboxes) := by
  induction items generalizing nodes with
  | nil =>
    rw [map_nil, nil_eq, map_eq_nil_iff] at h
    rw [h]
    rfl
  | cons item items ih =>
    cases nodes with
    | nil => cases h
    | cons rn nodes =>
      rw [map_cons, map_cons] at h
      injection h with hnode hnodes
      rw [map_cons, PoolConnection.replies, zip_cons_cons, filterMap_cons,
        filterMap_cons, report_of_node inboxes hnode, ← ih hnodes]
      rfl

end PollItem

namespace PoolConnection

variable {nodeAt : ℤ → ℕ → Option RemoteNode} {idx : ℤ}

theorem pollSourcesFrom_cons (isOpen : Bool) (sockets : List Bool) (i : ℕ) :
    pollSourcesFrom idx (isOpen :: sockets) i =
      (if isOpen then [.node idx i] else []) ++ pollSourcesFrom idx sockets (i + 1) := by
  cases isOpen <;> rfl

theorem length_pollSourcesFrom (sockets : List Bool) (i : ℕ) :
    (pollSourcesFrom idx sockets i).length = sockets.countP id := by
  induction sockets generalizing i with
  | nil => rfl
  | cons isOpen sockets ih =>
    rw [pollSourcesFrom_cons, length_append, ih, countP_cons, Nat.add_comm]
    cases isOpen <;> rfl

theorem mem_pollSourcesFrom {source : PollSource} {sockets : List Bool} {i : ℕ} :
    source ∈ pollSourcesFrom idx sockets i ↔
      ∃ k, sockets[k]? = some true ∧ source = .node idx (i + k) := by
  induction sockets generalizing i with
  | nil =>
    constructor
    · intro h
      cases h
    · rintro ⟨k, hk, -⟩
      cases hk
  | cons isOpen sockets ih =>
    rw [pollSourcesFrom_cons, mem_append, ih]
    constructor
    · rintro (hhere | ⟨k, hk, hsource⟩)
      · cases isOpen with
        | false => cases hhere
        | true => exact ⟨0, rfl, mem_singleton.mp hhere⟩
      · refine ⟨k + 1, hk, ?_⟩
        rw [hsource, Nat.add_assoc, Nat.add_comm 1 k]
    · rintro ⟨k, hk, hsource⟩
      cases k with
      | zero =>
        cases hk
        exact .inl (mem_singleton.mpr hsource)
      | succ k =>
        refine .inr ⟨k, hk, ?_⟩
        rw [hsource, Nat.add_assoc, Nat.add_comm 1 k]

theorem nodup_pollSourcesFrom (sockets : List Bool) (i : ℕ) :
    (pollSourcesFrom idx sockets i).Nodup := by
  induction sockets generalizing i with
  | nil => exact nodup_nil
  | cons isOpen sockets ih =>
    rw [pollSourcesFrom_cons]
    cases isOpen with
    | false => exact ih (i + 1)
    | true =>
      refine nodup_cons.mpr ⟨fun hmem => ?_, ih (i + 1)⟩
      obtain ⟨k, -, hsource⟩ := mem_pollSourcesFrom.mp hmem
      injection hsource with _ hi
      omega

theorem nodeOf_pollSourcesFrom {nodes : List (RemoteNode × Bool)} {i : ℕ}
    (hnodes : ∀ k, nodeAt idx (i + k) = (nodes[k]?).map Prod.fst) :
    (pollSourcesFrom idx (nodes.map Prod.snd) i).map (PollItem.nodeOf nodeAt) =
      (nodes.filterMap (fun s => if s.2 then some s.1 else none)).map some := by
  induction nodes generalizing i with
  | nil => rfl
  | cons node nodes ih =>
    obtain ⟨rn, isOpen⟩ := node
    have hlater (k : ℕ) : nodeAt idx (i + 1 + k) = (nodes[k]?).map Prod.fst := by
      rw [Nat.add_assoc, Nat.add_comm 1 k]
      exact hnodes (k + 1)
    rw [map_cons, pollSourcesFrom_cons]
    cases isOpen with
    | false => exact ih hlater
    | true => exact congrArg₂ List.cons (hnodes 0) (ih hlater)

/-- The items from a place on were made from the open sockets that are still to be read. -/
theorem readFrom_eq {items : List PollItem} {nodes : List (RemoteNode × Bool)} {i piIdx : ℕ}
    (hsources : (items.drop piIdx).map PollItem.source =
      pollSourcesFrom idx (nodes.map Prod.snd) i)
    (hnodes : ∀ k, nodeAt idx (i + k) = (nodes[k]?).map Prod.fst) (inboxes : Inboxes) :
    readFrom idx items nodes i piIdx inboxes =
      .ok (PollItem.readAll nodeAt (items.drop piIdx) inboxes) := by
  induction nodes generalizing i piIdx inboxes with
  | nil =>
    rw [map_eq_nil_iff.mp hsources]
    rfl
  | cons node nodes ih =>
    obtain ⟨rn, isOpen⟩ := node
    have hlater (k : ℕ) : nodeAt idx (i + 1 + k) = (nodes[k]?).map Prod.fst := by
      rw [Nat.add_assoc, Nat.add_comm 1 k]
      exact hnodes (k + 1)
    rw [map_cons, pollSourcesFrom_cons] at hsources
    cases isOpen with
    | false => exact ih hsources hlater inboxes
    | true =>
      cases hdrop : items.drop piIdx with
      | nil =>
        rw [hdrop] at hsources
        cases hsources
      | cons item rest =>
        have hitem : items[piIdx]? = some item := by
          rw [← head?_drop, hdrop]
          rfl
        have hrest : items.drop (piIdx + 1) = rest := by
          rw [← drop_drop, hdrop]
          rfl
        have hsame : nodeAt idx i = some rn := hnodes 0
        rw [hdrop, map_cons] at hsources
        obtain ⟨source, readable⟩ := item
        injection hsources with hsource hsources
        cases hsource
        have hread (inboxes : Inboxes) := ih (hrest ▸ hsources) hlater inboxes
        rw [hrest] at hread
        cases readable with
        | false =>
          rw [readFrom, hitem]
          exact hread inboxes
        | true =>
          rw [readFrom, hitem]
          dsimp only
          have hreport : PollItem.report nodeAt inboxes ⟨.node idx i, true⟩ =
              ((inboxes idx i).head?.join).map (fun str => .nodeReply str rn.name) := by
            rw [PollItem.report, hsame]
            cases (inboxes idx i).head?.join <;> rfl
          rw [if_pos rfl, hread, PollItem.readAll, hreport]
          rfl

theorem readEvents_eq {pc : PoolConnection} {items : List PollItem}
    (hsources : items.map PollItem.source = pc.pollSources idx)
    (hnodes : ∀ i, nodeAt idx i = pc.nodes[i]?) (inboxes : Inboxes) :
    pc.readEvents idx items inboxes = .ok (PollItem.readAll nodeAt items inboxes) := by
  refine @readFrom_eq nodeAt idx items _ 0 0 ?_ (fun k => ?_) inboxes
  · rw [map_snd_zip pc.paired.le]
    exact hsources
  · rw [Nat.zero_add, hnodes, ← getElem?_map, map_fst_zip pc.paired.ge]

theorem nodeOf_pollSources {pc : PoolConnection} (hnodes : ∀ i, nodeAt idx i = pc.nodes[i]?) :
    (pc.pollSources idx).map (PollItem.nodeOf nodeAt) = pc.getPollItems.map some := by
  have hzip (k : ℕ) : nodeAt idx (0 + k) = ((pc.nodes.zip pc.sockets)[k]?).map Prod.fst := by
    rw [Nat.zero_add, hnodes, ← getElem?_map, map_fst_zip pc.paired.ge]
  have hall := nodeOf_pollSourcesFrom hzip
  rw [map_snd_zip pc.paired.le] at hall
  exact hall

end PoolConnection

namespace ZMQNetworker

variable {nw : ZMQNetworker}

theorem length_pollSources (pc : PoolConnection) (idx : ℤ) :
    (pc.pollSources idx).length = pc.openCount :=
  PoolConnection.length_pollSourcesFrom pc.sockets 0

theorem readConnections_eq {nodeAt : ℤ → ℕ → Option RemoteNode} {items rest : List PollItem}
    {connections : List (ℤ × PoolConnection)} {ocnt : ℕ} {mine : List PollItem}
    (hocnt : ocnt ≤ items.length) (hitems : items.drop ocnt = mine ++ rest)
    (hsources : mine.map PollItem.source = connections.flatMap (fun c => c.2.pollSources c.1))
    (hnodes : ∀ c ∈ connections, ∀ i, nodeAt c.1 i = c.2.nodes[i]?) (inboxes : Inboxes) :
    readConnections items connections ocnt inboxes =
      .ok (PollItem.readAll nodeAt mine inboxes) := by
  induction connections generalizing ocnt mine inboxes with
  | nil =>
    rw [map_eq_nil_iff.mp hsources]
    rfl
  | cons connection connections ih =>
    obtain ⟨idx, pc⟩ := connection
    obtain ⟨first, others, rfl, hfirst, hothers⟩ := map_eq_append_iff.mp hsources
    have hlength : first.length = pc.openCount := by
      rw [← length_pollSources pc idx, ← length_map PollItem.source, hfirst]
    have hdrop : items.drop (ocnt + pc.openCount) = others ++ rest := by
      rw [← drop_drop, hitems, append_assoc, ← hlength, drop_left]
    have hslice : (items.take (ocnt + pc.openCount)).drop ocnt = first := by
      rw [drop_take, Nat.add_sub_cancel_left, hitems, append_assoc, ← hlength,
        take_left]
    have henough : ocnt + pc.openCount ≤ items.length := by
      have hall := congrArg List.length hitems
      rw [length_drop, length_append, length_append] at hall
      omega
    have hmine := @PoolConnection.readEvents_eq nodeAt idx pc first hfirst
      (hnodes (idx, pc) mem_cons_self) inboxes
    have hothers := ih henough hdrop hothers (fun c hc => hnodes c (mem_cons_of_mem _ hc))
    rw [readConnections, if_neg (Nat.not_lt.mpr henough), hslice, hmine, Outcome.ok_bind]
    dsimp only
    rw [hothers, PollItem.readAll_append]
    rfl

theorem ordered_nodup (nw : ZMQNetworker) : (nw.ordered.map Prod.fst).Nodup := by
  have hperm : (nw.ordered.map Prod.fst).Perm (nw.poolConnections.toPairs.map Prod.fst) :=
    (perm_insertionSort _ _).map _
  rw [hperm.nodup_iff, AssocMap.toPairs, map_map]
  exact nw.poolConnections.nodupKeys

theorem nodeAt_of_mem_ordered {c : ℤ × PoolConnection} (hc : c ∈ nw.ordered) (i : ℕ) :
    nw.nodeAt c.1 i = c.2.nodes[i]? := by
  rw [nodeAt, mem_ordered.mp hc, Option.bind_some]

theorem mem_pollSources {idx : ℤ} {i : ℕ} : .node idx i ∈ nw.pollSources ↔ nw.IsOpen idx i := by
  rw [pollSources, mem_flatMap]
  constructor
  · rintro ⟨⟨idx', pc⟩, hpc, hmem⟩
    obtain ⟨k, hk, hsource⟩ := PoolConnection.mem_pollSourcesFrom.mp hmem
    rw [Nat.zero_add] at hsource
    cases hsource
    exact ⟨pc, mem_ordered.mp hpc, hk⟩
  · rintro ⟨pc, hpc, hopen⟩
    refine ⟨(idx, pc), mem_ordered.mpr hpc, ?_⟩
    refine PoolConnection.mem_pollSourcesFrom.mpr ⟨i, hopen, ?_⟩
    rw [Nat.zero_add]

theorem nodup_pollSources (nw : ZMQNetworker) : nw.pollSources.Nodup := by
  rw [pollSources, nodup_flatMap]
  refine ⟨fun c _ => PoolConnection.nodup_pollSourcesFrom c.2.sockets 0, ?_⟩
  refine (pairwise_map.mp (ordered_nodup nw)).imp (fun {c c'} hne => ?_)
  intro source hsource hsource'
  obtain ⟨k, -, rfl⟩ := PoolConnection.mem_pollSourcesFrom.mp hsource
  obtain ⟨k', -, heq⟩ := PoolConnection.mem_pollSourcesFrom.mp hsource'
  injection heq with hidx _
  exact hne hidx

theorem map_source_pollItems (nw : ZMQNetworker) (readable : ℕ → Bool) :
    (nw.pollItems readable).map PollItem.source = nw.pollSources := by
  refine ext_getElem? (fun n => ?_)
  rw [getElem?_map, pollItems, getElem?_mapIdx, Option.map_map]
  exact Option.map_id'

theorem readEvents_pollItems (nw : ZMQNetworker) (readable : ℕ → Bool) (rest : List PollItem)
    (inboxes : Inboxes) : nw.readEvents (nw.pollItems readable ++ rest) inboxes =
      .ok ((nw.pollItems readable).filterMap (PollItem.report nw.nodeAt inboxes),
        PollItem.remaining (nw.pollItems readable) inboxes) := by
  have hnodup : ((nw.pollItems readable).map PollItem.source).Nodup := by
    rw [map_source_pollItems]
    exact nodup_pollSources nw
  have hitems : (nw.pollItems readable ++ rest).drop 0 = nw.pollItems readable ++ rest := rfl
  have hread := readConnections_eq (Nat.zero_le _) hitems (map_source_pollItems nw readable)
    (fun c hc => nodeAt_of_mem_ordered hc) inboxes
  rw [readEvents, hread, PollItem.readAll_eq hnodup]

theorem nodeOf_pollSources (nw : ZMQNetworker) :
    nw.pollSources.map (PollItem.nodeOf nw.nodeAt) = nw.getPollItems.map some := by
  rw [pollSources, getPollItems, map_flatMap, map_flatMap]
  refine flatMap_congr (fun c hc => ?_)
  exact PoolConnection.nodeOf_pollSources (nodeAt_of_mem_ordered hc)

theorem fetchEvents_eq_readEvents (nw : ZMQNetworker) (readable : ℕ → Bool)
    (rest : List PollItem) (inboxes : Inboxes) :
    nw.fetchEvents ((nw.pollItems readable).map (PollItem.received inboxes)) =
      Prod.fst <$> nw.readEvents (nw.pollItems readable ++ rest) inboxes := by
  have hflat : (nw.ordered.map Prod.snd).flatMap PoolConnection.getPollItems = nw.getPollItems :=
    flatMap_map _ _ _
  have hnodes : (nw.pollItems readable).map (fun item => PollItem.nodeOf nw.nodeAt item.source) =
      nw.getPollItems.map some := by
    rw [← nodeOf_pollSources, ← map_source_pollItems nw readable, map_map]
    rfl
  have hlength := congrArg List.length hnodes
  rw [length_map, length_map] at hlength
  rw [fetchEvents, fetchAll_eq (by rw [hflat, length_map, hlength]), hflat,
    PollItem.replies_received inboxes hnodes, readEvents_pollItems]
  rfl

/-- Every open socket is polled, and none twice; the socket for commands comes behind them.
Whatever a poll finds readable is read: each readable item stands for the first text that waits at
its own socket, from the node of this socket, and no other socket gives a message. -/
theorem polled_attributed (nw : ZMQNetworker) (readable : ℕ → Bool) (commands : Bool)
    (inboxes : Inboxes) :
    nw.pollSources.Nodup ∧
    (∀ idx i, .node idx i ∈ nw.pollSources ↔ nw.IsOpen idx i) ∧
    nw.readEvents (nw.pollItems readable ++ [⟨.commander, commands⟩]) inboxes =
      .ok ((nw.pollItems readable).filterMap (PollItem.report nw.nodeAt inboxes),
        PollItem.remaining (nw.pollItems readable) inboxes) :=
  ⟨nodup_pollSources nw, fun _ _ => mem_pollSources,
    readEvents_pollItems nw readable [⟨.commander, commands⟩] inboxes⟩

end ZMQNetworker

end IndySdk.Pool
