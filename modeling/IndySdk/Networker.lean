import IndySdk.PoolCrates
import Mathlib.Data.List.MinMax
import Mathlib.Data.List.Sort

/-!
# The networker of a pool

Requests go out over pool connections, each of which holds a socket to every node. A request id is
mapped to its connection; a connection has a timer for each request and node that it sent to. The
thread of the pool waits for the earliest timer and reports it when nothing arrives before.
-/

namespace IndySdk.Pool

namespace Duration

/-- Nanoseconds in a number of seconds; a duration has at most `2 ^ 63` milliseconds. -/
def seconds {ε : Type} (s : ℤ) : Outcome ε ℤ :=
  if -2 ^ 63 ≤ s * 1000 ∧ s * 1000 < 2 ^ 63 then .ok (s * 1000000000) else .panic

def numMilliseconds (nanos : ℤ) : ℤ := nanos.tdiv 1000000

end Duration

/-- What the system gives while one event is handled: the time in nanoseconds, an identifier, an
order of nodes, and what making keys and opening and writing the socket of each index come to. -/
structure Surroundings where
  now : ℤ
  nextId : ℤ
  shuffle : IterationOrder
  keyPair : Bool
  connect : ℕ → Option IndyError
  send : ℕ → Option IndyError

/-- A message that a socket took. -/
structure SentMessage where
  node : String
  reqId : String
  msg : String
  deriving DecidableEq

/-- A request and a node that is to answer it. -/
abbrev TimerKey := String × String

/-- The first among the timers that end first. -/
def firstToEnd (timers : List (TimerKey × ℤ)) : Option (TimerKey × ℤ) :=
  @List.argmin _ _ Int.instLinearOrder.toPreorder Int.decLt Prod.snd timers

structure PoolConnection where
  nodes : List RemoteNode
  sockets : List Bool
  paired : sockets.length = nodes.length
  resend : AssocMap String (ℕ × String)
  timeouts : AssocMap TimerKey ℤ
  timeCreated : ℤ
  reqCnt : ℕ
  activeTimeout : ℤ

namespace PoolConnection

def position (preordered : List String) (node : RemoteNode) : ℕ :=
  (preordered.findIdx? (fun name => node.name = name)).getD (2 ^ 64 - 1)

def arrange (nodes : List RemoteNode) (preordered : List String) (shuffle : IterationOrder) :
    List RemoteNode :=
  let nodes := shuffle.order nodes
  if preordered.isEmpty then nodes
  else nodes.insertionSort (fun a b => position preordered a ≤ position preordered b)

def new (nodes : List RemoteNode) (activeTimeout : ℤ) (preordered : List String)
    (around : Surroundings) : Outcome Empty PoolConnection :=
  let nodes := arrange nodes preordered around.shuffle
  if around.keyPair then
    .ok {
      nodes := nodes
      sockets := List.replicate nodes.length false
      paired := List.length_replicate
      resend := ∅
      timeouts := ∅
      timeCreated := around.now
      reqCnt := 0
      activeTimeout := activeTimeout }
  else .panic

variable (pc : PoolConnection)

/-- The number of sockets that are open. -/
def openCount : ℕ := pc.sockets.countP id

/-- The nodes whose sockets are polled. -/
def getPollItems : List RemoteNode :=
  (pc.nodes.zip pc.sockets).filterMap (fun s => if s.2 then some s.1 else none)

/-- Read the sockets that are open, in the order of the nodes; a socket gives at most one text. -/
def fetchFrom : List (RemoteNode × Bool) → List (Option String) → Outcome Empty (List PoolEvent)
  | [], _ => .ok []
  | (_, false) :: nodes, items => fetchFrom nodes items
  | (_, true) :: _, [] => .panic
  | (node, true) :: nodes, item :: items => do
    let events ← fetchFrom nodes items
    match item with
    | some str => pure (.nodeReply str node.name :: events)
    | none => pure events

def fetchEvents (items : List (Option String)) : Outcome Empty (List PoolEvent) :=
  fetchFrom (pc.nodes.zip pc.sockets) items

/-- The timer that ends first, or the end of the active time of a connection without timers. -/
def getTimeout (now : ℤ) (order : IterationOrder) : TimerKey × ℤ :=
  match firstToEnd ((order.order pc.timeouts.toPairs).map (fun timer =>
      (timer.1, Duration.numMilliseconds (timer.2 - now)))) with
  | some timer => timer
  | none => (("", ""), pc.activeTimeout * 1000 - Duration.numMilliseconds (now - pc.timeCreated))

def isActive {ε : Type} (now : ℤ) : Outcome ε Bool := do
  let active ← Duration.seconds pc.activeTimeout
  pure (decide (now - pc.timeCreated < active))

def hasActiveRequests : Bool := !pc.timeouts.toPairs.isEmpty

def isOrphaned {ε : Type} (now : ℤ) : Outcome ε Bool := do
  if ← pc.isActive now then pure false else pure (!pc.hasActiveRequests)

def getSocket (idx : ℕ) (around : Surroundings) : IndyResult PoolConnection :=
  match pc.sockets[idx]? with
  | none => .panic
  | some true => .ok pc
  | some false =>
    match around.connect idx with
    | some err => .err err
    | none => .ok {
        pc with
        sockets := pc.sockets.set idx true
        paired := by rw [List.length_set, pc.paired] }

def sendMsgToOneNode (idx : ℕ) (reqId req : String) (timeout : ℤ) (around : Surroundings) :
    IndyResult (PoolConnection × SentMessage) := do
  let pc ← pc.getSocket idx around
  match around.send idx with
  | some err => .err err
  | none => do
    let node ← Outcome.unwrap pc.nodes[idx]?
    let extent ← Duration.seconds timeout
    let timeouts := pc.timeouts.insert (reqId, node.name) (around.now + extent)
    pure ({ pc with timeouts := timeouts }, ⟨node.name, reqId, req⟩)

/-- Whether a node is one of those that a message is for. -/
def isAddressed (nodesToSend : Option (List String)) (node : RemoteNode) : Bool :=
  (nodesToSend.map (fun nodes => decide (node.name ∈ nodes))).getD true

def sendToNodes (reqId msg : String) (timeout : ℤ) (nodesToSend : Option (List String))
    (around : Surroundings) :
    List ℕ → PoolConnection → IndyResult (PoolConnection × List SentMessage)
  | [], pc => .ok (pc, [])
  | idx :: rest, pc => do
    let node ← Outcome.unwrap pc.nodes[idx]?
    if isAddressed nodesToSend node then
      let (pc, first) ← pc.sendMsgToOneNode idx reqId msg timeout around
      let (pc, sent) ← sendToNodes reqId msg timeout nodesToSend around rest pc
      pure (pc, first :: sent)
    else sendToNodes reqId msg timeout nodesToSend around rest pc

def sendRequest (pe : NetworkerEvent) (around : Surroundings) :
    IndyResult (PoolConnection × List SentMessage) :=
  match pe with
  | .sendOneRequest msg reqId timeout => do
    let pc := { pc with reqCnt := pc.reqCnt + 1 }
    let (pc, sent) ← pc.sendMsgToOneNode 0 reqId msg timeout around
    pure ({ pc with resend := pc.resend.insert reqId (0, msg) }, [sent])
  | .sendAllRequest msg reqId timeout nodesToSend =>
    let pc := { pc with reqCnt := pc.reqCnt + 1 }
    sendToNodes reqId msg timeout nodesToSend around (List.range pc.nodes.length) pc
  | .resend reqId timeout =>
    match pc.resend.lookup reqId with
    | some (cnt, req) => do
      let pc := { pc with resend := pc.resend.insert reqId (cnt + 1, req) }
      if pc.nodes.length = 0 then .panic
      else
        let idx := (cnt + 1) % pc.nodes.length
        let (pc, sent) ← pc.sendMsgToOneNode idx reqId req timeout around
        pure (pc, [sent])
    | none => .ok (pc, [])
  | _ => .ok (pc, [])

def extendTimeout (reqId nodeAlias : String) (extended now : ℤ) : Outcome Empty PoolConnection :=
  match pc.timeouts.lookup (reqId, nodeAlias) with
  | some _ => do
    let extent ← Duration.seconds extended
    pure { pc with timeouts := pc.timeouts.insert (reqId, nodeAlias) (now + extent) }
  | none => .ok pc

/-- Remove the timer of one node, or of every node, that is to answer a request. -/
def cleanTimeout (reqId : String) : Option String → PoolConnection
  | some nodeAlias => { pc with timeouts := pc.timeouts.erase (reqId, nodeAlias) }
  | none =>
    let keys := pc.timeouts.keys.filter (fun key => reqId = key.1)
    { pc with timeouts := keys.foldl (fun timeouts key => timeouts.erase key) pc.timeouts }

end PoolConnection

structure ZMQNetworker where
  reqIdMappings : AssocMap String ℤ
  poolConnections : AssocMap ℤ PoolConnection
  nodes : List RemoteNode
  activeTimeout : ℤ
  connLimit : ℕ
  preorderedNodes : List String

namespace ZMQNetworker

def new (activeTimeout : ℤ) (connLimit : ℕ) (preorderedNodes : List String) : ZMQNetworker where
  reqIdMappings := ∅
  poolConnections := ∅
  nodes := []
  activeTimeout := activeTimeout
  connLimit := connLimit
  preorderedNodes := preorderedNodes

variable (nw : ZMQNetworker)

/-- The connections by their identifiers. -/
def ordered : List (ℤ × PoolConnection) :=
  nw.poolConnections.toPairs.insertionSort (fun a b => a.1 ≤ b.1)

def fetchAll : List PoolConnection → List (Option String) → Outcome Empty (List PoolEvent)
  | [], _ => .ok []
  | pc :: rest, items =>
    if items.length < pc.openCount then .panic
    else do
      let events ← pc.fetchEvents (items.take pc.openCount)
      let others ← fetchAll rest (items.drop pc.openCount)
      pure (events ++ others)

def fetchEvents (items : List (Option String)) : Outcome Empty (List PoolEvent) :=
  fetchAll (nw.ordered.map Prod.snd) items

/-- The last connection, when it may take one more request. -/
def availableConnection (now : ℤ) : Outcome Empty (Option ℤ) :=
  match nw.ordered.getLast? with
  | none => .ok none
  | some (idx, pc) => do
    let active ← pc.isActive now
    if active ∧ pc.reqCnt < nw.connLimit ∧ pc.nodes.toFinset = nw.nodes.toFinset then
      pure (some idx)
    else pure none

/-- A result whose error is never expected. -/
def expect {ε α : Type} : Outcome ε α → Outcome Empty α
  | .ok a => .ok a
  | .err _ => .panic
  | .panic => .panic

/-- The connection that a request is mapped to, else one that is available. -/
def connectionFor (reqId : String) (now : ℤ) : Outcome Empty (Option ℤ) :=
  match nw.reqIdMappings.lookup reqId with
  | some idx => .ok (some idx)
  | none => nw.availableConnection now

def sendOver (pe : NetworkerEvent) (reqId : String) (around : Surroundings) :
    Outcome Empty (ZMQNetworker × List SentMessage) := do
  match ← nw.connectionFor reqId around.now with
  | some idx =>
    match nw.poolConnections.lookup idx with
    | some pc => do
      let (pc, sent) ← expect (pc.sendRequest pe around)
      pure ({
        nw with
        poolConnections := nw.poolConnections.insert idx pc
        reqIdMappings := nw.reqIdMappings.insert reqId idx }, sent)
    -- the pool connection is not found
    | none => pure ({ nw with reqIdMappings := nw.reqIdMappings.insert reqId idx }, [])
  | none => do
    let pc ← PoolConnection.new nw.nodes nw.activeTimeout nw.preorderedNodes around
    let (pc, sent) ← expect (pc.sendRequest pe around)
    pure ({
      nw with
      poolConnections := nw.poolConnections.insert around.nextId pc
      reqIdMappings := nw.reqIdMappings.insert reqId around.nextId }, sent)

/-- Clean the timers of the connection of a request; remove it when it is orphaned then. -/
def cleanOver (reqId : String) (nodeAlias : Option String) (now : ℤ) :
    Outcome Empty (AssocMap ℤ PoolConnection) :=
  match nw.reqIdMappings.lookup reqId with
  | none => .ok nw.poolConnections
  | some idx =>
    match nw.poolConnections.lookup idx with
    | none => .ok nw.poolConnections
    | some pc => do
      let pc := pc.cleanTimeout reqId nodeAlias
      if ← pc.isOrphaned now then pure (nw.poolConnections.erase idx)
      else pure (nw.poolConnections.insert idx pc)

/-- The connections that are left when those among the listed ones that are orphaned go. -/
def removeOrphaned (now : ℤ) :
    List (ℤ × PoolConnection) → AssocMap ℤ PoolConnection →
      Outcome Empty (AssocMap ℤ PoolConnection)
  | [], connections => .ok connections
  | (idx, pc) :: rest, connections => do
    if ← pc.isOrphaned now then removeOrphaned now rest (connections.erase idx)
    else removeOrphaned now rest connections

def processEvent (pe : NetworkerEvent) (around : Surroundings) :
    Outcome Empty (ZMQNetworker × List SentMessage) :=
  match pe with
  | .sendAllRequest _ reqId _ _ => nw.sendOver pe reqId around
  | .sendOneRequest _ reqId _ => nw.sendOver pe reqId around
  | .resend reqId _ => nw.sendOver pe reqId around
  | .nodesStateUpdated nodes => .ok ({ nw with nodes := nodes }, [])
  | .extendTimeout reqId nodeAlias timeout =>
    match nw.reqIdMappings.lookup reqId with
    | none => .ok (nw, [])
    | some idx =>
      match nw.poolConnections.lookup idx with
      | none => .ok (nw, [])
      | some pc => do
        let pc ← pc.extendTimeout reqId nodeAlias timeout around.now
        pure ({ nw with poolConnections := nw.poolConnections.insert idx pc }, [])
  | .cleanTimeout reqId nodeAlias => do
    let connections ← nw.cleanOver reqId nodeAlias around.now
    let mappings :=
      if nodeAlias.isNone then nw.reqIdMappings.erase reqId else nw.reqIdMappings
    pure ({ nw with poolConnections := connections, reqIdMappings := mappings }, [])
  | .timeout => do
    let connections ← removeOrphaned around.now nw.ordered nw.poolConnections
    pure ({ nw with poolConnections := connections }, [])

def getTimeout (now : ℤ) (order : IterationOrder) : TimerKey × ℤ :=
  match firstToEnd (nw.ordered.map (fun c => c.2.getTimeout now order)) with
  | some timeout => timeout
  | none => (("", ""), 2 ^ 63 - 1)

def getPollItems : List RemoteNode := nw.ordered.flatMap (fun c => c.2.getPollItems)

/-- Wait until something arrives or the earliest timer ends. With nothing readable this timer is
reported; else what arrived at each polled socket is. -/
def poll (now : ℤ) (order : IterationOrder) (arrived : Option (ℕ → Option String)) :
    Outcome Empty (List PoolEvent) :=
  let items := (List.range nw.getPollItems.length).map (arrived.getD (fun _ => none))
  let timeout := (nw.getTimeout now order).1
  match arrived with
  | none => do
    let events ← nw.fetchEvents items
    pure (.timeout timeout.1 timeout.2 :: events)
  | some _ => nw.fetchEvents items

end ZMQNetworker

end IndySdk.Pool
