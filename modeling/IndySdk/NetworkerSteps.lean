import IndySdk.Networker

/-!
# What one event changes in the networker

A connection that sends keeps its nodes and its age, opens sockets and sets the timers of the
messages it sent; everything else is as it was.
-/

namespace IndySdk.Pool

open Outcome List AList

namespace Duration

def InRange (s : ℤ) : Prop := -2 ^ 63 ≤ s * 1000 ∧ s * 1000 < 2 ^ 63

instance (s : ℤ) : Decidable (InRange s) := inferInstanceAs (Decidable (_ ∧ _))

theorem seconds_of_inRange {ε : Type} {s : ℤ} (h : InRange s) :
    (seconds s : Outcome ε ℤ) = .ok (s * 1000000000) := if_pos h

theorem seconds_eq_ok {ε : Type} {s nanos : ℤ} (h : (seconds s : Outcome ε ℤ) = .ok nanos) :
    nanos = s * 1000000000 := by
  rw [seconds] at h
  split_ifs at h
  cases h
  rfl

end Duration

/-- The network and the key generator work. -/
structure Surroundings.Works (around : Surroundings) : Prop where
  keyPair : around.keyPair = true
  connect : ∀ idx, around.connect idx = none
  send : ∀ idx, around.send idx = none

def SentMessage.key (m : SentMessage) : TimerKey := (m.reqId, m.node)

namespace PoolConnection

/-- What a node of this name sends to the connection is read. -/
def Listens (pc : PoolConnection) (name : String) : Prop :=
  ∃ (idx : ℕ) (node : RemoteNode),
    pc.nodes[idx]? = some node ∧ node.name = name ∧ pc.sockets[idx]? = some true

/-- The second connection is the first one after it sent messages of one deadline. -/
structure Sending (pc pc' : PoolConnection) (reqId : String) (deadline : ℤ)
    (sent : List SentMessage) :
    Prop where
  nodes : pc'.nodes = pc.nodes
  timeCreated : pc'.timeCreated = pc.timeCreated
  activeTimeout : pc'.activeTimeout = pc.activeTimeout
  timers : ∀ key, pc'.timeouts.lookup key =
    if key ∈ sent.map SentMessage.key then some deadline else pc.timeouts.lookup key
  sockets : ∀ idx : ℕ, pc.sockets[idx]? = some true → pc'.sockets[idx]? = some true
  listens : ∀ m ∈ sent, pc'.Listens m.node
  own : ∀ m ∈ sent, m.reqId = reqId

variable {pc pc' pc'' : PoolConnection} {reqId : String} {deadline : ℤ}
  {sent sent' : List SentMessage}

theorem Sending.refl (pc : PoolConnection) (reqId : String) (deadline : ℤ) :
    Sending pc pc reqId deadline [] where
  nodes := rfl
  timeCreated := rfl
  activeTimeout := rfl
  timers := fun _ => rfl
  sockets := fun _ h => h
  listens := fun _ hm => absurd hm not_mem_nil
  own := fun _ hm => absurd hm not_mem_nil

theorem Sending.keeps_listening (h : Sending pc pc' reqId deadline sent) {name : String}
    (hname : pc.Listens name) : pc'.Listens name := by
  obtain ⟨idx, node, hnode, hn, hsocket⟩ := hname
  exact ⟨idx, node, h.nodes ▸ hnode, hn, h.sockets idx hsocket⟩

theorem Sending.trans (h : Sending pc pc' reqId deadline sent)
    (h' : Sending pc' pc'' reqId deadline sent') :
    Sending pc pc'' reqId deadline (sent ++ sent') where
  nodes := h'.nodes.trans h.nodes
  timeCreated := h'.timeCreated.trans h.timeCreated
  activeTimeout := h'.activeTimeout.trans h.activeTimeout
  timers := by
    intro key
    rw [h'.timers, h.timers, map_append]
    by_cases hlater : key ∈ sent'.map SentMessage.key
    · rw [if_pos hlater, if_pos (mem_append_right _ hlater)]
    · rw [if_neg hlater]
      by_cases hfirst : key ∈ sent.map SentMessage.key
      · rw [if_pos hfirst, if_pos (mem_append_left _ hfirst)]
      · rw [if_neg hfirst, if_neg]
        intro hmem
        rcases mem_append.mp hmem with hmem | hmem
        · exact hfirst hmem
        · exact hlater hmem
  sockets := fun idx hsocket => h'.sockets idx (h.sockets idx hsocket)
  listens := by
    intro m hm
    rcases mem_append.mp hm with hm | hm
    · exact h'.keeps_listening (h.listens m hm)
    · exact h'.listens m hm
  own := by
    intro m hm
    rcases mem_append.mp hm with hm | hm
    · exact h.own m hm
    · exact h'.own m hm

/-- The timers and the sockets are as they were; the rest may only count requests. -/
structure SameTimers (pc pc' : PoolConnection) : Prop where
  nodes : pc'.nodes = pc.nodes
  sockets : pc'.sockets = pc.sockets
  timeouts : pc'.timeouts = pc.timeouts
  timeCreated : pc'.timeCreated = pc.timeCreated
  activeTimeout : pc'.activeTimeout = pc.activeTimeout

variable {idx : ℕ} {around : Surroundings} {timeout : ℤ} {msg : String}

theorem getSocket_eq_ok (h : pc.getSocket idx around = .ok pc') :
    pc'.nodes = pc.nodes ∧ pc'.timeouts = pc.timeouts ∧ pc'.timeCreated = pc.timeCreated ∧
      pc'.activeTimeout = pc.activeTimeout ∧ pc'.resend = pc.resend ∧
      pc'.sockets[idx]? = some true ∧
      ∀ i : ℕ, pc.sockets[i]? = some true → pc'.sockets[i]? = some true := by
  rw [getSocket] at h
  cases hsocket : pc.sockets[idx]? with
  | none =>
    rw [hsocket] at h
    cases h
  | some isOpen =>
    rw [hsocket] at h
    cases isOpen with
    | true =>
      cases h
      exact ⟨rfl, rfl, rfl, rfl, rfl, hsocket, fun _ h => h⟩
    | false =>
      simp only at h
      cases hconnect : around.connect idx with
      | some err =>
        rw [hconnect] at h
        cases h
      | none =>
        rw [hconnect] at h
        cases h
        have hlt := (List.getElem?_eq_some_iff.mp hsocket).1
        refine ⟨rfl, rfl, rfl, rfl, rfl, getElem?_set_self hlt, ?_⟩
        intro i hi
        by_cases heq : idx = i
        · rw [← heq]
          exact getElem?_set_self hlt
        · rw [getElem?_set_ne heq]
          exact hi

theorem sendMsgToOneNode_eq_ok {m : SentMessage}
    (h : pc.sendMsgToOneNode idx reqId msg timeout around = .ok (pc', m)) :
    ∃ node, pc.nodes[idx]? = some node ∧ m = ⟨node.name, reqId, msg⟩ ∧
      pc'.resend = pc.resend ∧
      Sending pc pc' reqId (around.now + timeout * 1000000000) [m] := by
  obtain ⟨opened, hopened, h⟩ := bind_eq_ok_iff.mp h
  obtain ⟨hnodes, htimeouts, hcreated, hactive, hresend, hidx, hsockets⟩ := getSocket_eq_ok hopened
  cases hsend : around.send idx with
  | some err =>
    rw [hsend] at h
    cases h
  | none =>
    rw [hsend] at h
    obtain ⟨node, hnode, h⟩ := bind_eq_ok_iff.mp h
    obtain ⟨extent, hextent, h⟩ := bind_eq_ok_iff.mp h
    rw [unwrap_eq_ok] at hnode
    rw [Duration.seconds_eq_ok hextent] at h
    cases h
    refine ⟨node, hnodes ▸ hnode, rfl, hresend, hnodes, hcreated, hactive, ?_, hsockets, ?_, ?_⟩
    · intro key
      simp only [map_cons, map_nil, mem_singleton, SentMessage.key]
      by_cases hkey : key = (reqId, node.name)
      · rw [if_pos hkey, hkey, lookup_insert]
      · rw [if_neg hkey, lookup_insert_ne hkey, htimeouts]
    · intro m hm
      rw [mem_singleton.mp hm]
      exact ⟨idx, node, hnode, rfl, hidx⟩
    · intro m hm
      rw [mem_singleton.mp hm]

theorem sendMsgToOneNode_total (hworks : around.Works) (hrange : Duration.InRange timeout)
    (hidx : idx < pc.nodes.length) :
    ∃ pc' m, pc.sendMsgToOneNode idx reqId msg timeout around = .ok (pc', m) := by
  have hsocket : ∃ opened, pc.getSocket idx around = .ok opened := by
    obtain ⟨isOpen, hisOpen⟩ : ∃ isOpen, pc.sockets[idx]? = some isOpen :=
      ⟨_, getElem?_eq_getElem (pc.paired ▸ hidx)⟩
    rw [getSocket, hisOpen]
    cases isOpen with
    | true => exact ⟨pc, rfl⟩
    | false =>
      simp only [hworks.connect idx]
      exact ⟨_, rfl⟩
  obtain ⟨opened, hopened⟩ := hsocket
  have hnode : opened.nodes[idx]? = some pc.nodes[idx] := by
    rw [(getSocket_eq_ok hopened).1]
    exact getElem?_eq_getElem hidx
  rw [sendMsgToOneNode, hopened, ok_bind]
  simp only [hworks.send idx, hnode, unwrap_some, ok_bind,
    Duration.seconds_of_inRange hrange]
  exact ⟨_, _, rfl⟩

/-- The message for one node. -/
def messageTo (reqId msg : String) (node : RemoteNode) : SentMessage := ⟨node.name, reqId, msg⟩

/-- What a connection is to send for an event. -/
def messages (pc : PoolConnection) : NetworkerEvent → List SentMessage
  | .sendOneRequest msg reqId _ => (pc.nodes.head?.map (messageTo reqId msg)).toList
  | .sendAllRequest msg reqId _ nodesToSend =>
    (pc.nodes.filter (isAddressed nodesToSend)).map (messageTo reqId msg)
  | .resend reqId _ =>
    match pc.resend.lookup reqId with
    | some (cnt, msg) =>
      (pc.nodes[(cnt + 1) % pc.nodes.length]?.map (messageTo reqId msg)).toList
    | none => []
  | _ => []

/-- A connection that has something to send again has nodes. -/
def Resendable (pc : PoolConnection) : Prop :=
  ∀ reqId entry, pc.resend.lookup reqId = some entry → pc.nodes ≠ []

theorem filterMap_range_getElem? {α : Type} (l : List α) :
    (List.range l.length).filterMap (fun i => l[i]?) = l := by
  induction l with
  | nil => rfl
  | cons a l ih =>
    rw [length_cons, range_succ_eq_map, filterMap_cons, filterMap_map]
    simp only [getElem?_cons_zero, Function.comp_def, Nat.succ_eq_add_one,
      getElem?_cons_succ, ih]

theorem sendToNodes_eq_ok {nodesToSend : Option (List String)} {idxs : List ℕ}
    (h : sendToNodes reqId msg timeout nodesToSend around idxs pc = .ok (pc', sent)) :
    sent = ((idxs.filterMap (fun i => pc.nodes[i]?)).filter (isAddressed nodesToSend)).map
        (messageTo reqId msg) ∧ pc'.resend = pc.resend ∧
      Sending pc pc' reqId (around.now + timeout * 1000000000) sent := by
  induction idxs generalizing pc sent with
  | nil =>
    cases h
    exact ⟨rfl, rfl, Sending.refl _ reqId _⟩
  | cons idx idxs ih =>
    obtain ⟨node, hnode, h⟩ := bind_eq_ok_iff.mp h
    rw [unwrap_eq_ok] at hnode
    rw [filterMap_cons, hnode]
    by_cases haddressed : isAddressed nodesToSend node = true
    · rw [if_pos haddressed] at h
      obtain ⟨⟨pc₁, first⟩, hfirst, h⟩ := bind_eq_ok_iff.mp h
      obtain ⟨⟨pc₂, rest⟩, hrest, h⟩ := bind_eq_ok_iff.mp h
      cases h
      obtain ⟨node', hnode', rfl, hresend, hsending⟩ := sendMsgToOneNode_eq_ok hfirst
      obtain ⟨rfl, hresend', hsending'⟩ := ih hrest
      rw [hnode] at hnode'
      cases hnode'
      refine ⟨?_, hresend'.trans hresend, hsending.trans hsending'⟩
      rw [filter_cons_of_pos haddressed, map_cons, hsending.nodes]
      rfl
    · rw [if_neg haddressed] at h
      obtain ⟨hsent, hresend, hsending⟩ := ih h
      refine ⟨?_, hresend, hsending⟩
      rw [filter_cons_of_neg haddressed]
      exact hsent

theorem sendToNodes_total {nodesToSend : Option (List String)} {idxs : List ℕ}
    (hworks : around.Works) (hrange : Duration.InRange timeout)
    (hidxs : ∀ idx ∈ idxs, idx < pc.nodes.length) :
    ∃ pc' sent, sendToNodes reqId msg timeout nodesToSend around idxs pc = .ok (pc', sent) := by
  induction idxs generalizing pc with
  | nil => exact ⟨pc, [], rfl⟩
  | cons idx idxs ih =>
    have hidx := hidxs idx mem_cons_self
    have hnode : pc.nodes[idx]? = some pc.nodes[idx] := getElem?_eq_getElem hidx
    have hrest : ∀ idx ∈ idxs, idx < pc.nodes.length :=
      fun i hi => hidxs i (mem_cons_of_mem idx hi)
    rw [sendToNodes, hnode, unwrap_some, ok_bind]
    by_cases haddressed : isAddressed nodesToSend pc.nodes[idx] = true
    · rw [if_pos haddressed]
      obtain ⟨pc₁, first, hfirst⟩ :=
        @sendMsgToOneNode_total pc reqId idx around timeout msg hworks hrange hidx
      obtain ⟨-, -, -, -, hsending⟩ := sendMsgToOneNode_eq_ok hfirst
      obtain ⟨pc₂, rest, hsent⟩ := @ih pc₁ (hsending.nodes ▸ hrest)
      refine ⟨pc₂, first :: rest, ?_⟩
      simp only [hfirst, ok_bind, hsent]
      rfl
    · rw [if_neg haddressed]
      exact ih hrest

end PoolConnection

/-- The request that an event sends, and how long an answer is waited for. -/
def NetworkerEvent.sends : NetworkerEvent → Option (String × ℤ)
  | .sendOneRequest _ reqId seconds => some (reqId, seconds)
  | .sendAllRequest _ reqId seconds _ => some (reqId, seconds)
  | .resend reqId seconds => some (reqId, seconds)
  | _ => none

namespace PoolConnection

variable {pc pc' : PoolConnection} {reqId : String} {sent : List SentMessage}
  {around : Surroundings} {timeout : ℤ} {pe : NetworkerEvent}

/-- Sending an event sends just what it is to send, and sets a timer for each message. -/
theorem sendRequest_eq_ok (hsends : pe.sends = some (reqId, timeout))
    (h : pc.sendRequest pe around = .ok (pc', sent)) :
    sent = pc.messages pe ∧ (pc.Resendable → pc'.Resendable) ∧
      Sending pc pc' reqId (around.now + timeout * 1000000000) sent := by
  cases pe with
  | sendOneRequest msg reqId timeout =>
    cases hsends
    obtain ⟨⟨pc₁, m⟩, hsent, h⟩ := bind_eq_ok_iff.mp h
    cases h
    obtain ⟨node, hnode, rfl, hresend, hsending⟩ := sendMsgToOneNode_eq_ok hsent
    have hnodes : pc.nodes.head? = some node := by rw [head?_eq_getElem?]; exact hnode
    refine ⟨?_, ?_, ?_⟩
    · rw [messages, hnodes]
      rfl
    · intro _ r entry hentry hnil
      have hnil : pc.nodes = [] := hsending.nodes.symm.trans hnil
      rw [hnil] at hnodes
      cases hnodes
    · exact ⟨hsending.nodes, hsending.timeCreated, hsending.activeTimeout, hsending.timers,
        hsending.sockets, hsending.listens, hsending.own⟩
  | sendAllRequest msg reqId timeout nodesToSend =>
    cases hsends
    obtain ⟨hsent, hresend, hsending⟩ := sendToNodes_eq_ok h
    refine ⟨?_, ?_, ?_⟩
    · rw [hsent, messages, filterMap_range_getElem?]
    · intro hold r entry hentry
      rw [hsending.nodes]
      rw [hresend] at hentry
      exact hold r entry hentry
    · exact ⟨hsending.nodes, hsending.timeCreated, hsending.activeTimeout, hsending.timers,
        hsending.sockets, hsending.listens, hsending.own⟩
  | resend reqId timeout =>
    cases hsends
    simp only [sendRequest] at h
    cases hentry : pc.resend.lookup reqId with
    | none =>
      rw [hentry] at h
      cases h
      refine ⟨?_, id, Sending.refl _ reqId _⟩
      simp only [messages, hentry]
    | some entry =>
      obtain ⟨cnt, msg⟩ := entry
      rw [hentry] at h
      simp only at h
      split_ifs at h with hlength
      obtain ⟨⟨pc₁, m⟩, hsent, h⟩ := bind_eq_ok_iff.mp h
      cases h
      obtain ⟨node, hnode, rfl, hresend, hsending⟩ := sendMsgToOneNode_eq_ok hsent
      refine ⟨?_, ?_, ?_⟩
      · simp only [messages, hentry, hnode]
        rfl
      · intro _ r entry _ hnil
        have hnil : pc.nodes = [] := hsending.nodes.symm.trans hnil
        rw [hnil] at hlength
        exact hlength rfl
      · exact ⟨hsending.nodes, hsending.timeCreated, hsending.activeTimeout, hsending.timers,
          hsending.sockets, hsending.listens, hsending.own⟩
  | _ => cases hsends

theorem sendRequest_total (hsends : pe.sends = some (reqId, timeout)) (hworks : around.Works)
    (hrange : Duration.InRange timeout) (hresend : pc.Resendable)
    (hone : ∀ msg, pe = .sendOneRequest msg reqId timeout → pc.nodes ≠ []) :
    ∃ pc' sent, pc.sendRequest pe around = .ok (pc', sent) := by
  cases pe with
  | sendOneRequest msg reqId timeout =>
    cases hsends
    have hpos : 0 < pc.nodes.length := length_pos_iff.mpr (hone msg rfl)
    obtain ⟨pc₁, m, hsent⟩ := @sendMsgToOneNode_total { pc with reqCnt := pc.reqCnt + 1 } reqId 0
      around timeout msg hworks hrange hpos
    exact ⟨_, _, by rw [sendRequest, hsent]; rfl⟩
  | sendAllRequest msg reqId timeout nodesToSend =>
    cases hsends
    exact sendToNodes_total hworks hrange (fun idx hidx => mem_range.mp hidx)
  | resend reqId timeout =>
    cases hsends
    rw [sendRequest]
    cases hentry : pc.resend.lookup reqId with
    | none => exact ⟨pc, [], rfl⟩
    | some entry =>
      obtain ⟨cnt, msg⟩ := entry
      have hpos : 0 < pc.nodes.length := length_pos_iff.mpr (hresend reqId _ hentry)
      simp only [Nat.pos_iff_ne_zero.mp hpos, if_false]
      obtain ⟨pc₁, m, hsent⟩ := @sendMsgToOneNode_total
        { pc with resend := pc.resend.insert reqId (cnt + 1, msg) } reqId
        ((cnt + 1) % pc.nodes.length) around timeout msg hworks hrange (Nat.mod_lt _ hpos)
      exact ⟨pc₁, [m], by rw [hsent]; rfl⟩
  | _ => cases hsends

/-- The active time of the connection is over. -/
def Expired (pc : PoolConnection) (now : ℤ) : Prop :=
  pc.activeTimeout * 1000000000 ≤ now - pc.timeCreated

instance (pc : PoolConnection) (now : ℤ) : Decidable (pc.Expired now) :=
  inferInstanceAs (Decidable (_ ≤ _))

theorem isActive_eq_ok {ε : Type} {now : ℤ} {b : Bool}
    (h : (pc.isActive now : Outcome ε Bool) = .ok b) : b = true ↔ ¬ pc.Expired now := by
  obtain ⟨active, hactive, h⟩ := bind_eq_ok_iff.mp h
  cases h
  rw [Duration.seconds_eq_ok hactive, decide_eq_true_iff, Expired, not_le]

theorem isActive_total {ε : Type} {now : ℤ} (hrange : Duration.InRange pc.activeTimeout) :
    ∃ b, (pc.isActive now : Outcome ε Bool) = .ok b := by
  rw [isActive, Duration.seconds_of_inRange hrange]
  exact ⟨_, rfl⟩

theorem isOrphaned_eq_ok {ε : Type} {now : ℤ} {b : Bool}
    (h : (pc.isOrphaned now : Outcome ε Bool) = .ok b) :
    b = true ↔ pc.Expired now ∧ pc.timeouts = ∅ := by
  obtain ⟨active, hactive, h⟩ := bind_eq_ok_iff.mp h
  have hiff := isActive_eq_ok hactive
  cases active with
  | true =>
    cases h
    simp [hiff.mp rfl]
  | false =>
    cases h
    have hexpired : pc.Expired now := by
      by_contra hnot
      exact absurd (hiff.mpr hnot) Bool.false_ne_true
    simp only [hasActiveRequests, Bool.not_not, AssocMap.toPairs_isEmpty, hexpired, true_and]

theorem isOrphaned_total {ε : Type} {now : ℤ} (hrange : Duration.InRange pc.activeTimeout) :
    ∃ b, (pc.isOrphaned now : Outcome ε Bool) = .ok b := by
  obtain ⟨active, hactive⟩ := @isActive_total pc ε now hrange
  rw [isOrphaned, hactive, ok_bind]
  cases active with
  | true => exact ⟨_, rfl⟩
  | false => exact ⟨_, rfl⟩

/-- Cleaning a request, for one node or for all, is about this timer. -/
def Cleans (reqId : String) (nodeAlias : Option String) (key : TimerKey) : Prop :=
  key.1 = reqId ∧ ∀ name ∈ nodeAlias, key.2 = name

instance (reqId : String) (nodeAlias : Option String) (key : TimerKey) :
    Decidable (Cleans reqId nodeAlias key) := inferInstanceAs (Decidable (_ ∧ _))

theorem lookup_foldl_erase_of_notMem {κ α : Type} [DecidableEq κ] {keys : List κ}
    (m : AssocMap κ α) {key : κ} (h : key ∉ keys) :
    (keys.foldl (fun m k => m.erase k) m).lookup key = m.lookup key := by
  induction keys generalizing m with
  | nil => rfl
  | cons k keys ih =>
    rw [mem_cons, not_or] at h
    rw [foldl_cons, ih _ h.2, lookup_erase_ne h.1]

theorem lookup_foldl_erase_of_mem {κ α : Type} [DecidableEq κ] {keys : List κ} (m : AssocMap κ α)
    {key : κ} (h : key ∈ keys) : (keys.foldl (fun m k => m.erase k) m).lookup key = none := by
  induction keys generalizing m with
  | nil => exact absurd h not_mem_nil
  | cons k keys ih =>
    rw [foldl_cons]
    by_cases hmem : key ∈ keys
    · exact ih _ hmem
    · have hk : key = k := (mem_cons.mp h).resolve_right hmem
      rw [lookup_foldl_erase_of_notMem _ hmem, hk, lookup_erase]

theorem lookup_cleanTimeout (pc : PoolConnection) (reqId : String) (nodeAlias : Option String)
    (key : TimerKey) : (pc.cleanTimeout reqId nodeAlias).timeouts.lookup key =
      if Cleans reqId nodeAlias key then none else pc.timeouts.lookup key := by
  cases nodeAlias with
  | some name =>
    by_cases hkey : key = (reqId, name)
    · subst hkey
      rw [if_pos ⟨rfl, fun _ h => Option.some.inj h⟩]
      exact lookup_erase (reqId, name) pc.timeouts
    · rw [if_neg (fun h => hkey (Prod.ext h.1 (h.2 name rfl)))]
      exact lookup_erase_ne hkey
  | none =>
    by_cases hown : key.1 = reqId
    · rw [if_pos (show Cleans reqId none key from ⟨hown, fun _ h => by cases h⟩)]
      by_cases hmem : key ∈ pc.timeouts.keys
      · exact lookup_foldl_erase_of_mem _
          (mem_filter.mpr ⟨hmem, decide_eq_true hown.symm⟩)
      · have hnone : pc.timeouts.lookup key = none := lookup_eq_none.mpr hmem
        exact (lookup_foldl_erase_of_notMem _
          (fun h => hmem (mem_filter.mp h).1)).trans hnone
    · rw [if_neg (fun h : Cleans reqId none key => hown h.1)]
      exact lookup_foldl_erase_of_notMem _
        (fun h => hown (of_decide_eq_true (mem_filter.mp h).2).symm)

theorem cleanTimeout_eq (pc : PoolConnection) (reqId : String) (nodeAlias : Option String) :
    ∃ timeouts, pc.cleanTimeout reqId nodeAlias = { pc with timeouts := timeouts } := by
  cases nodeAlias with
  | some name => exact ⟨_, rfl⟩
  | none => exact ⟨_, rfl⟩

theorem extendTimeout_eq_ok {name : String} {extended now : ℤ}
    (h : pc.extendTimeout reqId name extended now = .ok pc') :
    ∃ timeouts, pc' = { pc with timeouts := timeouts } ∧
      ∀ key, timeouts.lookup key =
        if key = (reqId, name) then
          (pc.timeouts.lookup key).map (fun _ => now + extended * 1000000000)
        else pc.timeouts.lookup key := by
  rw [extendTimeout] at h
  cases hlookup : pc.timeouts.lookup (reqId, name) with
  | none =>
    rw [hlookup] at h
    cases h
    refine ⟨pc.timeouts, rfl, fun key => ?_⟩
    by_cases hkey : key = (reqId, name)
    · rw [if_pos hkey, hkey, hlookup]
      rfl
    · rw [if_neg hkey]
  | some old =>
    rw [hlookup] at h
    obtain ⟨extent, hextent, h⟩ := bind_eq_ok_iff.mp h
    rw [Duration.seconds_eq_ok hextent] at h
    cases h
    refine ⟨_, rfl, fun key => ?_⟩
    by_cases hkey : key = (reqId, name)
    · rw [if_pos hkey, hkey, hlookup, lookup_insert]
      rfl
    · rw [if_neg hkey, lookup_insert_ne hkey]

end PoolConnection

end IndySdk.Pool
