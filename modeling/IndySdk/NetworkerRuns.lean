import IndySdk.NetworkerReports
import Mathlib.Data.Finset.Option

/-!
# The networker over whole runs

Beside the networker a run records which answers are awaited and which report is to be acted upon.
As long as no connection is removed that a request is still mapped to, every awaited answer has its
timer on the connection of its request, and either arrives or is reported as late.
-/

namespace IndySdk.Pool

open Outcome Option AList
open PoolConnection

inductive NetworkerInput where
  | event (pe : NetworkerEvent) (around : Surroundings)
  | poll (now : ℤ) (order : IterationOrder) (arrived : Option (ℕ → Option String))

namespace NetworkerInput

def now : NetworkerInput → ℤ
  | .event _ around => around.now
  | .poll now _ _ => now

/-- A wait during which nothing arrives. -/
def isIdle : NetworkerInput → Bool
  | .event _ _ => false
  | .poll _ _ arrived => arrived.isNone

end NetworkerInput

/-- A networker, the answers that are awaited, and what was reported last. -/
structure Exchange where
  nw : ZMQNetworker
  awaited : Finset TimerKey
  due : Option Entry

/-- The answers that are awaited after an event: what was sent comes in, what is cleaned goes. -/
def awaitedAfter (awaited : Finset TimerKey) (pe : NetworkerEvent) (sent : List SentMessage) :
    Finset TimerKey :=
  match pe with
  | .cleanTimeout reqId nodeAlias => awaited.filter (fun key => ¬ Cleans reqId nodeAlias key)
  | _ => awaited ∪ (sent.map SentMessage.key).toFinset

def exchange :
    Machine Exchange NetworkerInput (Outcome Empty (List PoolEvent × List SentMessage)) where
  step
    | .event pe around, s =>
      match s.nw.processEvent pe around with
      | .ok (nw, sent) =>
        (.ok ([], sent), { s with nw := nw, awaited := awaitedAfter s.awaited pe sent })
      | .err e => nomatch e
      | .panic => (.panic, s)
    | .poll now order arrived, s =>
      ((fun events => (events, [])) <$> s.nw.poll now order arrived,
        if arrived.isNone then { s with due := s.nw.reportedEntry now order } else s)

namespace Exchange

def start (activeTimeout : ℤ) (connLimit : ℕ) (preorderedNodes : List String) : Exchange where
  nw := ZMQNetworker.new activeTimeout connLimit preorderedNodes
  awaited := ∅
  due := none

end Exchange

/-- What a request needs to be sent: a network that works, a duration, an identifier that no
connection has, and for a message to one node a connection with nodes. -/
structure Sendable (nw : ZMQNetworker) (pe : NetworkerEvent) (reqId : String) (seconds : ℤ)
    (around : Surroundings) : Prop where
  works : around.Works
  range : Duration.InRange seconds
  fresh : nw.reqIdMappings.lookup reqId = none →
    nw.poolConnections.lookup around.nextId = none
  mappedNodes : ∀ msg, pe = .sendOneRequest msg reqId seconds → ∀ idx pc,
    nw.reqIdMappings.lookup reqId = some idx → nw.poolConnections.lookup idx = some pc →
      pc.nodes ≠ []
  poolNodes : ∀ msg, pe = .sendOneRequest msg reqId seconds →
    nw.reqIdMappings.lookup reqId = none → nw.nodes ≠ []

/-- Cleaning a request leaves no other request without its connection. -/
def CleansAlone (nw : ZMQNetworker) (reqId : String) (nodeAlias : Option String) (now : ℤ) : Prop :=
  ∀ idx pc, nw.reqIdMappings.lookup reqId = some idx → nw.poolConnections.lookup idx = some pc →
    pc.Expired now → (∀ key t, pc.timeouts.lookup key = some t → Cleans reqId nodeAlias key) →
      nodeAlias = none ∧ ∀ r, nw.reqIdMappings.lookup r = some idx → r = reqId

/-- No request is mapped to a connection that a sweep removes. -/
def SweepsUnmapped (nw : ZMQNetworker) (now : ℤ) : Prop :=
  ∀ idx pc, nw.poolConnections.lookup idx = some pc → pc.Expired now → pc.timeouts = ∅ →
    ∀ r, nw.reqIdMappings.lookup r ≠ some idx

/-- The condition on a step. -/
def Orderly (s : Exchange) : NetworkerInput → Prop
  | .poll _ _ _ => True
  | .event pe around => Duration.InRange s.nw.activeTimeout ∧
    (∀ reqId seconds, pe.sends = some (reqId, seconds) →
      Sendable s.nw pe reqId seconds around) ∧
    match pe with
    | .extendTimeout reqId name seconds => ∀ idx pc,
      s.nw.reqIdMappings.lookup reqId = some idx → s.nw.poolConnections.lookup idx = some pc →
        (pc.timeouts.lookup (reqId, name)).isSome → Duration.InRange seconds
    | .cleanTimeout reqId nodeAlias => CleansAlone s.nw reqId nodeAlias around.now
    | .timeout => SweepsUnmapped s.nw around.now
    | _ => True

/-- The timer of an answer stays as it is, unreported after its time is over, while every report
is acted upon before the next one and every new timer lies ahead. -/
structure Waiting (key : TimerKey) (deadline : ℤ) (s : Exchange) (i : NetworkerInput) : Prop where
  elapsed : deadline + 1000000 ≤ i.now
  forward : 0 ≤ s.nw.activeTimeout ∧ ∀ pe around, i = .event pe around → pe.WaitsForward
  armed : ∃ idx pc, s.nw.poolConnections.lookup idx = some pc ∧
    pc.timeouts.lookup key = some deadline
  attended : i.isIdle = true → ∀ e ∈ s.due, e ∉ s.nw.entries
  unreported : (exchange.step i s).1 ≠ .ok ([.timeout key.1 key.2], [])

/-- What holds in every state: requests are mapped to live connections; an awaited answer has a
timer there, its node is listened to, what arrives is reported, and what stays out is reported too,
after no more idle waits than there are timers and connections. -/
structure Kept (s : Exchange) : Prop where
  routed : ∀ reqId idx, s.nw.reqIdMappings.lookup reqId = some idx →
    ∃ pc, s.nw.poolConnections.lookup idx = some pc
  armed : ∀ key ∈ s.awaited, ∃ idx pc deadline, s.nw.reqIdMappings.lookup key.1 = some idx ∧
    s.nw.poolConnections.lookup idx = some pc ∧ pc.timeouts.lookup key = some deadline
  polled : ∀ key ∈ s.awaited, ∃ node ∈ s.nw.getPollItems, node.name = key.2
  heard : ∀ now order arrived, s.nw.poll now order (some arrived) =
    .ok (replies s.nw.getPollItems ((List.range s.nw.getPollItems.length).map arrived))
  reported : ∀ key ∈ s.awaited, ∀ idx pc deadline, s.nw.poolConnections.lookup idx = some pc →
    pc.timeouts.lookup key = some deadline → ∀ after,
      exchange.Along (Waiting key deadline) { s with due := none } after →
        after.countP NetworkerInput.isIdle ≤ s.nw.entries.card

/-- What a step keeps: it does not abort, and a request goes out over a connection. -/
structure StepKept (s : Exchange) (i : NetworkerInput) : Prop where
  answers : (exchange.step i s).1 ≠ .panic
  delivers : ∀ pe around reqId seconds, i = .event pe around → pe.sends = some (reqId, seconds) →
    ∃ idx pc, s.nw.Takes reqId around idx pc ∧
      (exchange.step i s).1 = .ok ([], pc.messages pe) ∧
      ∀ m ∈ pc.messages pe, m.key ∈ (exchange.step i s).2.awaited
  kept : Kept (exchange.step i s).2

namespace ZMQNetworker

variable {nw nw' : ZMQNetworker} {around : Surroundings} {pe : NetworkerEvent}
  {sent : List SentMessage}

/-- Every connection has the active time of the networker. -/
def Uniform (nw : ZMQNetworker) : Prop :=
  ∀ idx pc, nw.poolConnections.lookup idx = some pc → pc.activeTimeout = nw.activeTimeout

/-- The networker's own invariant: timers stand on the connection that their request is mapped to,
which listens to their node. -/
structure Sound (nw : ZMQNetworker) : Prop where
  routed : ∀ reqId idx, nw.reqIdMappings.lookup reqId = some idx →
    ∃ pc, nw.poolConnections.lookup idx = some pc
  timers : ∀ idx pc key t, nw.poolConnections.lookup idx = some pc →
    pc.timeouts.lookup key = some t →
      nw.reqIdMappings.lookup key.1 = some idx ∧ pc.Listens key.2
  resend : ∀ idx pc, nw.poolConnections.lookup idx = some pc → pc.Resendable
  uniform : nw.Uniform

variable {reqId : String} {idx seconds : ℤ} {pc : PoolConnection}

theorem Takes.mapped_iff {idx' : ℤ} (h : nw.Takes reqId around idx pc)
    (hmap : nw.reqIdMappings.lookup reqId = some idx') :
    idx' = idx := by
  cases h with
  | mapped hmap' hpc =>
    rw [hmap] at hmap'
    exact Option.some.inj hmap'
  | available hmap' hpc hnodes =>
    rw [hmap] at hmap'
    cases hmap'
  | fresh hmap' hpc =>
    rw [hmap] at hmap'
    cases hmap'

theorem lookup_mappingsAfter {r : String} {nodeAlias : Option String} :
    (nw.mappingsAfter reqId nodeAlias).lookup r = some idx ↔
      nw.reqIdMappings.lookup r = some idx ∧ ¬ (nodeAlias = none ∧ r = reqId) := by
  cases nodeAlias with
  | some name => simp [mappingsAfter]
  | none =>
    by_cases hr : r = reqId
    · subst hr
      simp [mappingsAfter]
    · simp [mappingsAfter, lookup_erase_ne hr, hr]

theorem lookup_insert_cases {connections : AssocMap ℤ PoolConnection} {idx' : ℤ}
    {pc' : PoolConnection} (h : (connections.insert idx pc).lookup idx' = some pc') :
    idx' = idx ∧ pc' = pc ∨ idx' ≠ idx ∧ connections.lookup idx' = some pc' := by
  by_cases hidx : idx' = idx
  · rw [hidx, lookup_insert] at h
    exact .inl ⟨hidx, (Option.some.inj h).symm⟩
  · rw [lookup_insert_ne hidx] at h
    exact .inr ⟨hidx, h⟩

theorem lookup_erase_cases {connections : AssocMap ℤ PoolConnection} {idx' : ℤ}
    {pc' : PoolConnection} (h : (connections.erase idx).lookup idx' = some pc') :
    idx' ≠ idx ∧ connections.lookup idx' = some pc' := by
  by_cases hidx : idx' = idx
  · rw [hidx, lookup_erase] at h
    cases h
  · rw [lookup_erase_ne hidx] at h
    exact ⟨hidx, h⟩

theorem Change.uniform (h : Change nw around pe nw' sent) (hold : nw.Uniform) :
    nw'.Uniform ∧ nw'.activeTimeout = nw.activeTimeout := by
  cases h with
  | @sent pe reqId timeout idx pc pc' hsends htakes hresend hsending =>
    refine ⟨fun idx' pc₁ hpc₁ => ?_, rfl⟩
    rcases lookup_insert_cases hpc₁ with ⟨-, rfl⟩ | ⟨-, hpc₁⟩
    · rw [hsending.activeTimeout]
      cases htakes with
      | mapped hmap hpc => exact hold _ _ hpc
      | available hmap hpc hnodes => exact hold _ _ hpc
      | fresh hmap hnew => exact (PoolConnection.new_eq_ok hnew).2.2.2.2
    · exact hold idx' pc₁ hpc₁
  | lost hsends hmap hpc => exact ⟨hold, rfl⟩
  | nodes nodes => exact ⟨hold, rfl⟩
  | extended hmap hpc htimers =>
    refine ⟨fun idx' pc₁ hpc₁ => ?_, rfl⟩
    rcases lookup_insert_cases hpc₁ with ⟨-, rfl⟩ | ⟨-, hpc₁⟩
    · have hactive := hold _ _ hpc
      exact hactive
    · exact hold idx' pc₁ hpc₁
  | notExtended reqId name timeout => exact ⟨hold, rfl⟩
  | @cleaned reqId nodeAlias idx pc hmap hpc =>
    refine ⟨fun idx' pc₁ hpc₁ => ?_, rfl⟩
    rcases lookup_insert_cases hpc₁ with ⟨-, rfl⟩ | ⟨-, hpc₁⟩
    · obtain ⟨timeouts, heq⟩ := cleanTimeout_eq pc reqId nodeAlias
      have hactive := hold _ _ hpc
      rw [heq]
      exact hactive
    · exact hold idx' pc₁ hpc₁
  | removed hmap hpc hexpired hempty =>
    exact ⟨fun idx' pc₁ hpc₁ => hold idx' pc₁ (lookup_erase_cases hpc₁).2, rfl⟩
  | notCleaned reqId nodeAlias hnone => exact ⟨hold, rfl⟩
  | swept hkept => exact ⟨fun idx' pc₁ hpc₁ => hold idx' pc₁ ((hkept idx' pc₁).mp hpc₁).1, rfl⟩

theorem cleans_of_empty {nodeAlias : Option String}
    (h : (pc.cleanTimeout reqId nodeAlias).timeouts = ∅) {key : TimerKey} {t : ℤ}
    (hkey : pc.timeouts.lookup key = some t) : Cleans reqId nodeAlias key := by
  by_contra hnot
  have hlookup := lookup_cleanTimeout pc reqId nodeAlias key
  rw [if_neg hnot, hkey, h, lookup_empty] at hlookup
  cases hlookup

variable {awaited : Finset TimerKey} {due : Option Entry}

theorem Change.routed (h : Change nw around pe nw' sent) (hs : nw.Sound)
    (horderly : Orderly ⟨nw, awaited, due⟩ (.event pe around)) {r : String} {i : ℤ}
    (hr : nw'.reqIdMappings.lookup r = some i) : ∃ pc, nw'.poolConnections.lookup i = some pc := by
  cases h with
  | @sent pe reqId timeout idx pc pc' hsends htakes hresend hsending =>
    change (nw.reqIdMappings.insert reqId idx).lookup r = some i at hr
    change ∃ pc, (nw.poolConnections.insert idx pc').lookup i = some pc
    by_cases hi : i = idx
    · rw [hi, lookup_insert]
      exact ⟨pc', rfl⟩
    · rw [lookup_insert_ne hi]
      by_cases hreq : r = reqId
      · rw [hreq, lookup_insert] at hr
        exact absurd (Option.some.inj hr).symm hi
      · rw [lookup_insert_ne hreq] at hr
        exact hs.routed r i hr
  | @lost pe reqId timeout idx hsends hmap hpc =>
    obtain ⟨pc, hlive⟩ := hs.routed reqId idx hmap
    rw [hpc] at hlive
    cases hlive
  | nodes nodes => exact hs.routed r i hr
  | @extended reqId name timeout idx pc timeouts hmap hpc htimers =>
    change ∃ pc, (nw.poolConnections.insert idx _).lookup i = some pc
    by_cases hi : i = idx
    · rw [hi, lookup_insert]
      exact ⟨_, rfl⟩
    · rw [lookup_insert_ne hi]
      exact hs.routed r i hr
  | notExtended reqId name timeout => exact hs.routed r i hr
  | @cleaned reqId nodeAlias idx pc hmap hpc =>
    obtain ⟨hr, -⟩ := lookup_mappingsAfter.mp hr
    change ∃ pc, (nw.poolConnections.insert idx _).lookup i = some pc
    by_cases hi : i = idx
    · rw [hi, lookup_insert]
      exact ⟨_, rfl⟩
    · rw [lookup_insert_ne hi]
      exact hs.routed r i hr
  | @removed reqId nodeAlias idx pc hmap hpc hexpired hempty =>
    obtain ⟨hr, hother⟩ := lookup_mappingsAfter.mp hr
    have halone : CleansAlone nw reqId nodeAlias around.now := horderly.2.2
    obtain ⟨hnone, honly⟩ := halone idx pc hmap hpc hexpired
      (fun key t hkey => cleans_of_empty hempty hkey)
    have hi : i ≠ idx := by
      intro hi
      exact hother ⟨hnone, honly r (hi ▸ hr)⟩
    change ∃ pc, (nw.poolConnections.erase idx).lookup i = some pc
    rw [lookup_erase_ne hi]
    exact hs.routed r i hr
  | notCleaned reqId nodeAlias hnone =>
    exact hs.routed r i (lookup_mappingsAfter.mp hr).1
  | swept hkept =>
    obtain ⟨pc, hpc⟩ := hs.routed r i hr
    have hunmapped : SweepsUnmapped nw around.now := horderly.2.2
    refine ⟨pc, (hkept i pc).mpr ⟨hpc, fun horphaned => ?_⟩⟩
    exact hunmapped i pc hpc horphaned.1 horphaned.2 r hr

theorem Change.timers (h : Change nw around pe nw' sent) (hs : nw.Sound) {i : ℤ} {key : TimerKey}
    {t : ℤ} (hpc : nw'.poolConnections.lookup i = some pc)
    (hkey : pc.timeouts.lookup key = some t) :
    nw'.reqIdMappings.lookup key.1 = some i ∧ pc.Listens key.2 := by
  cases h with
  | @sent pe reqId timeout idx pc₀ pc' hsends htakes hresend hsending =>
    change (nw.reqIdMappings.insert reqId idx).lookup key.1 = some i ∧ _
    rcases lookup_insert_cases hpc with ⟨hi, rfl⟩ | ⟨hi, hpc⟩
    · have hown : key ∈ (pc₀.messages pe).map SentMessage.key →
          key.1 = reqId ∧ pc.Listens key.2 := by
        intro hmem
        obtain ⟨m, hm, rfl⟩ := List.mem_map.mp hmem
        exact ⟨hsending.own m hm, hsending.listens m hm⟩
      rw [hsending.timers] at hkey
      split_ifs at hkey with hsent
      · obtain ⟨hreq, hlistens⟩ := hown hsent
        rw [hreq, hi, lookup_insert]
        exact ⟨rfl, hlistens⟩
      · have hold : nw.reqIdMappings.lookup key.1 = some idx ∧ pc₀.Listens key.2 := by
          cases htakes with
          | mapped hmap hpc => exact hs.timers _ _ key t hpc hkey
          | available hmap hpc hnodes => exact hs.timers _ _ key t hpc hkey
          | fresh hmap hnew =>
            rw [(PoolConnection.new_eq_ok hnew).2.1, lookup_empty] at hkey
            cases hkey
        refine ⟨?_, hsending.keeps_listening hold.2⟩
        rw [hi]
        by_cases hreq : key.1 = reqId
        · rw [hreq, lookup_insert]
        · rw [lookup_insert_ne hreq]
          exact hold.1
    · obtain ⟨hmap, hlistens⟩ := hs.timers i pc key t hpc hkey
      have hreq : key.1 ≠ reqId := by
        intro hreq
        rw [hreq] at hmap
        exact hi (htakes.mapped_iff hmap)
      rw [lookup_insert_ne hreq]
      exact ⟨hmap, hlistens⟩
  | @lost pe reqId timeout idx hsends hmap hnone =>
    obtain ⟨pc', hlive⟩ := hs.routed reqId idx hmap
    rw [hnone] at hlive
    cases hlive
  | nodes nodes => exact hs.timers i pc key t hpc hkey
  | @extended reqId name timeout idx pc₀ timeouts hmap hpc₀ htimers =>
    rcases lookup_insert_cases hpc with ⟨hi, rfl⟩ | ⟨hi, hpc⟩
    · have hold : ∃ t, pc₀.timeouts.lookup key = some t := by
        have hkey : timeouts.lookup key = some t := hkey
        rw [htimers] at hkey
        split_ifs at hkey with hname
        · obtain ⟨t', ht', -⟩ := map_eq_some_iff.mp hkey
          exact ⟨t', ht'⟩
        · exact ⟨t, hkey⟩
      obtain ⟨t', ht'⟩ := hold
      have hmapped := hs.timers idx pc₀ key t' hpc₀ ht'
      rw [hi]
      exact hmapped
    · exact hs.timers i pc key t hpc hkey
  | notExtended reqId name timeout => exact hs.timers i pc key t hpc hkey
  | @cleaned reqId nodeAlias idx pc₀ hmap hpc₀ =>
    rcases lookup_insert_cases hpc with ⟨hi, rfl⟩ | ⟨hi, hpc⟩
    · rw [lookup_cleanTimeout] at hkey
      split_ifs at hkey with hcleans
      obtain ⟨hmapped, hlistens⟩ := hs.timers idx pc₀ key t hpc₀ hkey
      obtain ⟨timeouts, heq⟩ := cleanTimeout_eq pc₀ reqId nodeAlias
      refine ⟨lookup_mappingsAfter.mpr ⟨hi ▸ hmapped, ?_⟩, ?_⟩
      · rintro ⟨rfl, hreq⟩
        exact hcleans ⟨hreq, fun name hname => by cases hname⟩
      · rw [heq]
        exact hlistens
    · obtain ⟨hmapped, hlistens⟩ := hs.timers i pc key t hpc hkey
      refine ⟨lookup_mappingsAfter.mpr ⟨hmapped, ?_⟩, hlistens⟩
      rintro ⟨-, hreq⟩
      rw [hreq, hmap] at hmapped
      exact hi (Option.some.inj hmapped).symm
  | @removed reqId nodeAlias idx pc₀ hmap hpc₀ hexpired hempty =>
    obtain ⟨hi, hpc⟩ := lookup_erase_cases hpc
    obtain ⟨hmapped, hlistens⟩ := hs.timers i pc key t hpc hkey
    refine ⟨lookup_mappingsAfter.mpr ⟨hmapped, ?_⟩, hlistens⟩
    rintro ⟨-, hreq⟩
    rw [hreq, hmap] at hmapped
    exact hi (Option.some.inj hmapped).symm
  | notCleaned reqId nodeAlias hnone =>
    obtain ⟨hmapped, hlistens⟩ := hs.timers i pc key t hpc hkey
    refine ⟨lookup_mappingsAfter.mpr ⟨hmapped, ?_⟩, hlistens⟩
    rintro ⟨-, hreq⟩
    rw [hreq] at hmapped
    have hpc : nw.poolConnections.lookup i = some pc := hpc
    rw [hnone i hmapped] at hpc
    cases hpc
  | swept hkept => exact hs.timers i pc key t ((hkept i pc).mp hpc).1 hkey

theorem Change.resendable (h : Change nw around pe nw' sent) (hs : nw.Sound) {i : ℤ}
    (hpc : nw'.poolConnections.lookup i = some pc) : pc.Resendable := by
  cases h with
  | @sent pe reqId timeout idx pc₀ pc' hsends htakes hresend hsending =>
    rcases lookup_insert_cases hpc with ⟨hi, rfl⟩ | ⟨hi, hpc⟩
    · refine hresend ?_
      cases htakes with
      | mapped hmap hpc => exact hs.resend _ _ hpc
      | available hmap hpc hnodes => exact hs.resend _ _ hpc
      | fresh hmap hnew =>
        intro r entry hentry
        rw [(PoolConnection.new_eq_ok hnew).2.2.1, lookup_empty] at hentry
        cases hentry
    · exact hs.resend i pc hpc
  | lost hsends hmap hnone => exact hs.resend i pc hpc
  | nodes nodes => exact hs.resend i pc hpc
  | extended hmap hpc₀ htimers =>
    rcases lookup_insert_cases hpc with ⟨hi, rfl⟩ | ⟨hi, hpc⟩
    · have hold := hs.resend _ _ hpc₀
      exact hold
    · exact hs.resend i pc hpc
  | notExtended reqId name timeout => exact hs.resend i pc hpc
  | @cleaned reqId nodeAlias idx pc₀ hmap hpc₀ =>
    rcases lookup_insert_cases hpc with ⟨hi, rfl⟩ | ⟨hi, hpc⟩
    · obtain ⟨timeouts, heq⟩ := cleanTimeout_eq pc₀ reqId nodeAlias
      have hold := hs.resend _ _ hpc₀
      rw [heq]
      exact hold
    · exact hs.resend i pc hpc
  | removed hmap hpc₀ hexpired hempty => exact hs.resend i pc (lookup_erase_cases hpc).2
  | notCleaned reqId nodeAlias hnone => exact hs.resend i pc hpc
  | swept hkept => exact hs.resend i pc ((hkept i pc).mp hpc).1

theorem Change.sound (h : Change nw around pe nw' sent) (hs : nw.Sound)
    (horderly : Orderly ⟨nw, awaited, due⟩ (.event pe around)) : nw'.Sound where
  routed := fun _ _ hr => h.routed hs horderly hr
  timers := fun _ _ _ _ hpc hkey => h.timers hs hpc hkey
  resend := fun _ _ hpc => h.resendable hs hpc
  uniform := (h.uniform hs.uniform).1

theorem Change.takes (h : Change nw around pe nw' sent) (hs : nw.Sound)
    (hsends : pe.sends = some (reqId, seconds)) :
    ∃ idx pc, nw.Takes reqId around idx pc ∧ sent = pc.messages pe := by
  cases h with
  | @sent pe reqId' timeout idx pc pc' hsends' htakes hresend hsending =>
    rw [hsends] at hsends'
    cases hsends'
    exact ⟨idx, pc, htakes, rfl⟩
  | @lost pe reqId' timeout idx hsends' hmap hnone =>
    obtain ⟨pc, hlive⟩ := hs.routed reqId' idx hmap
    rw [hnone] at hlive
    cases hlive
  | _ => cases hsends

/-- Every awaited answer has a timer. -/
def Covers (nw : ZMQNetworker) (awaited : Finset TimerKey) : Prop :=
  ∀ key ∈ awaited, ∃ idx pc t, nw.poolConnections.lookup idx = some pc ∧
    pc.timeouts.lookup key = some t

theorem awaitedAfter_of_sends (h : pe.sends = some (reqId, seconds)) :
    awaitedAfter awaited pe sent = awaited ∪ (sent.map SentMessage.key).toFinset := by
  cases pe with
  | cleanTimeout reqId nodeAlias => cases h
  | _ => rfl

theorem Change.covers (h : Change nw around pe nw' sent)
    (horderly : Orderly ⟨nw, awaited, due⟩ (.event pe around)) (hold : nw.Covers awaited) :
    nw'.Covers (awaitedAfter awaited pe sent) := by
  cases h with
  | @sent pe reqId timeout idx pc₀ pc' hsends htakes hresend hsending =>
    rw [awaitedAfter_of_sends hsends]
    intro key hkey
    by_cases hsent : key ∈ (pc₀.messages pe).map SentMessage.key
    · refine ⟨idx, pc', around.now + timeout * 1000000000, lookup_insert _, ?_⟩
      rw [hsending.timers, if_pos hsent]
    · rcases Finset.mem_union.mp hkey with hkey | hkey
      · obtain ⟨i, pc, t, hpc, ht⟩ := hold key hkey
        by_cases hi : i = idx
        · have hsame : pc₀.timeouts.lookup key = some t := by
            cases htakes with
            | mapped hmap hpc₀ =>
              rw [hi, hpc₀] at hpc
              cases hpc
              exact ht
            | available hmap hpc₀ hnodes =>
              rw [hi, hpc₀] at hpc
              cases hpc
              exact ht
            | fresh hmap hnew =>
              rw [hi, (horderly.2.1 reqId timeout hsends).fresh hmap] at hpc
              cases hpc
          refine ⟨idx, pc', t, lookup_insert _, ?_⟩
          rw [hsending.timers, if_neg hsent]
          exact hsame
        · exact ⟨i, pc, t, (lookup_insert_ne hi).trans hpc, ht⟩
      · exact absurd (List.mem_toFinset.mp hkey) hsent
  | lost hsends hmap hnone =>
    rw [awaitedAfter_of_sends hsends]
    intro key hkey
    exact hold key (by simpa using hkey)
  | nodes nodes =>
    intro key hkey
    exact hold key (by simpa [awaitedAfter] using hkey)
  | @extended reqId name timeout idx pc₀ timeouts hmap hpc₀ htimers =>
    intro key hkey
    obtain ⟨i, pc, t, hpc, ht⟩ := hold key (by simpa [awaitedAfter] using hkey)
    by_cases hi : i = idx
    · rw [hi, hpc₀] at hpc
      cases hpc
      have hafter := htimers key
      split_ifs at hafter with hname
      · rw [ht] at hafter
        exact ⟨idx, _, _, lookup_insert _, hafter⟩
      · exact ⟨idx, _, t, lookup_insert _, hafter.trans ht⟩
    · exact ⟨i, pc, t, (lookup_insert_ne hi).trans hpc, ht⟩
  | notExtended reqId name timeout =>
    intro key hkey
    exact hold key (by simpa [awaitedAfter] using hkey)
  | @cleaned reqId nodeAlias idx pc₀ hmap hpc₀ =>
    intro key hkey
    obtain ⟨hkey, hcleans⟩ := Finset.mem_filter.mp hkey
    obtain ⟨i, pc, t, hpc, ht⟩ := hold key hkey
    by_cases hi : i = idx
    · rw [hi, hpc₀] at hpc
      cases hpc
      refine ⟨idx, _, t, lookup_insert _, ?_⟩
      rw [lookup_cleanTimeout, if_neg hcleans]
      exact ht
    · exact ⟨i, pc, t, (lookup_insert_ne hi).trans hpc, ht⟩
  | @removed reqId nodeAlias idx pc₀ hmap hpc₀ hexpired hempty =>
    intro key hkey
    obtain ⟨hkey, hcleans⟩ := Finset.mem_filter.mp hkey
    obtain ⟨i, pc, t, hpc, ht⟩ := hold key hkey
    have hi : i ≠ idx := by
      intro hi
      rw [hi, hpc₀] at hpc
      cases hpc
      exact hcleans (cleans_of_empty hempty ht)
    exact ⟨i, pc, t, (lookup_erase_ne hi).trans hpc, ht⟩
  | notCleaned reqId nodeAlias hnone =>
    intro key hkey
    exact hold key (Finset.mem_filter.mp hkey).1
  | swept hkept =>
    intro key hkey
    obtain ⟨i, pc, t, hpc, ht⟩ := hold key (by simpa [awaitedAfter] using hkey)
    refine ⟨i, pc, t, (hkept i pc).mpr ⟨hpc, ?_⟩, ht⟩
    rintro ⟨-, hempty⟩
    rw [hempty, lookup_empty] at ht
    cases ht

theorem eq_nil_of_arrange {nodes : List RemoteNode} {preordered : List String}
    {shuffle : IterationOrder} (h : arrange nodes preordered shuffle = []) : nodes = [] := by
  have hperm : (arrange nodes preordered shuffle).Perm nodes := by
    simp only [arrange]
    split_ifs
    · exact shuffle.perm nodes
    · exact (List.perm_insertionSort _ _).trans (shuffle.perm nodes)
  rw [h] at hperm
  exact List.nil_perm.mp hperm

theorem removeOrphaned_total {now : ℤ} {l : List (ℤ × PoolConnection)}
    (h : ∀ c ∈ l, Duration.InRange c.2.activeTimeout) (connections : AssocMap ℤ PoolConnection) :
    ∃ left, removeOrphaned now l connections = .ok left := by
  induction l generalizing connections with
  | nil => exact ⟨connections, rfl⟩
  | cons c l ih =>
    obtain ⟨idx, pc⟩ := c
    have hrest : ∀ c ∈ l, Duration.InRange c.2.activeTimeout :=
      fun c hc => h c (List.mem_cons_of_mem _ hc)
    have hrange : Duration.InRange pc.activeTimeout := h (idx, pc) List.mem_cons_self
    obtain ⟨orphaned, horphaned⟩ := @isOrphaned_total pc Empty now hrange
    rw [removeOrphaned, horphaned, ok_bind]
    cases orphaned with
    | true => exact ih hrest (connections.erase idx)
    | false => exact ih hrest connections

theorem connectionFor_total (huniform : nw.Uniform)
    (hrange : Duration.InRange nw.activeTimeout) (reqId : String) (now : ℤ) :
    ∃ num, nw.connectionFor reqId now = .ok num := by
  rw [connectionFor]
  cases hmap : nw.reqIdMappings.lookup reqId with
  | some idx => exact ⟨some idx, rfl⟩
  | none =>
    simp only [availableConnection]
    cases hlast : nw.ordered.getLast? with
    | none => exact ⟨none, rfl⟩
    | some last =>
      obtain ⟨idx, pc⟩ := last
      have hpc := huniform idx pc (mem_ordered.mp (List.mem_of_getLast? hlast))
      obtain ⟨active, hactive⟩ := @isActive_total pc Empty now (hpc ▸ hrange)
      simp only [hactive, ok_bind]
      split_ifs with hfits
      · exact ⟨some idx, rfl⟩
      · exact ⟨none, rfl⟩

theorem sendOver_total (hsends : pe.sends = some (reqId, seconds)) (hs : nw.Sound)
    (hrange : Duration.InRange nw.activeTimeout) (hsendable : Sendable nw pe reqId seconds around) :
    ∃ nw' sent, nw.sendOver pe reqId around = .ok (nw', sent) := by
  obtain ⟨num, hnum⟩ := connectionFor_total hs.uniform hrange reqId around.now
  rw [sendOver, hnum, ok_bind]
  cases num with
  | none =>
    have hmap := connectionFor_none hnum
    obtain ⟨pc, hnew⟩ : ∃ pc, PoolConnection.new nw.nodes nw.activeTimeout nw.preorderedNodes
        around = .ok pc := by
      simp only [PoolConnection.new, hsendable.works.keyPair, if_true]
      exact ⟨_, rfl⟩
    have hparts := PoolConnection.new_eq_ok hnew
    have hresend : pc.Resendable := by
      intro r entry hentry
      rw [hparts.2.2.1, lookup_empty] at hentry
      cases hentry
    have hnodes : ∀ msg, pe = .sendOneRequest msg reqId seconds → pc.nodes ≠ [] := by
      intro msg hpe hnil
      refine hsendable.poolNodes msg hpe hmap ?_
      rw [hparts.1] at hnil
      exact eq_nil_of_arrange hnil
    obtain ⟨pc', sent, hsent⟩ := sendRequest_total hsends hsendable.works hsendable.range hresend
      hnodes
    simp only [hnew, ok_bind, hsent, expect]
    exact ⟨_, _, rfl⟩
  | some idx =>
    simp only
    cases hpc : nw.poolConnections.lookup idx with
    | none => exact ⟨_, _, rfl⟩
    | some pc =>
      have hnodes : ∀ msg, pe = .sendOneRequest msg reqId seconds → pc.nodes ≠ [] := by
        intro msg hpe
        rcases connectionFor_some hnum with hmap | ⟨hmap, pc', hpc', hsame⟩
        · exact hsendable.mappedNodes msg hpe idx pc hmap hpc
        · rw [hpc] at hpc'
          cases hpc'
          intro hnil
          rw [hnil, List.toFinset_nil, eq_comm, List.toFinset_eq_empty_iff] at hsame
          exact hsendable.poolNodes msg hpe hmap hsame
      obtain ⟨pc', sent, hsent⟩ := sendRequest_total hsends hsendable.works hsendable.range
        (hs.resend idx pc hpc) hnodes
      simp only [hsent, expect, ok_bind]
      exact ⟨_, _, rfl⟩

/-- An orderly event is handled. -/
theorem processEvent_total (hs : nw.Sound)
    (horderly : Orderly ⟨nw, awaited, due⟩ (.event pe around)) :
    ∃ nw' sent, nw.processEvent pe around = .ok (nw', sent) := by
  obtain ⟨hrange, hsendable, hrest⟩ := horderly
  cases pe with
  | sendOneRequest msg reqId seconds =>
    exact sendOver_total rfl hs hrange (hsendable reqId seconds rfl)
  | sendAllRequest msg reqId seconds nodes =>
    exact sendOver_total rfl hs hrange (hsendable reqId seconds rfl)
  | resend reqId seconds => exact sendOver_total rfl hs hrange (hsendable reqId seconds rfl)
  | nodesStateUpdated nodes => exact ⟨_, _, rfl⟩
  | extendTimeout reqId name seconds =>
    simp only [processEvent]
    cases hmap : nw.reqIdMappings.lookup reqId with
    | none => exact ⟨_, _, rfl⟩
    | some idx =>
      simp only
      cases hpc : nw.poolConnections.lookup idx with
      | none => exact ⟨_, _, rfl⟩
      | some pc =>
        simp only [PoolConnection.extendTimeout]
        cases hlookup : pc.timeouts.lookup (reqId, name) with
        | none => exact ⟨_, _, rfl⟩
        | some t =>
          have hseconds := hrest idx pc hmap hpc (by rw [hlookup]; rfl)
          simp only [Duration.seconds_of_inRange hseconds]
          exact ⟨_, _, rfl⟩
  | cleanTimeout reqId nodeAlias =>
    simp only [processEvent, cleanOver]
    cases hmap : nw.reqIdMappings.lookup reqId with
    | none => exact ⟨_, _, rfl⟩
    | some idx =>
      simp only
      cases hpc : nw.poolConnections.lookup idx with
      | none => exact ⟨_, _, rfl⟩
      | some pc =>
        have hactive : Duration.InRange (pc.cleanTimeout reqId nodeAlias).activeTimeout := by
          obtain ⟨timeouts, heq⟩ := cleanTimeout_eq pc reqId nodeAlias
          have hsame := hs.uniform idx pc hpc
          rw [heq]
          exact hsame ▸ hrange
        obtain ⟨orphaned, horphaned⟩ := @isOrphaned_total _ Empty around.now hactive
        simp only [horphaned, ok_bind]
        cases orphaned with
        | true => exact ⟨_, _, rfl⟩
        | false => exact ⟨_, _, rfl⟩
  | timeout =>
    have hall : ∀ c ∈ nw.ordered, Duration.InRange c.2.activeTimeout := by
      intro c hc
      rw [hs.uniform c.1 c.2 (mem_ordered.mp hc)]
      exact hrange
    obtain ⟨left, hleft⟩ := @removeOrphaned_total around.now nw.ordered hall nw.poolConnections
    simp only [processEvent, hleft]
    exact ⟨_, _, rfl⟩

end ZMQNetworker

namespace Exchange

variable {s : Exchange} {i : NetworkerInput}

theorem step_event {pe : NetworkerEvent} {around : Surroundings} {nw : ZMQNetworker}
    {sent : List SentMessage} (h : s.nw.processEvent pe around = .ok (nw, sent)) :
    exchange.step (.event pe around) s =
      (.ok ([], sent), { s with nw := nw, awaited := awaitedAfter s.awaited pe sent }) := by
  simp only [exchange, h]

theorem step_panic {pe : NetworkerEvent} {around : Surroundings}
    (h : s.nw.processEvent pe around = .panic) :
    exchange.step (.event pe around) s = (.panic, s) := by
  simp only [exchange, h]

/-- The invariant of a run. -/
structure Sound (s : Exchange) : Prop where
  networker : s.nw.Sound
  covers : s.nw.Covers s.awaited

theorem start_sound (activeTimeout : ℤ) (connLimit : ℕ) (preorderedNodes : List String) :
    (start activeTimeout connLimit preorderedNodes).Sound where
  networker := {
    routed := fun reqId idx h => by cases (lookup_empty reqId).symm.trans h
    timers := fun idx pc key t h => by cases (lookup_empty idx).symm.trans h
    resend := fun idx pc h => by cases (lookup_empty idx).symm.trans h
    uniform := fun idx pc h => by cases (lookup_empty idx).symm.trans h }
  covers := fun key hkey => absurd hkey (Finset.notMem_empty key)

theorem poll_nw (now : ℤ) (order : IterationOrder) (arrived : Option (ℕ → Option String)) :
    (exchange.step (.poll now order arrived) s).2.nw = s.nw ∧
      (exchange.step (.poll now order arrived) s).2.awaited = s.awaited := by
  cases arrived with
  | none => exact ⟨rfl, rfl⟩
  | some texts => exact ⟨rfl, rfl⟩

theorem Sound.step (hs : s.Sound) (horderly : Orderly s i) : (exchange.step i s).2.Sound := by
  cases i with
  | poll now order arrived =>
    obtain ⟨hnw, hawaited⟩ := @poll_nw s now order arrived
    exact ⟨hnw ▸ hs.networker, hnw ▸ hawaited ▸ hs.covers⟩
  | event pe around =>
    obtain ⟨nw, sent, hok⟩ := ZMQNetworker.processEvent_total hs.networker horderly
    have hchange := ZMQNetworker.change_of_processEvent hok
    rw [step_event hok]
    exact ⟨hchange.sound hs.networker horderly, hchange.covers horderly hs.covers⟩

/-- The entries that are over, but for the one that was reported last. -/
def early (limit : ℤ) (s : Exchange) : Finset Entry :=
  s.nw.entries.filter (fun e => e.time < limit) \ s.due.toFinset

theorem card_early_step {key : TimerKey} {deadline : ℤ} (huniform : s.nw.Uniform)
    (h : Waiting key deadline s i) :
    (early (deadline + 1000000) (exchange.step i s).2).card + (if i.isIdle then 1 else 0) ≤
      (early (deadline + 1000000) s).card := by
  cases i with
  | event pe around =>
    refine Finset.card_le_card (fun e he => ?_)
    cases hresult : s.nw.processEvent pe around with
    | ok result =>
      obtain ⟨nw, sent⟩ := result
      rw [step_event hresult] at he
      obtain ⟨hentry, hdue⟩ := Finset.mem_sdiff.mp he
      obtain ⟨hmem, hearly⟩ := Finset.mem_filter.mp hentry
      have hold := (ZMQNetworker.change_of_processEvent hresult).entries_early h.elapsed
        (h.forward.2 pe around rfl) h.forward.1 hmem hearly
      exact Finset.mem_sdiff.mpr ⟨Finset.mem_filter.mpr ⟨hold, hearly⟩, hdue⟩
    | err e => exact e.elim
    | panic =>
      rw [step_panic hresult] at he
      exact he
  | poll now order arrived =>
    cases arrived with
    | some texts => exact Nat.le_of_eq (Nat.add_zero _)
    | none =>
      obtain ⟨idx, pc, hpc, hkey⟩ := h.armed
      have hactive : ∀ idx pc, s.nw.poolConnections.lookup idx = some pc →
          0 ≤ pc.activeTimeout := fun idx pc hpc => huniform idx pc hpc ▸ h.forward.1
      obtain ⟨e, hreported, hmem, htime⟩ :=
        @ZMQNetworker.reportedEntry_early s.nw now order idx deadline pc key hactive hpc
          hkey h.elapsed
      have hdue : s.nw.entries.filter (fun e => e.time < deadline + 1000000) \ s.due.toFinset =
          s.nw.entries.filter (fun e => e.time < deadline + 1000000) := by
        refine Finset.sdiff_eq_self_of_disjoint (Finset.disjoint_left.mpr (fun x hx hdue => ?_))
        exact h.attended rfl x (mem_toFinset.mp hdue) (Finset.mem_filter.mp hx).1
      have hnext : early (deadline + 1000000) (exchange.step (.poll now order none) s).2 =
          (s.nw.entries.filter (fun e => e.time < deadline + 1000000)).erase e := by
        rw [← Finset.sdiff_singleton_eq_erase]
        simp only [early, exchange, isNone_none, if_true, hreported, toFinset_some]
      have hearly : e ∈ s.nw.entries.filter (fun e => e.time < deadline + 1000000) :=
        Finset.mem_filter.mpr ⟨hmem, htime⟩
      rw [hnext, early, hdue]
      exact Nat.le_of_eq (Finset.card_erase_add_one hearly)

theorem uniform_step (huniform : s.nw.Uniform) : (exchange.step i s).2.nw.Uniform := by
  cases i with
  | poll now order arrived => exact (@poll_nw s now order arrived).1 ▸ huniform
  | event pe around =>
    cases hresult : s.nw.processEvent pe around with
    | ok result =>
      obtain ⟨nw, sent⟩ := result
      rw [step_event hresult]
      exact ((ZMQNetworker.change_of_processEvent hresult).uniform huniform).1
    | err e => exact e.elim
    | panic =>
      rw [step_panic hresult]
      exact huniform

theorem idle_le_entries {key : TimerKey} {deadline : ℤ} {after : List NetworkerInput}
    (huniform : s.nw.Uniform)
    (h : exchange.Along (Waiting key deadline) { s with due := none } after) :
    after.countP NetworkerInput.isIdle ≤ s.nw.entries.card := by
  have hstep : ∀ (s : Exchange) i, s.nw.Uniform → Waiting key deadline s i →
      (Waiting key deadline s i ∧ s.nw.Uniform) ∧ (exchange.step i s).2.nw.Uniform :=
    fun s i hs hw => ⟨⟨hw, hs⟩, uniform_step hs⟩
  have hboth : exchange.Along (fun s i => Waiting key deadline s i ∧ s.nw.Uniform)
      { s with due := none } after :=
    Machine.along_of_along hstep huniform h
  have hcount := @Machine.countP_le_of_along _ _ _ exchange _
    (fun s => (early (deadline + 1000000) s).card) NetworkerInput.isIdle
    (fun s i hw => card_early_step hw.2 hw.1) _ _ hboth
  have hstart : (early (deadline + 1000000) { s with due := none }).card ≤ s.nw.entries.card :=
    Finset.card_le_card (fun e he => (Finset.mem_filter.mp (Finset.mem_sdiff.mp he).1).1)
  omega

theorem Sound.kept (hs : s.Sound) : Kept s where
  routed := hs.networker.routed
  armed := by
    intro key hkey
    obtain ⟨idx, pc, t, hpc, ht⟩ := hs.covers key hkey
    exact ⟨idx, pc, t, (hs.networker.timers idx pc key t hpc ht).1, hpc, ht⟩
  polled := by
    intro key hkey
    obtain ⟨idx, pc, t, hpc, ht⟩ := hs.covers key hkey
    obtain ⟨node, hnode, hname⟩ := (hs.networker.timers idx pc key t hpc ht).2.polled
    exact ⟨node, List.mem_flatMap.mpr ⟨(idx, pc), ZMQNetworker.mem_ordered.mpr hpc, hnode⟩, hname⟩
  heard := s.nw.poll_arrived
  reported := fun _ _ _ _ _ _ _ _ h => idle_le_entries hs.networker.uniform h

end Exchange

/-- In every run whose steps are orderly, requests stay with live connections, every awaited answer
has its timer, and every message that is sent is answered or reported. -/
theorem exchange_kept (activeTimeout : ℤ) (connLimit : ℕ) (preorderedNodes : List String)
    (inputs : List NetworkerInput)
    (h : exchange.Along Orderly (Exchange.start activeTimeout connLimit preorderedNodes) inputs) :
    exchange.Along StepKept (Exchange.start activeTimeout connLimit preorderedNodes) inputs := by
  refine Machine.along_of_along (fun s i hs horderly => ?_)
    (Exchange.start_sound activeTimeout connLimit preorderedNodes) h
  refine ⟨⟨?_, ?_, (hs.step horderly).kept⟩, hs.step horderly⟩
  · cases i with
    | poll now order arrived =>
      cases arrived with
      | none =>
        simp only [exchange, ZMQNetworker.poll_idle, map_ok]
        exact ok_ne_panic _
      | some texts =>
        simp only [exchange, ZMQNetworker.poll_arrived, map_ok]
        exact ok_ne_panic _
    | event pe around =>
      obtain ⟨nw, sent, hok⟩ := ZMQNetworker.processEvent_total hs.networker horderly
      rw [Exchange.step_event hok]
      exact ok_ne_panic _
  · rintro pe around reqId seconds rfl hsends
    obtain ⟨nw, sent, hok⟩ := ZMQNetworker.processEvent_total hs.networker horderly
    have hchange := ZMQNetworker.change_of_processEvent hok
    rw [Exchange.step_event hok]
    obtain ⟨idx, pc, htakes, rfl⟩ := hchange.takes hs.networker hsends
    refine ⟨idx, pc, htakes, rfl, fun m hm => ?_⟩
    rw [ZMQNetworker.awaitedAfter_of_sends hsends]
    exact Finset.mem_union_right _ (List.mem_toFinset.mpr (List.mem_map_of_mem hm))

def node1 : RemoteNode := ⟨"Node1", [], "tcp://10.0.0.1:9702", false⟩

/-- A time at which everything that is tried works. -/
def calm (now : ℤ) : Surroundings where
  now := now
  nextId := 1
  shuffle := .inserted
  keyPair := true
  connect := fun _ => none
  send := fun _ => none

def sentRun : List NetworkerInput :=
  [.event (.nodesStateUpdated [node1]) (calm 0), .event (.sendOneRequest "msg" "A" 20) (calm 0)]

theorem exchange_kept_sent :
    exchange.Along Orderly (Exchange.start 5 5 []) sentRun ∧
      exchange.Along StepKept (Exchange.start 5 5 []) sentRun := by
  have hworks : (calm 0).Works := ⟨rfl, fun _ => rfl, fun _ => rfl⟩
  have horderly : exchange.Along Orderly (Exchange.start 5 5 []) sentRun := by
    refine ⟨⟨by decide, (fun reqId seconds hsends => nomatch hsends), trivial⟩,
      ⟨by decide, fun reqId seconds hsends => ?_, trivial⟩, trivial⟩
    cases hsends
    exact {
      works := hworks
      range := by decide
      fresh := fun _ => rfl
      mappedNodes := fun msg _ idx pc hmap => nomatch hmap
      poolNodes := fun msg _ _ hnil => nomatch hnil }
  exact ⟨horderly, exchange_kept 5 5 [] sentRun horderly⟩

def cleanedRun : List NetworkerInput :=
  sentRun ++ [.event (.cleanTimeout "A" (some "Node1")) (calm 5000000000)]

/-- A request whose only timer is cleaned after the active time stays mapped to a connection that is
gone, and is not resent. -/
theorem cleaned_request_astray :
    (exchange.run cleanedRun (Exchange.start 5 5 [])).nw.reqIdMappings.lookup "A" = some 1 ∧
      (exchange.run cleanedRun (Exchange.start 5 5 [])).nw.poolConnections.lookup 1 = none ∧
      (exchange.step (.event (.resend "A" 20) (calm 6000000000))
        (exchange.run cleanedRun (Exchange.start 5 5 []))).1 = .ok ([], []) := by
  refine ⟨by decide +kernel, ?_, by decide +kernel⟩
  rw [← isNone_iff_eq_none]
  decide +kernel

end IndySdk.Pool
