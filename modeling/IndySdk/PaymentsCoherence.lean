import IndySdk.PaymentsSteps

/-!
# The calls of plugins and the callbacks that wait for them

Each open call has its callback with the executor, or the executor is still inside its entry point.
A call without a reply has its closure, one with a reply its acknowledgement in the queue. Every
transition keeps this, and each is seen here on its own.
-/

namespace IndySdk.Payments

open AssocMap List AList
open Wallet (WalletCrypto)

/-! ### Plugins and their replies -/

def Request.Unanswered (request : Request) : Prop := request.reply = none

/-- A plugin replies once to a call that it has accepted, and never to one that it refuses. -/
def Contract (s : PaymentsSystem) (input : PaymentsInput) : Prop :=
  match input.event with
  | .reply cmdHandle _ _ =>
    ∃ request, s.requests.lookup cmdHandle = some request ∧ request.Unanswered
  | .returned err => err ≠ .success → ∀ entered, s.executor.calling = some entered →
      ∃ request, s.requests.lookup entered.call.cmdHandle = some request ∧ request.Unanswered
  | _ => True

/-- The library's numbers are not in use, the records it lists can be read or refused, and replies
are texts. -/
def Permitted (wc : WalletCrypto) (s : PaymentsSystem) (input : PaymentsInput) : Prop :=
  match input.event with
  | .execute => s.executor.calling = none → ∀ cmd queue, s.executor.queue = .user cmd :: queue →
      input.nextId ∉ s.executor.pendingCallbacks ∧ input.nextId ∉ s.executor.callbacks ∧
        Listable wc input.wallets cmd.request
  | .reply _ _ cStr => ∃ metadata, readReply cStr = some metadata
  | _ => True

/-- An entry point returns an error. -/
def Refuses (s : PaymentsSystem) (input : PaymentsInput) : Prop :=
  ∃ err entered, input.event = .returned err ∧ err ≠ .success ∧
    s.executor.calling = some entered

/-- No command waits, no entry point is busy and no accepted call lacks its reply. -/
structure PaymentsSystem.Settled (s : PaymentsSystem) : Prop where
  queue : s.executor.queue = []
  calling : s.executor.calling = none
  replied : ∀ cmdHandle request, s.requests.lookup cmdHandle = some request →
    ¬request.Unanswered

def PaymentsCommand.ack? : PaymentsCommand → Option Ack
  | .user _ => none
  | .ack a => some a

def acks (queue : List PaymentsCommand) : List Ack := queue.filterMap PaymentsCommand.ack?

/-- The calls of plugins, the callbacks that wait and the acknowledgements belong together. -/
structure PaymentsSystem.Coherent (s : PaymentsSystem) : Prop where
  alive : s.executor.panicked = false
  opened : ∀ cmdHandle request, s.requests.lookup cmdHandle = some request →
    request.entered.call.cmdHandle = cmdHandle ∧
      (s.executor.pendingCallbacks.lookup cmdHandle = some request.entered.callback ∨
        s.executor.calling = some request.entered)
  waiting : ∀ cmdHandle ∈ s.executor.pendingCallbacks, cmdHandle ∈ s.requests
  inside : ∀ entered, s.executor.calling = some entered →
    entered.call.cmdHandle ∉ s.executor.pendingCallbacks ∧
      entered.call.cmdHandle ∈ s.requests
  stored : ∀ cmdHandle request, s.requests.lookup cmdHandle = some request →
    request.Unanswered →
    s.executor.callbacks.lookup cmdHandle = some request.entered.call.builder
  nodup : ((acks s.executor.queue).map Ack.cmdHandle).Nodup
  acknowledged : ∀ ack ∈ acks s.executor.queue, ∃ request,
    s.requests.lookup ack.cmdHandle = some request ∧
      ack.builder = request.entered.call.builder ∧ request.reply = some ack.result
  replied : ∀ cmdHandle request, s.requests.lookup cmdHandle = some request →
    ¬request.Unanswered → ∃ ack ∈ acks s.executor.queue, ack.cmdHandle = cmdHandle

/-- Every closure that is kept waits for a reply. -/
def PaymentsSystem.Tidy (s : PaymentsSystem) : Prop :=
  ∀ cmdHandle ∈ s.executor.callbacks, ∃ request,
    s.requests.lookup cmdHandle = some request ∧ request.Unanswered

variable {crates : PaymentsCrates} {wc : WalletCrypto} {s t : PaymentsSystem}
  {input : PaymentsInput} {cmdHandle : ℤ} {request : Request} {entered : Entered}

theorem acks_append_user (queue : List PaymentsCommand) (cmd : UserCommand) :
    acks (queue ++ [.user cmd]) = acks queue := by
  rw [acks, filterMap_append]
  exact append_nil _

theorem acks_append_ack (queue : List PaymentsCommand) (ack : Ack) :
    acks (queue ++ [.ack ack]) = acks queue ++ [ack] := by
  rw [acks, filterMap_append]
  rfl

/-! ### Transitions -/

theorem PaymentsSystem.Coherent.congr (h : s.Coherent)
    (halive : t.executor.panicked = s.executor.panicked)
    (hpending : t.executor.pendingCallbacks = s.executor.pendingCallbacks)
    (hcallbacks : t.executor.callbacks = s.executor.callbacks)
    (hcalling : t.executor.calling = s.executor.calling)
    (hacks : acks t.executor.queue = acks s.executor.queue) (hrequests : t.requests = s.requests) :
    t.Coherent := by
  constructor
  · rw [halive]
    exact h.alive
  · rw [hrequests, hpending, hcalling]
    exact h.opened
  · rw [hrequests, hpending]
    exact h.waiting
  · rw [hrequests, hpending, hcalling]
    exact h.inside
  · rw [hrequests, hcallbacks]
    exact h.stored
  · rw [hacks]
    exact h.nodup
  · rw [hrequests, hacks]
    exact h.acknowledged
  · rw [hrequests, hacks]
    exact h.replied

theorem PaymentsSystem.Coherent.mem_pending (h : s.Coherent) (hcalling : s.executor.calling = none)
    (hrequest : s.requests.lookup cmdHandle = some request) :
    s.executor.pendingCallbacks.lookup cmdHandle = some request.entered.callback := by
  obtain ⟨_, hpending | hinside⟩ := h.opened cmdHandle request hrequest
  · exact hpending
  · rw [hcalling] at hinside
    cases hinside

theorem PaymentsSystem.Coherent.notMem_requests (h : s.Coherent)
    (hcalling : s.executor.calling = none) (hnew : cmdHandle ∉ s.executor.pendingCallbacks) :
    s.requests.lookup cmdHandle = none := by
  cases hrequest : s.requests.lookup cmdHandle with
  | none => rfl
  | some request =>
    have hpending := h.mem_pending hcalling hrequest
    exact absurd (lookup_isSome.mp (by rw [hpending]; rfl)) hnew

/-- The executor enters a plugin under a fresh handle. -/
theorem PaymentsSystem.Coherent.enter {queue : List PaymentsCommand} (h : s.Coherent)
    (hcalling : s.executor.calling = none) (hqueue : acks s.executor.queue = acks queue)
    (hhandle : entered.call.cmdHandle = cmdHandle)
    (hnew : cmdHandle ∉ s.executor.pendingCallbacks) :
    PaymentsSystem.Coherent ⟨{ s.executor with
      queue := queue
      callbacks := s.executor.callbacks.insert cmdHandle entered.call.builder
      calling := some entered }, s.requests.insert cmdHandle ⟨entered, none⟩⟩ := by
  have hnone := h.notMem_requests hcalling hnew
  have hne : ∀ other request, s.requests.lookup other = some request → other ≠ cmdHandle := by
    rintro other request hother rfl
    rw [hnone] at hother
    cases hother
  constructor
  · exact h.alive
  · intro other request hother
    obtain ⟨rfl, rfl⟩ | ⟨_, hother⟩ := lookup_insert_eq_some.mp hother
    · exact ⟨hhandle, .inr rfl⟩
    · exact ⟨(h.opened other request hother).1, .inl (h.mem_pending hcalling hother)⟩
  · intro other hother
    exact (mem_insert _).mpr (.inr (h.waiting other hother))
  · intro other hother
    cases hother
    rw [hhandle]
    exact ⟨hnew, (mem_insert _).mpr (.inl rfl)⟩
  · intro other request hother hreply
    obtain ⟨rfl, rfl⟩ | ⟨hother', hother⟩ := lookup_insert_eq_some.mp hother
    · exact lookup_insert _
    · dsimp only
      rw [lookup_insert_ne hother']
      exact h.stored other request hother hreply
  · dsimp only
    rw [← hqueue]
    exact h.nodup
  · dsimp only
    rw [← hqueue]
    intro ack hack
    obtain ⟨request, hrequest, hrest⟩ := h.acknowledged ack hack
    refine ⟨request, ?_, hrest⟩
    rw [lookup_insert_ne (hne ack.cmdHandle request hrequest)]
    exact hrequest
  · dsimp only
    rw [← hqueue]
    intro other request hother hreply
    obtain ⟨rfl, rfl⟩ | ⟨_, hother⟩ := lookup_insert_eq_some.mp hother
    · exact absurd rfl hreply
    · exact h.replied other request hother hreply

theorem PaymentsSystem.Coherent.ack_ne {ack : Ack} (h : s.Coherent)
    (hrequest : s.requests.lookup cmdHandle = some request) (hopen : request.Unanswered)
    (hack : ack ∈ acks s.executor.queue) :
    ack.cmdHandle ≠ cmdHandle := by
  intro he
  obtain ⟨other, hother, _, hreply⟩ := h.acknowledged ack hack
  rw [he, hrequest] at hother
  cases hother
  rw [Request.Unanswered, hreply] at hopen
  cases hopen

/-- A reply takes its closure and queues an acknowledgement. -/
theorem PaymentsSystem.Coherent.reply {result : Except IndyError String} (h : s.Coherent)
    (hrequest : s.requests.lookup cmdHandle = some request) (hopen : request.Unanswered) :
    PaymentsSystem.Coherent ⟨{ s.executor with
      callbacks := s.executor.callbacks.erase cmdHandle
      queue := s.executor.queue ++ [.ack ⟨request.entered.call.builder, cmdHandle, result⟩] },
      s.requests.insert cmdHandle ⟨request.entered, some result⟩⟩ := by
  constructor
  · exact h.alive
  · intro other request' hother
    obtain ⟨rfl, rfl⟩ | ⟨_, hother⟩ := lookup_insert_eq_some.mp hother
    · exact h.opened other request hrequest
    · exact h.opened other request' hother
  · intro other hother
    exact (mem_insert _).mpr (.inr (h.waiting other hother))
  · intro entered hentered
    obtain ⟨hnew, hmem⟩ := h.inside entered hentered
    exact ⟨hnew, (mem_insert _).mpr (.inr hmem)⟩
  · intro other request' hother hreply
    obtain ⟨rfl, rfl⟩ | ⟨hne, hother⟩ := lookup_insert_eq_some.mp hother
    · cases hreply
    · dsimp only
      rw [lookup_erase_ne hne]
      exact h.stored other request' hother hreply
  · dsimp only
    rw [acks_append_ack, map_append, map_singleton, nodup_append]
    refine ⟨h.nodup, nodup_singleton _, ?_⟩
    intro a ha b hb he
    obtain ⟨ack, hack, rfl⟩ := mem_map.mp ha
    rw [mem_singleton] at hb
    exact h.ack_ne hrequest hopen hack (he.trans hb)
  · dsimp only
    rw [acks_append_ack]
    intro ack hack
    rw [mem_append, mem_singleton] at hack
    obtain hack | rfl := hack
    · obtain ⟨other, hother, hrest⟩ := h.acknowledged ack hack
      refine ⟨other, ?_, hrest⟩
      rw [lookup_insert_ne (h.ack_ne hrequest hopen hack)]
      exact hother
    · exact ⟨_, lookup_insert _, rfl, rfl⟩
  · dsimp only
    rw [acks_append_ack]
    intro other request' hother hreply
    obtain ⟨rfl, rfl⟩ | ⟨_, hother⟩ := lookup_insert_eq_some.mp hother
    · exact ⟨_, mem_append_right _ mem_cons_self, rfl⟩
    · obtain ⟨ack, hack, hhandle⟩ := h.replied other request' hother hreply
      exact ⟨ack, mem_append_left _ hack, hhandle⟩

theorem PaymentsSystem.Coherent.accepted (h : s.Coherent)
    (hcalling : s.executor.calling = some entered) :
    PaymentsSystem.Coherent ⟨{ s.executor with
      calling := none
      pendingCallbacks := s.executor.pendingCallbacks.insert entered.call.cmdHandle
        entered.callback }, s.requests⟩ := by
  obtain ⟨hnew, hmem⟩ := h.inside entered hcalling
  constructor
  · exact h.alive
  · intro other request hother
    obtain ⟨hhandle, hpending | hinside⟩ := h.opened other request hother
    · refine ⟨hhandle, .inl (lookup_insert_eq_some.mpr (.inr ⟨?_, hpending⟩))⟩
      rintro rfl
      exact hnew (lookup_isSome.mp (by rw [hpending]; rfl))
    · rw [hcalling] at hinside
      cases hinside
      exact ⟨hhandle, .inl (lookup_insert_eq_some.mpr (.inl ⟨hhandle.symm, rfl⟩))⟩
  · intro other hother
    obtain rfl | hother := (mem_insert _).mp hother
    · exact hmem
    · exact h.waiting other hother
  · intro other hother
    cases hother
  · exact h.stored
  · exact h.nodup
  · exact h.acknowledged
  · exact h.replied

theorem PaymentsSystem.Coherent.refused (h : s.Coherent)
    (hcalling : s.executor.calling = some entered)
    (hrequest : s.requests.lookup entered.call.cmdHandle = some request)
    (hopen : request.Unanswered) :
    PaymentsSystem.Coherent ⟨{ s.executor with calling := none },
      s.requests.erase entered.call.cmdHandle⟩ := by
  constructor
  · exact h.alive
  · intro other request' hother
    obtain ⟨hne, hother⟩ := lookup_erase_eq_some.mp hother
    obtain ⟨hhandle, hpending | hinside⟩ := h.opened other request' hother
    · exact ⟨hhandle, .inl hpending⟩
    · rw [hcalling] at hinside
      cases hinside
      exact absurd hhandle.symm hne
  · intro other hother
    refine mem_erase.mpr ⟨?_, h.waiting other hother⟩
    rintro rfl
    exact (h.inside entered hcalling).1 hother
  · intro other hother
    cases hother
  · intro other request' hother hreply
    exact h.stored other request' (lookup_erase_eq_some.mp hother).2 hreply
  · exact h.nodup
  · intro ack hack
    obtain ⟨other, hother, hrest⟩ := h.acknowledged ack hack
    refine ⟨other, lookup_erase_eq_some.mpr ⟨?_, hother⟩, hrest⟩
    exact h.ack_ne hrequest hopen hack
  · intro other request' hother hreply
    exact h.replied other request' (lookup_erase_eq_some.mp hother).2 hreply

/-- The first acknowledgement closes its call and takes the callback. -/
theorem PaymentsSystem.Coherent.acknowledge {ack : Ack} {queue : List PaymentsCommand}
    (h : s.Coherent) (hcalling : s.executor.calling = none)
    (hqueue : s.executor.queue = .ack ack :: queue) :
    PaymentsSystem.Coherent ⟨{ s.executor with
      queue := queue
      pendingCallbacks := s.executor.pendingCallbacks.erase ack.cmdHandle },
      s.requests.erase ack.cmdHandle⟩ := by
  have hacks : acks s.executor.queue = ack :: acks queue := by
    rw [hqueue]
    rfl
  have hnodup := h.nodup
  rw [hacks, map_cons, nodup_cons] at hnodup
  constructor
  · exact h.alive
  · intro other request hother
    obtain ⟨hne, hother⟩ := lookup_erase_eq_some.mp hother
    refine ⟨(h.opened other request hother).1, .inl ?_⟩
    exact lookup_erase_eq_some.mpr ⟨hne, h.mem_pending hcalling hother⟩
  · intro other hother
    obtain ⟨hne, hother⟩ := mem_erase.mp hother
    exact mem_erase.mpr ⟨hne, h.waiting other hother⟩
  · intro entered hentered
    dsimp only at hentered
    rw [hcalling] at hentered
    cases hentered
  · intro other request hother hreply
    exact h.stored other request (lookup_erase_eq_some.mp hother).2 hreply
  · exact hnodup.2
  · intro other hother
    obtain ⟨request, hrequest, hrest⟩ := h.acknowledged other
      (by rw [hacks]; exact mem_cons_of_mem _ hother)
    refine ⟨request, lookup_erase_eq_some.mpr ⟨?_, hrequest⟩, hrest⟩
    intro he
    apply hnodup.1
    rw [← he]
    exact mem_map_of_mem hother
  · intro other request hother hreply
    obtain ⟨hne, hother⟩ := lookup_erase_eq_some.mp hother
    obtain ⟨ack', hack', he⟩ := h.replied other request hother hreply
    rw [hacks] at hack'
    obtain rfl | hack' := mem_cons.mp hack'
    · exact absurd he.symm hne
    · exact ⟨ack', hack', he⟩

end IndySdk.Payments
